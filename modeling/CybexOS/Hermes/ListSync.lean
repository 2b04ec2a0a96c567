/-
The edit script by which a list model follows the desired keys
(`listSyncOps`), and what applying it in order leaves.
-/
import Mathlib.Data.List.Basic
import Mathlib.Tactic.SplitIfs

namespace CybexOS

namespace Hermes

variable {α : Type} [DecidableEq α]

inductive SyncOp where
  | remove (at' count : ℕ)
  | insert (at' index : ℕ)
  | keep (at' index : ℕ)
deriving DecidableEq

/-- The working copy, the row that is next and the operations so far. -/
structure Sync (α : Type) where
  model : List α
  row : ℕ
  ops : List SyncOp

/-- `model.splice(start, count, ...items)` -/
def splice (model : List α) (start count : ℕ) (items : List α) : List α :=
  model.take start ++ items ++ model.drop (start + count)

/-- `model.indexOf(key, start)` -/
def indexFrom (model : List α) (key : α) (start : ℕ) : Option ℕ :=
  ((model.drop start).findIdx? (· = key)).map (start + ·)

/-- One desired key at its index. -/
def syncKey (state : Sync α) (wanted : α × ℕ) : Sync α :=
  if state.model[state.row]? = some wanted.1 then
    { state with
      row := state.row + 1
      ops := state.ops ++ [.keep state.row wanted.2] }
  else
    match indexFrom state.model wanted.1 (state.row + 1) with
    | some later =>
        { model := splice state.model state.row (later - state.row) []
          row := state.row + 1
          ops := state.ops ++ [.remove state.row (later - state.row), .keep state.row wanted.2] }
    | none =>
        { model := splice state.model state.row 0 [wanted.1]
          row := state.row + 1
          ops := state.ops ++ [.insert state.row wanted.2] }

def listSyncOps (current desired : List α) : List SyncOp :=
  let state := desired.zipIdx.foldl syncKey ⟨current, 0, []⟩
  if state.row < state.model.length then
    state.ops ++ [.remove state.row (state.model.length - state.row)]
  else state.ops

/-! ### Applying a script -/

/-- One operation on the rows shown; `none` where it leaves their bounds or
keeps a row that is not the desired one. -/
def applyOp (desired rows : List α) : SyncOp → Option (List α)
  | .remove at' count => if at' + count ≤ rows.length then some (splice rows at' count []) else none
  | .insert at' index =>
      if at' ≤ rows.length then (desired[index]?).map fun key => splice rows at' 0 [key] else none
  | .keep at' index =>
      if at' < rows.length ∧ rows[at']? = desired[index]? then some rows else none

def applyOps (desired : List α) (rows : List α) (ops : List SyncOp) : Option (List α) :=
  ops.foldlM (applyOp desired) rows

/-- Where an operation puts or leaves a desired row, and which one. -/
def SyncOp.address : SyncOp → Option (ℕ × ℕ)
  | .remove _ _ => none
  | .insert at' index => some (at', index)
  | .keep at' index => some (at', index)

/-- What a script is for: it ends in the desired rows, each of them is addressed
once and at its own position, and where the rows that stay are in order none of
them is inserted again. -/
structure Synced (current desired : List α) (ops : List SyncOp) : Prop where
  result : applyOps desired current ops = some desired
  addressed : ops.filterMap SyncOp.address = (List.range desired.length).map fun i => (i, i)
  kept : (desired.filter (· ∈ current)).Sublist current → ∀ index key,
    desired[index]? = some key → key ∈ current → SyncOp.keep index index ∈ ops

/-! ### One key -/

section

variable {desired before rest : List α} {key : α}

theorem indexFrom_append_cons (head : α) : indexFrom (before ++ head :: rest) key (before.length + 1) =
    (rest.findIdx? (· = key)).map (before.length + 1 + ·) := by
  simp [indexFrom]

theorem applyOps_keep (hkey : desired[before.length]? = some key) :
    applyOps desired (before ++ key :: rest) [.keep before.length before.length] =
      some (before ++ key :: rest) := by
  simp [applyOps, applyOp, hkey]

/-- Rows in front of the key are removed, and the key is kept. -/
theorem applyOps_skip (skipped : List α) (hkey : desired[before.length]? = some key) :
    applyOps desired (before ++ (skipped ++ key :: rest))
      [.remove before.length skipped.length, .keep before.length before.length] =
        some (before ++ key :: rest) := by
  have hremoved : applyOp desired (before ++ (skipped ++ key :: rest))
      (.remove before.length skipped.length) = some (before ++ key :: rest) := by
    have hbounds : before.length + skipped.length ≤
        (before ++ (skipped ++ key :: rest)).length := by simp
    rw [applyOp, if_pos hbounds]
    simp [splice]
  rw [applyOps, List.foldlM_cons, hremoved]
  exact applyOps_keep hkey

theorem applyOps_insert (hkey : desired[before.length]? = some key) :
    applyOps desired (before ++ rest) [.insert before.length before.length] =
      some (before ++ key :: rest) := by
  simp [applyOps, applyOp, hkey, splice]

/-- What one key does: the row of an equal key that comes later is kept, after
the rows before it are removed; without such a row one is inserted. -/
theorem syncKey_spec (ops : List SyncOp) (hkey : desired[before.length]? = some key) :
    ∃ left step, syncKey ⟨before ++ rest, before.length, ops⟩ (key, before.length) =
        ⟨before ++ key :: left, before.length + 1, ops ++ step⟩ ∧
      applyOps desired (before ++ rest) step = some (before ++ key :: left) ∧
      step.filterMap SyncOp.address = [(before.length, before.length)] ∧
      ((∃ skipped, rest = skipped ++ key :: left ∧ key ∉ skipped ∧
          .keep before.length before.length ∈ step) ∨ key ∉ rest ∧ left = rest) := by
  cases rest with
  | nil =>
      refine ⟨[], [.insert before.length before.length], ?_, applyOps_insert hkey, rfl,
        Or.inr ⟨List.not_mem_nil, rfl⟩⟩
      have hpast : before.drop (before.length + 1) = [] := List.drop_eq_nil_of_le (by omega)
      simp [syncKey, indexFrom, splice, hpast]
  | cons head rest =>
      by_cases hhead : head = key
      · subst hhead
        refine ⟨rest, [.keep before.length before.length], ?_, applyOps_keep hkey, rfl,
          Or.inl ⟨[], rfl, List.not_mem_nil, List.mem_singleton.mpr rfl⟩⟩
        simp [syncKey]
      · cases hfound : rest.findIdx? (· = key) with
        | none =>
            have hnot : key ∉ head :: rest := by
              rw [List.findIdx?_eq_none_iff] at hfound
              rintro hmem
              rcases List.mem_cons.mp hmem with rfl | hlater
              · exact hhead rfl
              · simpa using hfound key hlater
            refine ⟨head :: rest, [.insert before.length before.length], ?_, applyOps_insert hkey,
              rfl, Or.inr ⟨hnot, rfl⟩⟩
            rw [syncKey, if_neg (by simpa using hhead), indexFrom_append_cons, hfound]
            simp [splice]
        | some found =>
            obtain ⟨hlt, hequal, hbefore⟩ := List.findIdx?_eq_some_iff_getElem.mp hfound
            have hsplit : rest = rest.take found ++ key :: rest.drop (found + 1) := by
              have hat : rest[found] = key := of_decide_eq_true hequal
              rw [← hat]
              simp
            have hlength : (head :: rest.take found).length = found + 1 := by
              rw [List.length_cons, List.length_take_of_le (Nat.le_of_lt hlt)]
            have hskipped : key ∉ head :: rest.take found := by
              intro hmem
              rcases List.mem_cons.mp hmem with rfl | htaken
              · exact hhead rfl
              · obtain ⟨i, hi, hat⟩ := List.mem_iff_getElem.mp htaken
                rw [List.length_take] at hi
                rw [List.getElem_take] at hat
                exact hbefore i (by omega) (decide_eq_true hat)
            have hwhole : head :: rest =
                (head :: rest.take found) ++ key :: rest.drop (found + 1) := by
              rw [List.cons_append, ← hsplit]
            refine ⟨rest.drop (found + 1),
              [.remove before.length (found + 1), .keep before.length before.length], ?_, ?_, rfl,
              Or.inl ⟨head :: rest.take found, hwhole, hskipped, by simp⟩⟩
            · rw [syncKey, if_neg (by simpa using hhead), indexFrom_append_cons, hfound]
              have hcount : before.length + 1 + found - before.length = found + 1 := by omega
              have hdropped : (before ++ head :: rest).drop (before.length + (found + 1)) =
                  key :: rest.drop (found + 1) := by
                rw [hwhole, List.drop_length_add_append, ← hlength, List.drop_left]
              simp only [Option.map_some, hcount, splice, hdropped, List.take_left,
                List.append_nil]
            · rw [hwhole, ← hlength]
              exact applyOps_skip _ hkey

/-! ### All keys -/

omit [DecidableEq α] in
/-- Rows that stay in order are still there, in order, behind the one kept. -/
theorem sublist_of_skipped {skipped left olds : List α}
    (h : (key :: olds).Sublist (skipped ++ key :: left)) (hskipped : key ∉ skipped) :
    olds.Sublist left := by
  induction skipped with
  | nil => exact List.cons_sublist_cons.mp h
  | cons head skipped ih =>
      rw [List.mem_cons, not_or] at hskipped
      rw [List.cons_append] at h
      exact ih (h.of_cons_of_ne hskipped.1) hskipped.2

theorem applyOps_append (rows : List α) (first second : List SyncOp) :
    applyOps desired rows (first ++ second) =
      (applyOps desired rows first).bind (applyOps desired · second) :=
  List.foldlM_append

/-- A run of the loop over the desired keys behind the first ones. -/
theorem syncKeys_spec (current : List α) {suffix : List α} (ops : List SyncOp)
    (hdesired : desired = before ++ suffix) (hrest : ∀ key ∈ rest, key ∈ current) :
    ∃ left news, (suffix.zipIdx before.length).foldl syncKey
        ⟨before ++ rest, before.length, ops⟩ = ⟨desired ++ left, desired.length, ops ++ news⟩ ∧
      applyOps desired (before ++ rest) news = some (desired ++ left) ∧
      news.filterMap SyncOp.address =
        (List.range' before.length suffix.length).map (fun i => (i, i)) ∧
      ((suffix.filter (· ∈ current)).Sublist rest → ∀ index key,
        before.length ≤ index → desired[index]? = some key → key ∈ current →
          SyncOp.keep index index ∈ news) := by
  induction suffix generalizing before rest ops with
  | nil =>
      rw [List.append_nil] at hdesired
      subst hdesired
      refine ⟨rest, [], by simp, rfl, rfl, fun _ index key hindex hkey _ => ?_⟩
      rw [List.getElem?_eq_none hindex] at hkey
      cases hkey
  | cons key suffix ih =>
      have hkey : desired[before.length]? = some key := by simp [hdesired]
      have hnext : desired = (before ++ [key]) ++ suffix := by simp [hdesired]
      obtain ⟨left, step, hstep, happly, haddress, hcases⟩ :=
        @syncKey_spec _ _ desired before rest key ops hkey
      have hleft : ∀ other ∈ left, other ∈ current := by
        intro other hother
        rcases hcases with ⟨skipped, hsplit, -, -⟩ | ⟨-, rfl⟩
        · exact hrest other (hsplit ▸ by simp [hother])
        · exact hrest other hother
      obtain ⟨last, news, hrun, hnews, haddresses, hkept⟩ := ih (ops ++ step) hnext hleft
      rw [List.length_append, List.length_singleton] at hrun hkept
      rw [List.append_assoc, List.singleton_append] at hrun hnews
      refine ⟨last, step ++ news, ?_, ?_, ?_, ?_⟩
      · rw [List.zipIdx_cons, List.foldl_cons, hstep, hrun, List.append_assoc]
      · rw [applyOps_append, happly]
        exact hnews
      · rw [List.filterMap_append, haddress, haddresses, List.length_cons, List.range'_succ,
          List.length_append]
        rfl
      · intro hsub index other hindex hother hmem
        have holds : (suffix.filter (· ∈ current)).Sublist left ∧
            (key ∈ current → SyncOp.keep before.length before.length ∈ step) := by
          rcases hcases with ⟨skipped, hsplit, hskipped, hkeep⟩ | ⟨hnot, rfl⟩
          · have hcurrent : key ∈ current := hrest key (hsplit ▸ by simp)
            rw [List.filter_cons_of_pos (by simpa using hcurrent), hsplit] at hsub
            exact ⟨sublist_of_skipped hsub hskipped, fun _ => hkeep⟩
          · have hnew : key ∉ current := by
              intro hcurrent
              rw [List.filter_cons_of_pos (by simpa using hcurrent)] at hsub
              exact hnot (hsub.subset List.mem_cons_self)
            rw [List.filter_cons_of_neg (by simpa using hnew)] at hsub
            exact ⟨hsub, fun hcurrent => absurd hcurrent hnew⟩
        rw [List.mem_append]
        rcases Nat.eq_or_lt_of_le hindex with rfl | hlater
        · obtain rfl := Option.some.inj (hkey.symm.trans hother)
          exact Or.inl (holds.2 hmem)
        · exact Or.inr (hkept holds.1 index other hlater hother hmem)

/-- Applied in order the operations end in the desired rows. -/
theorem listSyncOps_synced (current desired : List α) :
    Synced current desired (listSyncOps current desired) := by
  obtain ⟨left, news, hrun, hnews, haddresses, hkept⟩ :=
    @syncKeys_spec _ _ desired [] current current desired [] (List.nil_append desired).symm
      fun _ h => h
  rw [List.length_nil, List.nil_append, List.nil_append] at hrun
  rw [List.nil_append] at hnews
  rw [List.length_nil, ← List.range_eq_range'] at haddresses
  have hops : listSyncOps current desired =
      if left = [] then news else news ++ [.remove desired.length left.length] := by
    rw [listSyncOps, hrun]
    simp only [List.length_append, Nat.lt_add_right_iff_pos, List.length_pos_iff]
    cases left <;> simp
  have hremoved : ∀ rows : List α, applyOps desired (desired ++ rows)
      [.remove desired.length rows.length] = some desired := by
    intro rows
    simp [applyOps, applyOp, splice]
  rw [hops]
  split_ifs with hleft
  · rw [hleft, List.append_nil] at hnews
    exact ⟨hnews, haddresses, fun hsub index key hkey hmem =>
      hkept hsub index key (Nat.zero_le _) hkey hmem⟩
  · refine ⟨?_, ?_, fun hsub index key hkey hmem =>
      List.mem_append_left _ (hkept hsub index key (Nat.zero_le _) hkey hmem)⟩
    · rw [applyOps_append, hnews]
      exact hremoved left
    · rw [List.filterMap_append, haddresses]
      exact List.append_nil _

end

end Hermes

end CybexOS
