/-
The order of the bar's actions (`SettingsHelpers.js`): a reordering of the
shown actions written back among those that are not shown.
-/
import CybexOS.Text
import Mathlib.Data.List.InsertIdx
import Mathlib.Data.List.Perm.Subperm

namespace CybexOS

namespace Settings

def availableIndicatorIds (ids : List Text) (dictationAvailable : Bool) : List Text :=
  ids.filter fun id => id ≠ ascii "dictation" || dictationAvailable

variable {α : Type} [DecidableEq α]

/-- One round of the loop over the saved order. -/
def returnHidden (out : List α) (saved : α × ℕ) : List α :=
  if saved.1 ∈ out then out else out.insertIdx (min saved.2 out.length) saved.1

def mergeIndicatorOrder (shown saved : List α) : List α := saved.zipIdx.foldl returnHidden shown

variable {shown saved : List α}

/-! ### One round -/

omit [DecidableEq α] in
theorem filter_insertIdx {p : α → Bool} {entry : α} (hentry : p entry = false) (at' : ℕ)
    (list : List α) : (list.insertIdx at' entry).filter p = list.filter p := by
  induction list generalizing at' with
  | nil =>
      cases at' with
      | zero => rw [List.insertIdx_zero, List.filter_cons_of_neg (by simp [hentry])]
      | succ at' => rw [List.insertIdx_succ_nil]
  | cons head tail ih =>
      cases at' with
      | zero => rw [List.insertIdx_zero, List.filter_cons_of_neg (by simp [hentry])]
      | succ at' => rw [List.insertIdx_succ_cons, List.filter_cons, List.filter_cons, ih]

theorem merge_snoc (shown saved : List α) (id : α) :
    mergeIndicatorOrder shown (saved ++ [id]) =
      returnHidden (mergeIndicatorOrder shown saved) (id, saved.length) := by
  rw [mergeIndicatorOrder, List.zipIdx_append, List.foldl_append, Nat.zero_add]
  rfl

/-- Once a front of the saved order is written back, its hidden actions stand
at their indices and nothing else was added to the shown ones. -/
structure WrittenBack (shown front out : List α) : Prop where
  nodup : out.Nodup
  members : ∀ id, id ∈ out ↔ id ∈ shown ∨ id ∈ front
  order : out.filter (· ∈ shown) = shown
  length : out.length = shown.length + (front.filter (· ∉ shown)).length
  placed : ∀ (i : ℕ) (id : α), front[i]? = some id → id ∉ shown → out[i]? = some id

theorem WrittenBack.start (hshown : shown.Nodup) : WrittenBack shown [] shown where
  nodup := hshown
  members := fun id => by simp
  order := List.filter_eq_self.mpr fun id hid => by simpa using hid
  length := rfl
  placed := fun i id hid => by simp at hid

/-- The index of a hidden action is within the list it is put into. -/
theorem WrittenBack.room {front out : List α} (h : WrittenBack shown front out)
    (hfront : front.Nodup) : front.length ≤ out.length := by
  have hsplit : front.length =
      (front.filter (· ∈ shown)).length + (front.filter (· ∉ shown)).length := by
    have := List.length_eq_length_filter_add (l := front) fun id => decide (id ∈ shown)
    simpa only [decide_not] using this
  have hshown : (front.filter (· ∈ shown)).length ≤ shown.length := by
    refine (List.subperm_of_subset (hfront.filter _) fun id hid => ?_).length_le
    simpa using (List.mem_filter.mp hid).2
  rw [h.length, hsplit]
  exact Nat.add_le_add_right hshown _

theorem WrittenBack.step {front out : List α} {id : α} (h : WrittenBack shown front out)
    (hnodup : (front ++ [id]).Nodup) :
    WrittenBack shown (front ++ [id]) (returnHidden out (id, front.length)) := by
  obtain ⟨hfront, -, hnew⟩ := List.nodup_append.mp hnodup
  have hout : id ∉ front := fun hmem => hnew id hmem id (List.mem_singleton_self id) rfl
  have hroom := h.room hfront
  have hget : ∀ (i : ℕ) (other : α), (front ++ [id])[i]? = some other →
      front[i]? = some other ∨ i = front.length ∧ other = id := by
    intro i other hother
    rcases Nat.lt_or_ge i front.length with hlt | hge
    · rw [List.getElem?_append_left hlt] at hother
      exact Or.inl hother
    · rw [List.getElem?_append_right hge, List.getElem?_singleton] at hother
      split_ifs at hother with hzero
      exact Or.inr ⟨by omega, (Option.some.inj hother).symm⟩
  by_cases hmem : id ∈ shown
  · -- a shown action keeps the place that the editor gave it
    have hkept : returnHidden out (id, front.length) = out :=
      if_pos ((h.members id).mpr (Or.inl hmem))
    rw [hkept]
    refine ⟨h.nodup, fun other => ?_, h.order, ?_, fun i other hother hhidden => ?_⟩
    · rw [h.members, List.mem_append, List.mem_singleton]
      constructor
      · rintro (hshown | hold)
        · exact Or.inl hshown
        · exact Or.inr (Or.inl hold)
      · rintro (hshown | hold | rfl)
        · exact Or.inl hshown
        · exact Or.inr hold
        · exact Or.inl hmem
    · rw [h.length, List.filter_append, List.filter_cons_of_neg (by simpa using hmem),
        List.filter_nil, List.append_nil]
    · rcases hget i other hother with hold | ⟨-, rfl⟩
      · exact h.placed i other hold hhidden
      · exact absurd hmem hhidden
  · -- a hidden one is inserted behind all that were before it
    have habsent : id ∉ out := fun hid => ((h.members id).mp hid).elim hmem hout
    have hput : returnHidden out (id, front.length) = out.insertIdx front.length id := by
      rw [returnHidden, if_neg habsent, Nat.min_eq_left hroom]
    have hlength := List.length_insertIdx_of_le_length hroom id
    rw [hput]
    refine ⟨?_, fun other => ?_, ?_, ?_, fun i other hother hhidden => ?_⟩
    · exact (List.perm_insertIdx id out hroom).nodup_iff.mpr
        (List.nodup_cons.mpr ⟨habsent, h.nodup⟩)
    · rw [List.mem_insertIdx hroom, h.members, List.mem_append, List.mem_singleton]
      tauto
    · rw [filter_insertIdx (by simpa using hmem), h.order]
    · rw [hlength, h.length, List.filter_append, List.filter_cons_of_pos (by simpa using hmem),
        List.filter_nil, List.length_append, List.length_singleton, Nat.add_assoc]
    · rcases hget i other hother with hold | ⟨rfl, rfl⟩
      · have hlt : i < front.length := (List.getElem?_eq_some_iff.mp hold).1
        rw [List.getElem?_insertIdx_of_lt hlt]
        exact h.placed i other hold hhidden
      · rw [List.getElem?_insertIdx_self, if_pos hroom]

theorem merge_writtenBack (hshown : shown.Nodup) {front : List α} (hfront : front.Nodup) :
    WrittenBack shown front (mergeIndicatorOrder shown front) := by
  induction front using List.reverseRecOn with
  | nil => exact WrittenBack.start hshown
  | append_singleton front id ih =>
      rw [merge_snoc]
      exact (ih (List.nodup_append.mp hfront).1).step hfront

/-- The shown actions in the new order, all others where they were. -/
theorem mergeIndicatorOrder_spec (hsaved : saved.Nodup) (hshown : shown.Nodup)
    (hsub : shown ⊆ saved) :
    (mergeIndicatorOrder shown saved).Perm saved ∧
      (mergeIndicatorOrder shown saved).filter (· ∈ shown) = shown ∧
      ∀ (i : ℕ) (id : α), saved[i]? = some id → id ∉ shown →
        (mergeIndicatorOrder shown saved)[i]? = some id := by
  have hwritten := merge_writtenBack hshown hsaved
  refine ⟨(List.perm_ext_iff_of_nodup hwritten.nodup hsaved).mpr fun id => ?_, hwritten.order,
    hwritten.placed⟩
  rw [hwritten.members]
  exact ⟨fun h => h.elim (fun hmem => hsub hmem) (fun hmem => hmem), Or.inr⟩

theorem mergeIndicatorOrder_spec_hidden :
    (mergeIndicatorOrder [4, 2] [1, 2, 3, 4]).Perm [1, 2, 3, 4] ∧
      mergeIndicatorOrder [4, 2] [1, 2, 3, 4] = [1, 4, 3, 2] := by
  have hspec := @mergeIndicatorOrder_spec ℕ _ [4, 2] [1, 2, 3, 4] (by decide) (by decide) (by decide)
  exact ⟨hspec.1, by decide⟩

theorem filter_merge (hsaved : saved.Nodup) (hshown : shown.Nodup) {p : α → Bool}
    (hp : ∀ id, id ∈ shown ↔ id ∈ saved ∧ p id = true) :
    (mergeIndicatorOrder shown saved).filter p = shown := by
  have hwritten := merge_writtenBack hshown hsaved
  conv_rhs => rw [← hwritten.order]
  refine List.filter_congr fun id hid => Bool.eq_iff_iff.mpr ?_
  have hsave : id ∈ saved :=
    ((hwritten.members id).mp hid).elim (fun hshow => ((hp id).mp hshow).1) fun hmem => hmem
  rw [decide_eq_true_eq, hp id, and_iff_right hsave]

/-- What the editor shows of the merged order is what it was given. -/
theorem availableIndicatorIds_merge {shown saved : List Text} (hsaved : saved.Nodup)
    (dictation : Bool) (hperm : shown.Perm (availableIndicatorIds saved dictation)) :
    availableIndicatorIds (mergeIndicatorOrder shown saved) dictation = shown := by
  have hshown : shown.Nodup := hperm.nodup_iff.mpr (hsaved.filter _)
  refine filter_merge hsaved hshown fun id => ?_
  rw [hperm.mem_iff, availableIndicatorIds, List.mem_filter]

end Settings

end CybexOS
