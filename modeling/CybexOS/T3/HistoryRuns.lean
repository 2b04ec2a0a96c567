/-
Where the comparison orders the entries held, upserting keeps a history equal
to the sorted copy of its latest versions.
-/
import CybexOS.T3.History
import CybexOS.Runs
import Mathlib.Data.List.Nodup

namespace CybexOS

namespace T3

open Json

section

variable {dateParse : Text → Option ℤ} {localeCompare : Text → Text → Ordering}

/-! ### Ties are equal ids -/

theorem differenceSign_antisymm {a b : Number} (h : (differenceSign a b).any Ordering.isLE)
    (h' : (differenceSign b a).any Ordering.isLE) : a = b ∧ a ≠ .nan := by
  cases a with
  | fin a =>
      cases b with
      | fin b =>
          simp only [differenceSign, Option.any_some, Ordering.isLE_iff_ne_gt,
            compare_gt_iff_gt, not_lt] at h h'
          exact ⟨congrArg Number.fin (Double.ext (le_antisymm h h')), by simp⟩
      | inf n => cases n <;> simp [differenceSign] at h h'
      | nan => simp [differenceSign] at h
  | inf m =>
      cases b with
      | fin b => cases m <;> simp [differenceSign] at h h'
      | inf n => cases m <;> cases n <;> simp [differenceSign] at h h'
      | nan => simp [differenceSign] at h
  | nan => simp [differenceSign] at h

theorem compareSequences_antisymm {l r : HistoryKey} {sign sign' : Option Ordering}
    (hsign : compareSequences l r = some sign) (hsign' : compareSequences r l = some sign')
    (h : sign.any Ordering.isLE) (h' : sign'.any Ordering.isLE) : False := by
  unfold compareSequences at hsign hsign'
  cases hl : l.sequence with
  | none => simp [hl] at hsign
  | some a =>
      cases hr : r.sequence with
      | none => simp [hr] at hsign
      | some b =>
          simp only [hl, hr, Option.ite_none_right_eq_some, Option.some.injEq] at hsign hsign'
          obtain ⟨hne, rfl⟩ := hsign
          obtain ⟨-, rfl⟩ := hsign'
          obtain ⟨heq, hnan⟩ := differenceSign_antisymm h h'
          tauto

theorem compareSequences_none {l r : HistoryKey} (h : compareSequences l r = none) :
    compareSequences r l = none := by
  unfold compareSequences at h ⊢
  cases hl : l.sequence with
  | none => cases r.sequence <;> rfl
  | some a =>
      cases hr : r.sequence with
      | none => rfl
      | some b =>
          simp only [hl, hr, ite_eq_right_iff, reduceCtorEq, imp_false, not_or, ne_eq,
            not_not] at h ⊢
          exact ⟨h.1.symm, h.1 ▸ h.2⟩

theorem compareTimes_swap {l r : HistoryKey} :
    compareTimes r l = (compareTimes l r).map Ordering.swap := by
  unfold compareTimes
  cases l.ms with
  | none => cases r.ms <;> rfl
  | some a =>
      cases r.ms with
      | none => rfl
      | some b =>
          by_cases heq : a = b
          · simp [heq]
          · simp [heq, Ne.symm heq, Std.OrientedOrd.eq_swap (a := b) (b := a)]

theorem compareTimes_ne_eq {l r : HistoryKey} : compareTimes l r ≠ some .eq := by
  unfold compareTimes
  cases l.ms with
  | none => simp
  | some a =>
      cases r.ms with
      | none => simp
      | some b =>
          by_cases heq : a = b
          · simp [heq]
          · simp [heq]

theorem differenceSign_ne_eq {a b : Number} (h : differenceSign a b = some .eq) :
    a = b ∧ a ≠ .nan := by
  cases a with
  | fin a =>
      cases b with
      | fin b =>
          simp only [differenceSign, Option.some.injEq, compare_eq_iff_eq] at h
          exact ⟨congrArg Number.fin (Double.ext h), by simp⟩
      | inf n => cases n <;> simp [differenceSign] at h
      | nan => simp [differenceSign] at h
  | inf m =>
      cases b with
      | fin b => cases m <;> simp [differenceSign] at h
      | inf n => cases m <;> cases n <;> simp [differenceSign] at h
      | nan => simp [differenceSign] at h
  | nan => simp [differenceSign] at h

theorem compareSequences_ne_eq {l r : HistoryKey} :
    compareSequences l r ≠ some (some .eq) := by
  unfold compareSequences
  cases l.sequence with
  | none => simp
  | some a =>
      cases r.sequence with
      | none => simp
      | some b =>
          simp only [ne_eq, Option.ite_none_right_eq_some, Option.some.injEq, not_and]
          intro hne hsign
          have := differenceSign_ne_eq hsign
          tauto

/-- A tie lies between equal ids. -/
theorem compareHistoryKeys_eq [Std.LawfulEqCmp localeCompare] {l r : HistoryKey}
    (h : compareHistoryKeys localeCompare l r = some .eq) : l.id = r.id := by
  unfold compareHistoryKeys at h
  cases hseq : compareSequences l r with
  | some sign =>
      rw [hseq, Option.getD_some] at h
      exact absurd (h ▸ hseq) compareSequences_ne_eq
  | none =>
      cases htime : compareTimes l r with
      | some sign =>
          rw [hseq, htime, Option.getD_none, Option.getD_some] at h
          exact absurd (htime.trans h) compareTimes_ne_eq
      | none =>
          rw [hseq, htime, Option.getD_none, Option.getD_none, Option.some.injEq] at h
          exact Std.LawfulEqCmp.eq_of_compare h

theorem differenceSign_none {a b : Number} (h : differenceSign a b = none) :
    differenceSign b a = none := by
  cases a <;> cases b <;> simp_all [differenceSign]

theorem compareSequences_nan {l r : HistoryKey} (h : compareSequences l r = some none) :
    compareSequences r l = some none := by
  unfold compareSequences at h ⊢
  cases hl : l.sequence with
  | none => simp [hl] at h
  | some a =>
      cases hr : r.sequence with
      | none => simp [hl, hr] at h
      | some b =>
          simp only [hl, hr, Option.ite_none_right_eq_some, Option.some.injEq] at h ⊢
          refine ⟨?_, differenceSign_none h.2⟩
          rcases h.1 with hne | rfl
          · exact Or.inl hne.symm
          · tauto

/-- A comparison that gives NaN gives it both ways. -/
theorem compareHistoryKeys_nan {l r : HistoryKey}
    (h : compareHistoryKeys localeCompare l r = none) :
    compareHistoryKeys localeCompare r l = none := by
  unfold compareHistoryKeys at h
  cases hseq : compareSequences l r with
  | some sign =>
      rw [hseq, Option.getD_some] at h
      simp [compareHistoryKeys, compareSequences_nan (h ▸ hseq)]
  | none => cases htime : compareTimes l r <;> simp [hseq, htime] at h

/-- Two keys each at most the other have the same id. -/
theorem compareHistoryKeys_antisymm [Std.OrientedCmp localeCompare]
    [Std.LawfulEqCmp localeCompare] {l r : HistoryKey}
    (h : (compareHistoryKeys localeCompare l r).any Ordering.isLE)
    (h' : (compareHistoryKeys localeCompare r l).any Ordering.isLE) : l.id = r.id := by
  unfold compareHistoryKeys at h h'
  cases hseq : compareSequences l r with
  | some sign =>
      cases hseq' : compareSequences r l with
      | some sign' =>
          simp only [hseq, hseq'] at h h'
          exact (compareSequences_antisymm hseq hseq' h h').elim
      | none => simp [compareSequences_none hseq'] at hseq
  | none =>
      rw [compareSequences_none hseq, compareTimes_swap] at h'
      cases htime : compareTimes l r with
      | some sign =>
          have hne := compareTimes_ne_eq (l := l) (r := r)
          cases sign <;> simp_all
      | none =>
          simp only [hseq, htime, Option.map_none, Option.getD_none, Option.any_some] at h h'
          exact Std.LawfulEqCmp.eq_of_compare (Std.OrientedCmp.isLE_antisymm h h')

/-! ### Entries with distinct ids -/

theorem historySortKey_id {entry : JsValue} {id : Text} (h : entryId? entry = some id) :
    (historySortKey dateParse entry).id = id := by
  unfold entryId? at h
  unfold historySortKey
  split at h
  · exact Option.some.inj h
  · simp at h

namespace DistinctIds

variable {entries : List JsValue}

theorem of_perm {others : List JsValue} (h : DistinctIds entries)
    (hperm : entries.Perm others) : DistinctIds others :=
  ⟨fun entry hentry => h.1 entry (hperm.mem_iff.mpr hentry),
    (hperm.map entryId?).nodup_iff.mp h.2⟩

theorem eq_of_entryId (h : DistinctIds entries) {a b : JsValue} (ha : a ∈ entries)
    (hb : b ∈ entries) (hid : entryId? a = entryId? b) : a = b :=
  List.inj_on_of_nodup_map h.2 ha hb hid

/-- Distinct entries have distinct keys. -/
theorem eq_of_keyId (h : DistinctIds entries) {a b : JsValue} (ha : a ∈ entries)
    (hb : b ∈ entries)
    (hid : (historySortKey dateParse a).id = (historySortKey dateParse b).id) : a = b := by
  obtain ⟨idOfA, hidOfA⟩ := Option.isSome_iff_exists.mp (h.1 a ha)
  obtain ⟨idOfB, hidOfB⟩ := Option.isSome_iff_exists.mp (h.1 b hb)
  rw [historySortKey_id hidOfA, historySortKey_id hidOfB] at hid
  exact h.eq_of_entryId ha hb (by rw [hidOfA, hidOfB, hid])

end DistinctIds

variable (dateParse localeCompare) in
/-- A history in order that holds these versions. -/
def Holds (history latest : List JsValue) : Prop :=
  DistinctIds latest ∧ history.Perm latest ∧
    history.Pairwise fun left right => atMost dateParse localeCompare left right = true

/-- There is one order for distinct entries. -/
theorem Holds.unique [Std.OrientedCmp localeCompare] [Std.LawfulEqCmp localeCompare]
    {history other latest : List JsValue} (h : Holds dateParse localeCompare history latest)
    (h' : Holds dateParse localeCompare other latest) : history = other := by
  refine List.Perm.eq_of_pairwise ?_ h.2.2 h'.2.2 (h.2.1.trans h'.2.1.symm)
  intro a b ha hb hab hba
  exact h.1.eq_of_keyId (h.2.1.mem_iff.mp ha) (h'.2.1.mem_iff.mp hb)
    (compareHistoryKeys_antisymm hab hba)

theorem index_eq_of_mem_zipIdx {entries : List JsValue} (hnodup : entries.Nodup)
    {left right : JsValue × Nat} (hleft : left ∈ entries.zipIdx)
    (hright : right ∈ entries.zipIdx) (heq : left.1 = right.1) : left.2 = right.2 := by
  rw [List.mem_zipIdx_iff_getElem?] at hleft hright
  obtain ⟨hlt, hget⟩ := List.getElem?_eq_some_iff.mp hleft
  obtain ⟨hlt', hget'⟩ := List.getElem?_eq_some_iff.mp hright
  exact (hnodup.getElem_inj_iff).mp (hget.trans (heq.trans hget'.symm))

/-! ### The sorted copy -/

theorem sortHistory_perm (entries : List JsValue) :
    (sortHistory dateParse localeCompare entries).Perm entries := by
  have hperm := (List.perm_insertionSort (fun left right =>
    decoratedAtMost dateParse localeCompare left right = true) entries.zipIdx).map Prod.fst
  rwa [List.zipIdx_map_fst] at hperm

section

variable [Std.LawfulEqCmp localeCompare]

/-- On different entries the place in the list does not matter. -/
theorem decoratedAtMost_iff {entries : List JsValue}
    (horder : Comparable dateParse localeCompare entries) (hids : DistinctIds entries)
    {left right : JsValue × Nat} (hleft : left ∈ entries.zipIdx)
    (hright : right ∈ entries.zipIdx) :
    decoratedAtMost dateParse localeCompare left right = true ↔
      atMost dateParse localeCompare left.1 right.1 = true := by
  have hl := List.fst_mem_of_mem_zipIdx hleft
  have hr := List.fst_mem_of_mem_zipIdx hright
  have htotal := horder.total left.1 hl right.1 hr
  unfold decoratedAtMost atMost at *
  cases hsign : compareHistory dateParse localeCompare left.1 right.1 with
  | none =>
      have hnan : compareHistory dateParse localeCompare right.1 left.1 = none :=
        compareHistoryKeys_nan hsign
      simp [hsign, hnan] at htotal
  | some sign =>
      cases sign with
      | lt => simp
      | gt => simp
      | eq =>
          have heq := hids.eq_of_keyId hl hr (compareHistoryKeys_eq hsign)
          have hplace := index_eq_of_mem_zipIdx hids.2.of_map hleft hright heq
          simp [hplace]

/-- Where the comparison is an order, sorting puts the entries in it. -/
theorem sortHistory_holds {entries : List JsValue}
    (horder : Comparable dateParse localeCompare entries) (hids : DistinctIds entries) :
    Holds dateParse localeCompare (sortHistory dateParse localeCompare entries) entries := by
  refine ⟨hids, sortHistory_perm entries, ?_⟩
  have hmem : ∀ pair ∈ entries.zipIdx, pair.1 ∈ entries :=
    fun _ => List.fst_mem_of_mem_zipIdx
  have hdecorated : OrderedOn (fun left right =>
      decoratedAtMost dateParse localeCompare left right = true) entries.zipIdx := by
    constructor
    · intro a ha b hb
      rw [decoratedAtMost_iff horder hids ha hb, decoratedAtMost_iff horder hids hb ha]
      exact horder.total a.1 (hmem a ha) b.1 (hmem b hb)
    · intro a ha b hb c hc
      rw [decoratedAtMost_iff horder hids ha hb, decoratedAtMost_iff horder hids hb hc,
        decoratedAtMost_iff horder hids ha hc]
      exact horder.trans a.1 (hmem a ha) b.1 (hmem b hb) c.1 (hmem c hc)
  refine List.pairwise_map.mpr (hdecorated.pairwise_insertionSort.imp_of_mem ?_)
  intro a b ha hb hab
  rw [List.mem_insertionSort] at ha hb
  exact (decoratedAtMost_iff horder hids ha hb).mp hab

end

/-! ### Upserting -/

theorem property_id {entry : JsValue} {id : Text} (h : entryId? entry = some id) :
    property entry (ascii "id") = some (.str id) := by
  unfold entryId? at h
  split at h
  · rename_i found hproperty
    rw [hproperty, Option.some.inj h]
  · simp at h

theorem matches_id (entry : JsValue) (id : Text) :
    ((property entry (ascii "id")).any (strictEquals · (.str id))) =
      decide (entryId? entry = some id) := by
  unfold entryId?
  cases property entry (ascii "id") with
  | none => simp
  | some value => cases value <;> simp [strictEquals, Bool.beq_eq_decide_eq]

theorem truthy_of_entryId {value : JsValue} {id : Text} (h : entryId? value = some id) :
    truthy value = true := by
  cases value <;> simp_all [entryId?, property, objectFields?, truthy]

/-- The slot of an entry, and the entries around it. -/
theorem indexOfId_eq_some {values : List JsValue} {value : JsValue} {id : Text} {i : Nat}
    (hid : entryId? value = some id) (h : indexOfId values value (ascii "id") = some i) :
    ∃ front old back, values = front ++ old :: back ∧ front.length = i ∧
      entryId? old = some id := by
  simp only [indexOfId, property_id hid, matches_id] at h
  obtain ⟨hlt, hmatch, -⟩ := List.findIdx?_eq_some_iff_getElem.mp h
  refine ⟨values.take i, values[i], values.drop (i + 1), ?_, by simp; omega, by simpa using hmatch⟩
  rw [List.getElem_cons_drop, List.take_append_drop]

theorem indexOfId_eq_none {values : List JsValue} {value : JsValue} {id : Text}
    (hid : entryId? value = some id) (h : indexOfId values value (ascii "id") = none) :
    entryId? value ∉ values.map entryId? := by
  simp only [indexOfId, property_id hid, matches_id, List.findIdx?_eq_none_iff,
    decide_eq_false_iff_not] at h
  simpa [hid] using h

/-- Where the entry has a slot, its neighbours decide whether it stays there. -/
theorem upsertHistory_slot {front back : List JsValue} {old value : JsValue} {id : Text}
    (hid : entryId? value = some id)
    (hindex : indexOfId (front ++ old :: back) value (ascii "id") = some front.length) :
    upsertHistory dateParse localeCompare (front ++ old :: back) value (ascii "id") =
      if front.getLast?.all (atMost dateParse localeCompare · value) &&
          back.head?.all (atMost dateParse localeCompare value ·) then
        front ++ value :: back
      else insertAfter (atMost dateParse localeCompare · value) (front ++ back) value := by
  have hprevious : (decide (front.length = 0) ||
      (front ++ old :: back)[front.length - 1]?.any (atMost dateParse localeCompare · value)) =
        front.getLast?.all (atMost dateParse localeCompare · value) := by
    rcases List.eq_nil_or_concat front with rfl | ⟨init, last, rfl⟩
    · simp
    · simp
  have hnext : (decide (front.length = (front ++ old :: back).length - 1) ||
      (front ++ old :: back)[front.length + 1]?.any (atMost dateParse localeCompare value ·)) =
        back.head?.all (atMost dateParse localeCompare value ·) := by
    cases back with
    | nil => simp
    | cons head tail => simp
  have hset : (front ++ old :: back).set front.length value = front ++ value :: back := by
    simp
  have herase : (front ++ old :: back).eraseIdx front.length = front ++ back := by
    simp [List.eraseIdx_append_of_length_le]
  simp only [upsertHistory, truthy_of_entryId hid, ↓reduceIte, hindex, hprevious, hnext, hset,
    herase]

/-! ### The latest versions -/

/-- Putting a version in place of the entry with its id. -/
theorem map_replace {front back : List JsValue} {old value : JsValue}
    (hnodup : ((front ++ old :: back).map entryId?).Nodup)
    (hid : entryId? old = entryId? value) :
    (front ++ old :: back).map
        (fun entry => if entryId? entry = entryId? value then value else entry) =
      front ++ value :: back := by
  rw [List.map_append, List.map_cons, List.nodup_middle, List.nodup_cons] at hnodup
  have hother : ∀ entry ∈ front ++ back, entryId? entry ≠ entryId? value := by
    intro entry hentry heq
    refine hnodup.1 ?_
    rw [← List.map_append, hid, ← heq]
    exact List.mem_map_of_mem hentry
  have hsame : ∀ part : List JsValue, (∀ entry ∈ part, entry ∈ front ++ back) →
      part.map (fun entry => if entryId? entry = entryId? value then value else entry) =
        part := by
    intro part hpart
    conv_rhs => rw [← List.map_id part]
    exact List.map_congr_left fun entry hentry => if_neg (hother entry (hpart entry hentry))
  rw [List.map_append, List.map_cons, if_pos hid, hsame front (by simp +contextual),
    hsame back (by simp +contextual)]

theorem putLatest_ids (latest : List JsValue) (value : JsValue) :
    (putLatest latest value).map entryId? =
      if entryId? value ∈ latest.map entryId? then latest.map entryId?
      else latest.map entryId? ++ [entryId? value] := by
  unfold putLatest
  split_ifs with hmem
  · rw [List.map_map]
    refine List.map_congr_left fun entry _ => ?_
    by_cases heq : entryId? entry = entryId? value
    · simp [heq]
    · simp [heq]
  · simp

theorem DistinctIds.putLatest {latest : List JsValue} (h : DistinctIds latest)
    {value : JsValue} {id : Text} (hid : entryId? value = some id) :
    DistinctIds (putLatest latest value) := by
  constructor
  · intro entry hentry
    have hentryId := List.mem_map_of_mem (f := entryId?) hentry
    rw [putLatest_ids] at hentryId
    have hlatest : entryId? entry ∈ latest.map entryId? → (entryId? entry).isSome := by
      intro hmem
      obtain ⟨other, hother, heq⟩ := List.mem_map.mp hmem
      exact heq ▸ h.1 other hother
    split_ifs at hentryId with hmem
    · exact hlatest hentryId
    · rcases List.mem_append.mp hentryId with hold | hnew
      · exact hlatest hold
      · rw [List.mem_singleton.mp hnew, hid]
        rfl
  · rw [putLatest_ids]
    split_ifs with hmem
    · exact h.2
    · exact List.nodup_append.mpr ⟨h.2, by simp, by aesop⟩

theorem putLatest_perm {history latest : List JsValue} (h : history.Perm latest)
    (value : JsValue) : (putLatest history value).Perm (putLatest latest value) := by
  unfold putLatest
  have hmem := (h.map entryId?).mem_iff (a := entryId? value)
  by_cases hin : entryId? value ∈ latest.map entryId?
  · rw [if_pos (hmem.mpr hin), if_pos hin]
    exact h.map _
  · rw [if_neg (mt hmem.mp hin), if_neg hin]
    exact h.append_right _

/-! ### One upsert and a run of them -/

/-- Wherever an upsert puts its entry, the history stays in order. -/
theorem upsertHistory_pairwise {history : List JsValue} {value : JsValue} {id : Text}
    (hid : entryId? value = some id) (hnodup : (history.map entryId?).Nodup)
    (hsorted : history.Pairwise fun a b => atMost dateParse localeCompare a b = true)
    (horder : Comparable dateParse localeCompare (putLatest history value)) :
    (upsertHistory dateParse localeCompare history value (ascii "id")).Perm
        (putLatest history value) ∧
      (upsertHistory dateParse localeCompare history value (ascii "id")).Pairwise
        fun a b => atMost dateParse localeCompare a b = true := by
  cases hindex : indexOfId history value (ascii "id") with
  | none =>
      have hnew := indexOfId_eq_none hid hindex
      rw [putLatest, if_neg hnew] at horder ⊢
      have horder := horder.of_perm (List.perm_append_singleton value history)
      obtain ⟨hpairs, hperm⟩ := horder.pairwise_insertAfter
        (fun entry => atMost dateParse localeCompare entry value) (fun _ _ => Iff.rfl) hsorted
      simp only [upsertHistory, truthy_of_entryId hid, ↓reduceIte, hindex]
      exact ⟨hperm.trans (List.perm_append_singleton value history).symm, hpairs⟩
  | some i =>
      obtain ⟨front, old, back, rfl, rfl, hold⟩ := indexOfId_eq_some hid hindex
      have hput : putLatest (front ++ old :: back) value = front ++ value :: back := by
        rw [putLatest, if_pos (by simp [hid, hold]), map_replace hnodup (hold.trans hid.symm)]
      rw [hput] at horder ⊢
      have hothers : (front ++ back).Pairwise
          fun a b => atMost dateParse localeCompare a b = true :=
        hsorted.sublist (by simp)
      rw [upsertHistory_slot hid hindex]
      split_ifs with hneighbours
      · simp only [Bool.and_eq_true, Option.all_eq_true] at hneighbours
        exact ⟨List.Perm.refl _, horder.pairwise_of_neighbours hothers hneighbours.1
          hneighbours.2⟩
      · have horder := horder.of_perm (List.perm_middle)
        obtain ⟨hpairs, hperm⟩ := horder.pairwise_insertAfter
          (fun entry => atMost dateParse localeCompare entry value) (fun _ _ => Iff.rfl) hothers
        exact ⟨hperm.trans List.perm_middle.symm, hpairs⟩

/-- One upsert keeps a history in step with the latest versions. -/
theorem upsertHistory_holds {history latest : List JsValue} {value : JsValue} {id : Text}
    (h : Holds dateParse localeCompare history latest) (hid : entryId? value = some id)
    (horder : Comparable dateParse localeCompare (putLatest latest value)) :
    Holds dateParse localeCompare
      (upsertHistory dateParse localeCompare history value (ascii "id"))
      (putLatest latest value) := by
  obtain ⟨hids, hperm, hsorted⟩ := h
  have hput := putLatest_perm hperm value
  obtain ⟨hperm', hsorted'⟩ := upsertHistory_pairwise hid (hids.of_perm hperm.symm).2 hsorted
    (horder.of_perm hput.symm)
  exact ⟨hids.putLatest hid, hperm'.trans hput, hsorted'⟩

theorem foldl_upsertHistory_holds {history latest updates : List JsValue}
    (h : Holds dateParse localeCompare history latest)
    (hupdates : ∀ value ∈ updates, (entryId? value).isSome)
    (hrun : EachStep putLatest
      (fun latest value => Comparable dateParse localeCompare (putLatest latest value))
      latest updates) :
    Holds dateParse localeCompare
      (updates.foldl (upsertHistory dateParse localeCompare · · (ascii "id")) history)
      (latestVersions latest updates) := by
  induction updates generalizing history latest with
  | nil => exact h
  | cons value updates ih =>
      obtain ⟨id, hid⟩ := Option.isSome_iff_exists.mp (hupdates value List.mem_cons_self)
      refine ih (upsertHistory_holds h hid hrun.1) ?_ hrun.2
      exact fun other hother => hupdates other (List.mem_cons_of_mem _ hother)

/-- While the comparison orders the versions held, a history equals the sorted
copy of them after each upsert, however they arrived. -/
theorem history_follows_sort [Std.OrientedCmp localeCompare]
    [Std.LawfulEqCmp localeCompare] {snapshot updates : List JsValue}
    (hids : DistinctIds snapshot) (hupdates : ∀ value ∈ updates, (entryId? value).isSome)
    (hsnapshot : Comparable dateParse localeCompare snapshot)
    (hrun : EachStep putLatest
      (fun latest value => Comparable dateParse localeCompare (putLatest latest value))
      snapshot updates) :
    ∀ applied, applied <+: updates →
      FollowsSort dateParse localeCompare snapshot applied := by
  rintro applied ⟨rest, rfl⟩ arrived harrived
  have hholds := foldl_upsertHistory_holds (sortHistory_holds hsnapshot hids)
    (fun value hvalue => hupdates value (List.mem_append_left rest hvalue))
    (EachStep.append_iff.mp hrun).1
  have horder : Comparable dateParse localeCompare (latestVersions snapshot applied) := by
    rcases List.eq_nil_or_concat applied with rfl | ⟨init, last, rfl⟩
    · exact hsnapshot
    · rw [List.concat_eq_append] at hrun ⊢
      have hlast := (EachStep.append_iff.mp (EachStep.append_iff.mp hrun).1).2.1
      rwa [latestVersions, List.foldl_append]
  have hsorted := sortHistory_holds (horder.of_perm harrived.symm)
    (hholds.1.of_perm harrived.symm)
  exact hholds.unique ⟨hholds.1, hsorted.2.1.trans harrived, hsorted.2.2⟩

/-! ### Entries of one kind -/

/-- A number other than NaN by its kind and its finite value. -/
def numberRank : Number → ℤ × ℚ
  | .fin value => (0, value.val)
  | .inf true => (-1, 0)
  | .inf false => (1, 0)
  | .nan => (0, 0)

/-- The sequence, the time and the id in turn. -/
def uniformCompare (localeCompare : Text → Text → Ordering) :
    HistoryKey → HistoryKey → Ordering :=
  compareLex (compareOn fun key => (key.sequence.map numberRank).elim 0 Prod.fst)
    (compareLex (compareOn fun key => (key.sequence.map numberRank).elim 0 Prod.snd)
      (compareLex (compareOn fun key => key.ms.getD 0)
        (fun left right => localeCompare left.id right.id)))

/-- Entries that all have a sequence or all have none, and likewise a valid
time. -/
def Uniform (keys : List HistoryKey) : Prop :=
  ((∀ key ∈ keys, key.sequence = none) ∨
      ∀ key ∈ keys, ∃ n, key.sequence = some n ∧ n ≠ .nan) ∧
    ((∀ key ∈ keys, key.ms = none) ∨ ∀ key ∈ keys, key.ms.isSome)

theorem differenceSign_eq {a b : Number} (ha : a ≠ .nan) (hb : b ≠ .nan) (hne : a ≠ b) :
    differenceSign a b = some ((compare (numberRank a).1 (numberRank b).1).then
      (compare (numberRank a).2 (numberRank b).2)) := by
  have hlow : compare (-1 : ℤ) 0 = .lt ∧ compare (0 : ℤ) 1 = .lt ∧
    compare (-1 : ℤ) 1 = .lt := by decide
  have hhigh : compare (0 : ℤ) (-1) = .gt ∧ compare (1 : ℤ) 0 = .gt ∧
    compare (1 : ℤ) (-1) = .gt := by decide
  cases a with
  | fin a =>
      cases b with
      | fin b => simp [differenceSign, numberRank]
      | inf n => cases n <;> simp [differenceSign, numberRank, hlow, hhigh]
      | nan => contradiction
  | inf m =>
      cases b with
      | fin b => cases m <;> simp [differenceSign, numberRank, hlow, hhigh]
      | inf n => cases m <;> cases n <;> simp_all [differenceSign, numberRank]
      | nan => contradiction
  | nan => contradiction

theorem compareHistoryKeys_uniform {keys : List HistoryKey} (h : Uniform keys)
    {l r : HistoryKey} (hl : l ∈ keys) (hr : r ∈ keys) :
    compareHistoryKeys localeCompare l r = some (uniformCompare localeCompare l r) := by
  have htime : (compareTimes l r).getD (localeCompare l.id r.id) =
      (compare (l.ms.getD 0) (r.ms.getD 0)).then (localeCompare l.id r.id) := by
    unfold compareTimes
    rcases h.2 with hnone | hsome
    · simp [hnone l hl, hnone r hr]
    · obtain ⟨a, ha⟩ := Option.isSome_iff_exists.mp (hsome l hl)
      obtain ⟨b, hb⟩ := Option.isSome_iff_exists.mp (hsome r hr)
      by_cases heq : a = b
      · simp [ha, hb, heq]
      · have hne : compare a b ≠ .eq := by simpa using heq
        simp only [ha, hb, ne_eq, heq, not_false_eq_true, ↓reduceIte, Option.getD_some]
        cases hsign : compare a b <;> simp_all
  unfold compareHistoryKeys compareSequences uniformCompare
  rcases h.1 with hnone | hsome
  · simp only [hnone l hl, hnone r hr, htime, compareLex, compareOn]
    simp
  · obtain ⟨a, ha, hna⟩ := hsome l hl
    obtain ⟨b, hb, hnb⟩ := hsome r hr
    by_cases heq : a = b
    · subst heq
      simp only [ha, hb, ne_eq, not_true_eq_false, hna, or_self, ↓reduceIte, htime, compareLex,
        compareOn]
      simp
    · have hsign := differenceSign_eq hna hnb heq
      have hne := fun h => heq (differenceSign_ne_eq (hsign.trans (congrArg some h))).1
      simp only [ha, hb, ne_eq, heq, not_false_eq_true, true_or, ↓reduceIte, hsign, compareLex,
        compareOn, Option.map_some, Option.elim_some]
      rw [← Ordering.then_assoc]
      revert hne
      cases ((compare (numberRank a).1 (numberRank b).1).then
        (compare (numberRank a).2 (numberRank b).2)) <;> simp

instance [Std.TransCmp localeCompare] :
    Std.TransCmp fun left right : HistoryKey => localeCompare left.id right.id where
  eq_swap := Std.OrientedCmp.eq_swap
  isLE_trans := Std.TransCmp.isLE_trans

instance [Std.TransCmp localeCompare] : Std.TransCmp (uniformCompare localeCompare) := by
  unfold uniformCompare
  infer_instance

/-- Entries of one kind are always comparable. -/
theorem comparable_of_uniform [Std.TransCmp localeCompare] {entries : List JsValue}
    (h : Uniform (entries.map (historySortKey dateParse))) :
    Comparable dateParse localeCompare entries := by
  have hsign : ∀ a ∈ entries, ∀ b ∈ entries, atMost dateParse localeCompare a b =
      (uniformCompare localeCompare (historySortKey dateParse a)
        (historySortKey dateParse b)).isLE := by
    intro a ha b hb
    rw [atMost, compareHistory, compareHistoryKeys_uniform h (List.mem_map_of_mem ha)
      (List.mem_map_of_mem hb), Option.any_some]
  constructor
  · intro a ha b hb
    rw [hsign a ha b hb, hsign b hb a ha,
      @Std.OrientedCmp.eq_swap _ (uniformCompare localeCompare) _ _
        (historySortKey dateParse b)]
    generalize uniformCompare localeCompare (historySortKey dateParse b)
      (historySortKey dateParse a) = sign
    cases sign <;> decide
  · intro a ha b hb c hc
    rw [hsign a ha b hb, hsign b hb c hc, hsign a ha c hc]
    exact Std.TransCmp.isLE_trans

end

/-! ### A message, a plan and an activity -/

/-- `Date.parse` on the stamps below. -/
def parseStamp (text : Text) : Option ℤ :=
  if text = ascii "2026-09-01T10:10:00.000Z" then some 1788257400000
  else if text = ascii "2026-09-01T10:20:00.000Z" then some 1788258000000
  else if text = ascii "2026-09-01T10:30:00.000Z" then some 1788258600000
  else none

def stampedEntry (id createdAt : String) (more : Fields) : JsValue :=
  .obj ((ascii "id", .str (ascii id)) :: (ascii "createdAt", .str (ascii createdAt)) :: more)

theorem abs_one_le : |(1 : ℤ)| ≤ 2 ^ 53 := by norm_num

theorem abs_two_le : |(2 : ℤ)| ≤ 2 ^ 53 := by norm_num

def numberedEntry (id createdAt : String) (sequence : ℤ) (h : |sequence| ≤ 2 ^ 53) : JsValue :=
  stampedEntry id createdAt [(ascii "sequence", .num (.fin (Double.ofInt sequence h)))]

def firstActivity : JsValue :=
  numberedEntry "a" "2026-09-01T10:30:00.000Z" 1 abs_one_le

def unnumbered : JsValue := stampedEntry "b" "2026-09-01T10:20:00.000Z" []

def secondActivity : JsValue :=
  numberedEntry "c" "2026-09-01T10:10:00.000Z" 2 abs_two_le

/-- The first activity sorts before the second by sequence, the second before
the unnumbered one and that before the first by time: the order depends on the
arrival. -/
theorem history_depends_on_arrival :
    ¬ (FollowsSort parseStamp (List.compareLex compare)
        [firstActivity] [unnumbered, secondActivity] ∧
      FollowsSort parseStamp (List.compareLex compare)
        [secondActivity] [firstActivity, unnumbered]) := by
  rintro ⟨h, h'⟩
  have hperm : [firstActivity, unnumbered, secondActivity].Perm
      (latestVersions [secondActivity] [firstActivity, unnumbered]) :=
    List.perm_append_singleton secondActivity [firstActivity, unnumbered]
  have hrun := h [firstActivity, unnumbered, secondActivity] (List.Perm.refl _)
  have hids := congrArg (List.map entryId?) (hrun.trans (h' _ hperm).symm)
  revert hids
  decide +kernel

theorem uniform_stamped {entries : List JsValue}
    (h : ∀ entry ∈ entries, (historySortKey parseStamp entry).sequence = none ∧
      (historySortKey parseStamp entry).ms.isSome) :
    Uniform (entries.map (historySortKey parseStamp)) := by
  refine ⟨Or.inl ?_, Or.inr ?_⟩ <;> simp only [List.forall_mem_map]
  · exact fun entry hentry => (h entry hentry).1
  · exact fun entry hentry => (h entry hentry).2

/-- A streamed reply grows in place behind the message it answers. -/
theorem history_follows_sort_reply :
    FollowsSort parseStamp (List.compareLex compare)
      [stampedEntry "u" "2026-09-01T10:10:00.000Z" []]
      [stampedEntry "r" "2026-09-01T10:20:00.000Z" [],
        stampedEntry "r" "2026-09-01T10:20:00.000Z" [(ascii "text", .str (ascii "Hi"))]] := by
  refine history_follows_sort ⟨by decide +kernel, by decide +kernel⟩ (by decide +kernel)
    (comparable_of_uniform (uniform_stamped ?_)) ?_ _ (List.prefix_refl _)
  · decide +kernel
  · refine And.intro (comparable_of_uniform (uniform_stamped ?_))
      (And.intro (comparable_of_uniform (uniform_stamped ?_)) trivial)
    · decide +kernel
    · decide +kernel

end T3

end CybexOS
