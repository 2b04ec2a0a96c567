/-
Lists kept in order by binary insertion.  The order is only asked to be one on
the elements that a list holds.
-/
import Mathlib.Data.List.Sort
import Mathlib.Data.List.TakeWhile

namespace CybexOS

variable {α : Type*}

/-- The relation orders these elements. -/
structure OrderedOn (le : α → α → Prop) (values : List α) : Prop where
  total : ∀ a ∈ values, ∀ b ∈ values, le a b ∨ le b a
  trans : ∀ a ∈ values, ∀ b ∈ values, ∀ c ∈ values, le a b → le b c → le a c

namespace OrderedOn

variable {le : α → α → Prop} {values others : List α}

theorem of_subset (h : OrderedOn le values) (hsub : ∀ a ∈ others, a ∈ values) :
    OrderedOn le others where
  total a ha b hb := h.total a (hsub a ha) b (hsub b hb)
  trans a ha b hb c hc := h.trans a (hsub a ha) b (hsub b hb) c (hsub c hc)

theorem of_perm (h : OrderedOn le values) (hperm : values.Perm others) :
    OrderedOn le others :=
  h.of_subset fun _ ha => hperm.mem_iff.mpr ha

theorem pairwise_orderedInsert [DecidableRel le] {value : α}
    (h : OrderedOn le (value :: values)) (hsorted : values.Pairwise le) :
    (values.orderedInsert le value).Pairwise le := by
  induction values with
  | nil => simp
  | cons head tail ih =>
      rw [List.pairwise_cons] at hsorted
      rw [List.orderedInsert_cons]
      split_ifs with hle
      · refine List.pairwise_cons.mpr ⟨?_, List.pairwise_cons.mpr hsorted⟩
        intro other hother
        rcases List.mem_cons.mp hother with rfl | htail
        · exact hle
        · exact h.trans value (by simp) head (by simp) other (by simp [htail]) hle
            (hsorted.1 other htail)
      · have htail : OrderedOn le (value :: tail) := h.of_subset (by simp; tauto)
        refine List.pairwise_cons.mpr ⟨?_, ih htail hsorted.2⟩
        intro other hother
        rcases (List.mem_orderedInsert le).mp hother with rfl | htail
        · exact (h.total _ (by simp) head (by simp)).resolve_left hle
        · exact hsorted.1 other htail

/-- Sorting sorts whatever is ordered. -/
theorem pairwise_insertionSort [DecidableRel le] (h : OrderedOn le values) :
    (values.insertionSort le).Pairwise le := by
  induction values with
  | nil => exact List.Pairwise.nil
  | cons head tail ih =>
      rw [List.insertionSort_cons]
      refine pairwise_orderedInsert ?_ (ih (h.of_subset (by simp; tauto)))
      exact h.of_subset fun a ha => by simpa using ha

/-- Between a front that is below and a back that is above, an element has its
place. -/
theorem pairwise_between {front back : List α} {value : α}
    (h : (front ++ back).Pairwise le) (hfront : ∀ a ∈ front, le a value)
    (hback : ∀ b ∈ back, le value b) : (front ++ value :: back).Pairwise le := by
  rw [List.pairwise_append] at h ⊢
  refine ⟨h.1, List.pairwise_cons.mpr ⟨hback, h.2.1⟩, ?_⟩
  intro a ha b hb
  rcases List.mem_cons.mp hb with rfl | hb
  · exact hfront a ha
  · exact h.2.2 a ha b hb

/-- An element that fits between its neighbours fits everywhere. -/
theorem pairwise_of_neighbours {front back : List α} {value : α}
    (h : OrderedOn le (front ++ value :: back)) (hsorted : (front ++ back).Pairwise le)
    (hprevious : ∀ a ∈ front.getLast?, le a value)
    (hnext : ∀ b ∈ back.head?, le value b) : (front ++ value :: back).Pairwise le := by
  have hpairs := List.pairwise_append.mp hsorted
  refine pairwise_between hsorted ?_ ?_
  · intro a ha
    obtain ⟨last, hlast⟩ := List.getLast?_isSome.mpr (List.ne_nil_of_mem ha) |>
      Option.isSome_iff_exists.mp
    obtain ⟨init, rfl⟩ := List.getLast?_eq_some_iff.mp hlast
    rcases List.mem_append.mp ha with hinit | hsingle
    · have hle := (List.pairwise_append.mp hpairs.1).2.2 a hinit last (by simp)
      exact h.trans a (by simp [hinit]) last (by simp) value (by simp) hle
        (hprevious last hlast)
    · rw [List.mem_singleton.mp hsingle]
      exact hprevious last hlast
  · intro b hb
    cases back with
    | nil => simp at hb
    | cons head tail =>
        have hhead := hnext head (by simp)
        rcases List.mem_cons.mp hb with rfl | htail
        · exact hhead
        · exact h.trans value (by simp) head (by simp) b (by simp [htail]) hhead
            ((List.pairwise_cons.mp hpairs.2.1).1 b htail)

end OrderedOn

/-! ### Sorting again after a change -/

section

variable {le : α → α → Prop} [DecidableRel le] {values : List α}

theorem OrderedOn.filter_orderedInsert {value : α} (h : OrderedOn le (value :: values))
    (hsorted : values.Pairwise le) (keep : α → Bool) :
    (values.orderedInsert le value).filter keep =
      if keep value then (values.filter keep).orderedInsert le value else values.filter keep := by
  induction values with
  | nil => cases hkeep : keep value <;> simp [hkeep]
  | cons head tail ih =>
      have htail := ih (h.of_subset (by simp; tauto)) (List.pairwise_cons.mp hsorted).2
      rw [List.orderedInsert_cons]
      split_ifs with hle hkeep hkeep
      · -- the value stands before all others, kept or not
        have hbefore : ∀ other ∈ (head :: tail).filter keep, le value other := by
          intro other hother
          rcases List.mem_cons.mp (List.mem_filter.mp hother).1 with rfl | hmem
          · exact hle
          · exact h.trans value (by simp) head (by simp) other (by simp [hmem]) hle
              ((List.pairwise_cons.mp hsorted).1 other hmem)
        rw [List.filter_cons_of_pos hkeep]
        cases hkept : (head :: tail).filter keep with
        | nil => rfl
        | cons first rest =>
            rw [List.orderedInsert_cons_of_le le rest (hbefore first (by simp [hkept]))]
      · rw [List.filter_cons_of_neg hkeep]
      · rw [if_pos hkeep] at htail
        by_cases hhead : keep head = true
        · rw [List.filter_cons_of_pos hhead, List.filter_cons_of_pos hhead, htail,
            List.orderedInsert_of_not_le le _ hle]
        · rw [List.filter_cons_of_neg hhead, List.filter_cons_of_neg hhead, htail]
      · rw [if_neg hkeep] at htail
        rw [List.filter_cons, List.filter_cons, htail]

/-- Sorting is stable: what is kept of a sorted list is what is kept, sorted. -/
theorem OrderedOn.filter_insertionSort (h : OrderedOn le values) (keep : α → Bool) :
    (values.insertionSort le).filter keep = (values.filter keep).insertionSort le := by
  induction values with
  | nil => rfl
  | cons head tail ih =>
      have htail : OrderedOn le tail := h.of_subset (by simp; tauto)
      have hinserted : OrderedOn le (head :: tail.insertionSort le) :=
        h.of_subset fun a ha => by simpa using ha
      rw [List.insertionSort_cons, hinserted.filter_orderedInsert htail.pairwise_insertionSort,
        ih htail, List.filter_cons]
      split_ifs with hkeep
      · rw [List.insertionSort_cons]
      · rfl

/-- A group that a change puts in a strict order is listed in that order. -/
theorem OrderedOn.filter_insertionSort_map {change : α → α} {group : List α}
    {keep among : α → Bool} (h : OrderedOn le (values.map change))
    (hkeep : ∀ a ∈ values, keep (change a) = among a) (hgroup : group.Perm (values.filter among))
    (hstrict : (group.map change).Pairwise fun a b => le a b ∧ ¬ le b a) :
    ((values.map change).insertionSort le).filter keep = group.map change := by
  have hkept : (values.map change).filter keep = (values.filter among).map change := by
    rw [List.filter_map]
    exact congrArg (List.map change) (List.filter_congr hkeep)
  have hordered : OrderedOn le ((values.filter among).map change) :=
    h.of_subset fun a ha => List.map_subset change List.filter_sublist.subset ha
  have hperm : (((values.filter among).map change).insertionSort le).Perm (group.map change) :=
    (List.perm_insertionSort le _).trans (hgroup.map change).symm
  rw [h.filter_insertionSort, hkept]
  refine List.Perm.eq_of_pairwise ?_ hordered.pairwise_insertionSort
    (hstrict.imp And.left) hperm
  intro a b ha hb hab hba
  obtain ⟨i, hi, rfl⟩ := List.mem_iff_getElem.mp (hperm.mem_iff.mp ha)
  obtain ⟨j, hj, rfl⟩ := List.mem_iff_getElem.mp hb
  rw [List.pairwise_iff_getElem] at hstrict
  rcases Nat.lt_trichotomy i j with hlt | rfl | hlt
  · exact absurd hba (hstrict i j hi hj hlt).2
  · rfl
  · exact absurd hab (hstrict j i hj hi hlt).2

/-- What a change leaves alone is listed as before. -/
theorem OrderedOn.filter_insertionSort_map_of_eq {change : α → α} {keep among : α → Bool}
    (h : OrderedOn le values) (hchanged : OrderedOn le (values.map change))
    (hkeep : ∀ a ∈ values, keep (change a) = among a)
    (hsame : ∀ a ∈ values, among a = true → change a = a) :
    ((values.map change).insertionSort le).filter keep =
      (values.insertionSort le).filter among := by
  have hkept : (values.map change).filter keep = values.filter among := by
    have hamong : values.filter (keep ∘ change) = values.filter among := List.filter_congr hkeep
    rw [List.filter_map, hamong]
    refine (List.map_congr_left fun a ha => ?_).trans (List.map_id _)
    obtain ⟨hmem, ha⟩ := List.mem_filter.mp ha
    exact hsame a hmem ha
  rw [hchanged.filter_insertionSort, hkept, h.filter_insertionSort]

end

/-! ### Binary insertion -/

/-- The first place whose element `after` refuses, looked for in `[low, high)`. -/
def searchAfter (after : α → Bool) (values : List α) : Nat → Nat → Nat → Nat
  | 0, low, _ => low
  | fuel + 1, low, high =>
      if low < high then
        let middle := (low + high) / 2
        if values[middle]?.any after then searchAfter after values fuel (middle + 1) high
        else searchAfter after values fuel low middle
      else low

/-- Insert behind every element that `after` accepts. -/
def insertAfter (after : α → Bool) (values : List α) (value : α) : List α :=
  let low := searchAfter after values values.length 0 values.length
  values.take low ++ value :: values.drop low

/-- The search ends at the border of the accepted elements. -/
theorem searchAfter_eq {after : α → Bool} {values : List α} {border : Nat}
    (hborder : ∀ i (hi : i < values.length), after values[i] ↔ i < border)
    {fuel low high : Nat} (hfuel : high - low ≤ fuel) (hlow : low ≤ border)
    (hhigh : border ≤ high) (hlength : high ≤ values.length) :
    searchAfter after values fuel low high = border := by
  induction fuel generalizing low high with
  | zero =>
      rw [searchAfter]
      omega
  | succ fuel ih =>
      rw [searchAfter]
      split_ifs with hlt
      · have hmiddle : (low + high) / 2 < values.length := by omega
        simp only [List.getElem?_eq_getElem hmiddle, Option.any_some]
        split_ifs with hafter
        · have := (hborder _ hmiddle).mp hafter
          exact ih (by omega) (by omega) hhigh hlength
        · have : ¬ (low + high) / 2 < border := fun h => hafter ((hborder _ hmiddle).mpr h)
          exact ih (by omega) hlow (by omega) (by omega)
      · omega

theorem insertAfter_append {after : α → Bool} {front back : List α} (value : α)
    (hfront : ∀ a ∈ front, after a = true) (hback : ∀ b ∈ back, after b = false) :
    insertAfter after (front ++ back) value = front ++ value :: back := by
  have hlow : searchAfter after (front ++ back) (front ++ back).length 0
      (front ++ back).length = front.length := by
    refine searchAfter_eq ?_ (by omega) (by omega) (by simp) le_rfl
    intro i hi
    rw [List.getElem_append]
    split_ifs with hin
    · simp [hin, hfront _ (List.getElem_mem hin)]
    · simp [hin, hback _ (List.getElem_mem _)]
  rw [insertAfter, hlow]
  simp

/-- Where the accepted elements come first, the list splits at their border. -/
theorem exists_border {le : α → α → Prop} (after : α → Bool) {values : List α}
    (hsorted : values.Pairwise le)
    (hdown : ∀ a ∈ values, ∀ b ∈ values, le a b → after b = true → after a = true) :
    ∃ front back, values = front ++ back ∧
      (∀ a ∈ front, after a = true) ∧ ∀ b ∈ back, after b = false := by
  refine ⟨values.takeWhile after, values.dropWhile after,
    List.takeWhile_append_dropWhile.symm, fun a ha => List.mem_takeWhile_imp ha, ?_⟩
  induction values with
  | nil => simp
  | cons head tail ih =>
      rw [List.pairwise_cons] at hsorted
      by_cases hhead : after head = true
      · rw [List.dropWhile_cons_of_pos hhead]
        exact ih hsorted.2 fun a ha b hb => hdown a (by simp [ha]) b (by simp [hb])
      · rw [List.dropWhile_cons_of_neg hhead]
        intro b hb
        rcases List.mem_cons.mp hb with rfl | htail
        · simpa using hhead
        · by_contra hafter
          exact hhead (hdown head (by simp) b hb (hsorted.1 b htail) (by simpa using hafter))

/-- Binary insertion keeps an ordered list sorted. -/
theorem OrderedOn.pairwise_insertAfter {le : α → α → Prop} {values : List α} {value : α}
    (h : OrderedOn le (value :: values)) (after : α → Bool)
    (hafter : ∀ a ∈ values, after a = true ↔ le a value) (hsorted : values.Pairwise le) :
    (insertAfter after values value).Pairwise le ∧
      (insertAfter after values value).Perm (value :: values) := by
  obtain ⟨front, back, rfl, hfront, hback⟩ := exists_border after hsorted
    fun a ha b hb hab hb' => (hafter a ha).mpr <|
      h.trans a (by simp [ha]) b (by simp [hb]) value (by simp) hab ((hafter b hb).mp hb')
  rw [insertAfter_append value hfront hback]
  refine ⟨pairwise_between hsorted ?_ ?_, List.perm_middle⟩
  · exact fun a ha => (hafter a (by simp [ha])).mp (hfront a ha)
  · intro b hb
    refine (h.total value (by simp) b (by simp [hb])).resolve_right fun hle => ?_
    rw [← hafter b (by simp [hb]), hback b hb] at hle
    simp at hle

end CybexOS
