/-
Keeping the greatest of a collection: what is left when the least is taken out
until no more than a bound remain.
-/
import Mathlib.Data.List.Sort
import Mathlib.Order.Defs.LinearOrder

namespace CybexOS

section

variable {α : Type*} [LinearOrder α]

/-- Without the least ones that are more than `keep`. -/
def retained (keep : ℕ) (items : List α) : List α :=
  (items.insertionSort (· ≤ ·)).drop (items.length - keep)

theorem length_retained (keep : ℕ) (items : List α) :
    (retained keep items).length = min items.length keep := by
  rw [retained, List.length_drop, List.length_insertionSort]
  omega

theorem mem_of_mem_retained {keep : ℕ} {items : List α} {item : α}
    (h : item ∈ retained keep items) : item ∈ items :=
  (List.mem_insertionSort _).mp (List.mem_of_mem_drop h)

theorem nodup_retained {keep : ℕ} {items : List α} (h : items.Nodup) :
    (retained keep items).Nodup :=
  ((List.perm_insertionSort _ _).nodup_iff.mpr h).sublist (List.drop_sublist _ _)

theorem pairwise_lt_insertionSort {items : List α} (h : items.Nodup) :
    (items.insertionSort (· ≤ ·)).Pairwise (· < ·) := by
  have hsorted : (items.insertionSort (· ≤ ·)).Pairwise (· ≤ ·) :=
    List.pairwise_insertionSort (· ≤ ·) items
  have hnodup : (items.insertionSort (· ≤ ·)).Nodup :=
    (List.perm_insertionSort _ _).nodup_iff.mpr h
  apply (hsorted.and hnodup).imp
  intro a b hab
  exact lt_of_le_of_ne hab.1 hab.2

/-- The last ones of a sorted list are those with few behind them. -/
theorem mem_drop_iff {items : List α} (hsorted : items.Pairwise (· < ·)) (keep : ℕ) {item : α}
    (hitem : item ∈ items) :
    item ∈ items.drop (items.length - keep) ↔ (items.filter (item < ·)).length < keep := by
  induction items with
  | nil => cases hitem
  | cons head tail ih =>
      rw [List.pairwise_cons] at hsorted
      by_cases hkeep : tail.length + 1 ≤ keep
      · have hfew : ((head :: tail).filter (item < ·)).length < keep := by
          have hdropped : ¬ item < item := lt_irrefl item
          have hshort : ((head :: tail).filter (item < ·)).length < (head :: tail).length :=
            List.length_filter_lt_length_iff_exists.mpr ⟨item, hitem, by simp⟩
          exact lt_of_lt_of_le hshort hkeep
        have hall : (head :: tail).length - keep = 0 := by
          rw [List.length_cons]
          omega
        rw [hall, List.drop_zero]
        exact iff_of_true hitem hfew
      · have hone : (head :: tail).length - keep = (tail.length - keep) + 1 := by
          rw [List.length_cons]
          omega
        rw [hone, List.drop_succ_cons]
        rcases List.mem_cons.mp hitem with rfl | htail
        · have hgreater : ((item :: tail).filter (item < ·)) = tail := by
            rw [List.filter_cons_of_neg (by simp), List.filter_eq_self]
            intro other hother
            exact decide_eq_true (hsorted.1 other hother)
          have hnot : item ∉ tail := fun h => lt_irrefl item (hsorted.1 item h)
          rw [hgreater]
          apply iff_of_false
          · exact fun h => hnot (List.mem_of_mem_drop h)
          · omega
        · have hless : ¬ item < head := not_lt_of_gt (hsorted.1 item htail)
          rw [List.filter_cons_of_neg (by simpa using hless)]
          exact ih hsorted.2 htail

/-- One stays when fewer than `keep` are greater. -/
theorem mem_retained_iff {keep : ℕ} {items : List α} (hnodup : items.Nodup) {item : α}
    (hitem : item ∈ items) :
    item ∈ retained keep items ↔ (items.filter (item < ·)).length < keep := by
  have hperm := List.perm_insertionSort (· ≤ ·) items
  have hdrop := mem_drop_iff (pairwise_lt_insertionSort hnodup) keep
    ((List.mem_insertionSort (· ≤ ·)).mpr hitem)
  rw [List.length_insertionSort, (hperm.filter _).length_eq] at hdrop
  exact hdrop

end

end CybexOS
