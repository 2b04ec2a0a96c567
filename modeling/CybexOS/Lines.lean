/-
The pieces of a list between separators: their number, the piece at an offset,
and what replacing some whole pieces leaves of the others.
-/
import Mathlib.Data.List.Basic
import Mathlib.Data.List.Count
import Mathlib.Data.List.TakeDrop

namespace CybexOS

namespace Lines

variable {α : Type} [DecidableEq α] {mark : α} {s : List α}

theorem length_splitOn (mark : α) (s : List α) : (s.splitOn mark).length = s.count mark + 1 := by
  induction s with
  | nil => rfl
  | cons c s ih =>
      rw [List.splitOn_cons_eq_if_modifyHead, List.count_cons]
      split_ifs with hc
      · rw [List.length_cons, ih]
      · rw [List.length_modifyHead, ih, Nat.add_zero]

theorem not_mem_of_mem_splitOn {piece : List α} (h : piece ∈ s.splitOn mark) : mark ∉ piece := by
  induction s generalizing piece with
  | nil =>
      rw [List.splitOn_nil, List.mem_singleton] at h
      rw [h]
      exact List.not_mem_nil
  | cons c s ih =>
      rw [List.splitOn_cons_eq_if_modifyHead] at h
      split_ifs at h with hc
      · rcases List.mem_cons.mp h with rfl | h
        · exact List.not_mem_nil
        · exact ih h
      · obtain ⟨first, pieces, hpieces⟩ := List.exists_cons_of_ne_nil (List.splitOn_ne_nil mark s)
        rw [hpieces, List.modifyHead_cons] at h
        rcases List.mem_cons.mp h with rfl | h
        · rw [List.mem_cons, not_or]
          refine ⟨fun heq => hc (by rw [heq, beq_self_eq_true]), ih ?_⟩
          rw [hpieces]
          exact List.mem_cons_self
        · exact ih (hpieces ▸ List.mem_cons_of_mem _ h)

/-- Without a separator between two offsets they are in one piece. -/
theorem count_take_eq {p q : Nat} (hle : p ≤ q) (h : ∀ i, p ≤ i → i < q → s[i]? ≠ some mark) :
    (s.take q).count mark = (s.take p).count mark := by
  obtain ⟨d, rfl⟩ := Nat.exists_eq_add_of_le hle
  clear hle
  induction d with
  | zero => rfl
  | succ d ih =>
      have hmore := h (p + d) (Nat.le_add_right p d) (Nat.lt_succ_self _)
      rw [← Nat.add_assoc, List.take_add_one, List.count_append,
        ih fun i hi hlt => h i hi (Nat.lt_succ_of_lt hlt)]
      cases hc : s[p + d]? with
      | none => rfl
      | some c =>
          rw [hc] at hmore
          have hne : c ≠ mark := fun heq => hmore (heq ▸ rfl)
          simp [hne]

/-- An offset at which a piece starts. -/
def Starts (mark : α) (s : List α) (p : Nat) : Prop := p = 0 ∨ ∃ i, p = i + 1 ∧ s[i]? = some mark

/-- An offset at which a piece ends. -/
def Ends (mark : α) (s : List α) (q : Nat) : Prop := q = s.length ∨ s[q]? = some mark

/-- Whole pieces in the middle: the same pieces stand around whatever takes
their place. -/
theorem splitOn_around {p q : Nat} (hstart : Starts mark s p) (hend : Ends mark s q) :
    ∃ pre post : List (List α), pre.length = (s.take p).count mark ∧
      ∀ middle : List α, (s.take p ++ middle ++ s.drop q).splitOn mark =
        pre ++ middle.splitOn mark ++ post := by
  obtain ⟨post, hpost⟩ : ∃ post : List (List α), ∀ middle : List α,
      (middle ++ s.drop q).splitOn mark = middle.splitOn mark ++ post := by
    rcases hend with rfl | hmark
    · exact ⟨[], fun middle => by simp⟩
    · obtain ⟨hlt, hget⟩ := List.getElem?_eq_some_iff.mp hmark
      refine ⟨(s.drop (q + 1)).splitOn mark, fun middle => ?_⟩
      rw [List.drop_eq_getElem_cons hlt, hget, List.splitOn_append_cons_self]
  rcases hstart with rfl | ⟨i, rfl, hmark⟩
  · refine ⟨[], post, by simp, fun middle => ?_⟩
    rw [List.take_zero, List.nil_append, hpost, List.nil_append]
  · obtain ⟨hlt, hget⟩ := List.getElem?_eq_some_iff.mp hmark
    have htake : s.take (i + 1) = s.take i ++ [mark] := by
      rw [List.take_add_one, hmark, Option.toList_some]
    refine ⟨(s.take i).splitOn mark, post, ?_, fun middle => ?_⟩
    · rw [length_splitOn, htake, List.count_append, List.count_singleton_self]
    · rw [htake, List.append_assoc, List.append_assoc, List.singleton_append,
        List.splitOn_append_cons_self, hpost, List.append_assoc]

/-- Within the middle pieces. -/
theorem getElem?_middle {β : Type} {pre mid post : List β} {i : Nat} (hfirst : pre.length ≤ i)
    (hlast : i < pre.length + mid.length) : (pre ++ mid ++ post)[i]? = mid[i - pre.length]? := by
  rw [List.append_assoc, List.getElem?_append_right hfirst, List.getElem?_append_left (by omega)]

/-- Around the middle pieces. -/
theorem getElem?_around {β : Type} {pre mid other post : List β} (hlength : mid.length = other.length)
    {i : Nat} (h : ¬ (pre.length ≤ i ∧ i < pre.length + mid.length)) :
    (pre ++ other ++ post)[i]? = (pre ++ mid ++ post)[i]? := by
  rw [List.append_assoc, List.append_assoc]
  by_cases hfirst : i < pre.length
  · rw [List.getElem?_append_left hfirst, List.getElem?_append_left hfirst]
  · have hmid : mid.length ≤ i - pre.length := by omega
    have hother : other.length ≤ i - pre.length := hlength ▸ hmid
    have hpre : pre.length ≤ i := Nat.not_lt.mp hfirst
    rw [List.getElem?_append_right hpre, List.getElem?_append_right hpre,
      List.getElem?_append_right hother, List.getElem?_append_right hmid, hlength]

end Lines

end CybexOS
