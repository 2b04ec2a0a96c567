/-
First occurrences: of the items with one key only the first is kept, in order.
-/
import Mathlib.Data.List.Nodup
import Mathlib.Tactic.SplitIfs

namespace CybexOS

section

variable {α κ : Type*} [DecidableEq κ] (key : α → κ)

/-- Of the items with a key the first one. -/
def firsts : List α → List α
  | [] => []
  | item :: rest => item :: (firsts rest).filter fun later => key later ≠ key item

/-- The items whose key is not seen before, where each one is seen as it is kept. -/
def unseen (seen : List κ) : List α → List α
  | [] => []
  | item :: rest =>
      if key item ∈ seen then unseen seen rest else item :: unseen (key item :: seen) rest

variable {key}

theorem firsts_filter (p : κ → Bool) (items : List α) :
    firsts key (items.filter fun item => p (key item)) =
      (firsts key items).filter fun item => p (key item) := by
  induction items with
  | nil => rfl
  | cons item rest ih =>
      rw [firsts, List.filter_cons, List.filter_cons]
      split_ifs with hitem
      · rw [firsts, ih, List.filter_comm]
      · rw [ih, List.filter_filter]
        refine (List.filter_congr fun later _ => ?_).symm
        by_cases hlater : p (key later) = true
        · have hne : key later ≠ key item := fun heq => hitem (heq ▸ hlater)
          simp [hlater, hne]
        · simp [hlater]

theorem unseen_eq_filter (seen : List κ) (items : List α) :
    unseen key seen items = (firsts key items).filter fun item => key item ∉ seen := by
  induction items generalizing seen with
  | nil => rfl
  | cons item rest ih =>
      rw [unseen, firsts, List.filter_cons]
      by_cases hitem : key item ∈ seen
      · rw [if_pos hitem, if_neg (by simpa using hitem), ih, List.filter_filter]
        refine List.filter_congr fun later _ => ?_
        by_cases hlater : key later ∈ seen
        · simp [hlater]
        · have hne : key later ≠ key item := fun heq => hlater (heq ▸ hitem)
          simp [hlater, hne]
      · rw [if_neg hitem, if_pos (by simpa using hitem), ih, List.filter_filter]
        refine congrArg _ (List.filter_congr fun later _ => ?_)
        simp [List.mem_cons, Bool.and_comm]

theorem mem_firsts_keys {items : List α} {held : κ} :
    held ∈ (firsts key items).map key ↔ held ∈ items.map key := by
  induction items with
  | nil => rfl
  | cons item rest ih =>
      rw [firsts, List.map_cons, List.map_cons, List.mem_cons, List.mem_cons, ← ih]
      refine or_congr_right' fun hne => ?_
      constructor
      · intro h
        obtain ⟨later, hlater, rfl⟩ := List.mem_map.mp h
        exact List.mem_map.mpr ⟨later, (List.mem_filter.mp hlater).1, rfl⟩
      · intro h
        obtain ⟨later, hlater, rfl⟩ := List.mem_map.mp h
        exact List.mem_map.mpr ⟨later, List.mem_filter.mpr ⟨hlater, by simpa using hne⟩, rfl⟩

theorem nodup_firsts_keys (items : List α) : ((firsts key items).map key).Nodup := by
  induction items with
  | nil => exact List.nodup_nil
  | cons item rest ih =>
      rw [firsts, List.map_cons, List.nodup_cons]
      refine ⟨fun h => ?_, ih.sublist (List.filter_sublist.map key)⟩
      obtain ⟨later, hlater, heq⟩ := List.mem_map.mp h
      exact absurd heq (by simpa using (List.mem_filter.mp hlater).2)

theorem firsts_append (items more : List α) :
    firsts key (items ++ more) = firsts key items ++ unseen key (items.map key) more := by
  induction items with
  | nil =>
      rw [unseen_eq_filter]
      simp [firsts]
  | cons item rest ih =>
      rw [List.cons_append, firsts, firsts, ih, List.filter_append, List.cons_append,
        unseen_eq_filter, unseen_eq_filter, List.filter_filter]
      refine congrArg (item :: _ ++ ·) (List.filter_congr fun later _ => ?_)
      simp [List.mem_cons]

end

end CybexOS
