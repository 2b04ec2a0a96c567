/-
Contiguous splits of a list into nonempty parts, and the dynamic programme that
finds one whose heaviest part is lightest.
-/
import Mathlib.Order.BoundedOrder.Lattice
import Mathlib.Order.MinMax
import Mathlib.Data.List.Basic
import Mathlib.Tactic.SplitIfs

namespace CybexOS

namespace Partition

variable {α C : Type*}

/-- The parts, in order, are the items, and none of them is empty. -/
structure Split (items : List α) (parts : List (List α)) : Prop where
  flatten : parts.flatten = items
  nonempty : ∀ part ∈ parts, part ≠ []

theorem Split.length_le {items : List α} {parts : List (List α)} (h : Split items parts) :
    parts.length ≤ items.length := by
  obtain ⟨rfl, hnonempty⟩ := h
  induction parts with
  | nil => exact Nat.zero_le _
  | cons part parts ih =>
      have hpart : 0 < part.length := List.length_pos_iff.mpr (hnonempty part (by simp))
      have hparts := ih fun other hother => hnonempty other (List.mem_cons_of_mem _ hother)
      rw [List.flatten_cons, List.length_append, List.length_cons]
      omega

/-- The items from an index up to another. -/
def part (items : List α) (start stop : ℕ) : List α := (items.take stop).drop start

theorem part_ne_nil {items : List α} {start stop : ℕ} (h : start < stop)
    (hstop : stop ≤ items.length) : part items start stop ≠ [] := by
  intro hnil
  have hlength := congrArg List.length hnil
  rw [part, List.length_drop, List.length_take, List.length_nil] at hlength
  omega

theorem take_append_part (items : List α) {start stop : ℕ} (h : start ≤ stop) :
    items.take start ++ part items start stop = items.take stop := by
  have htake : items.take start = (items.take stop).take start := by
    rw [List.take_take, Nat.min_eq_left h]
  rw [part, htake, List.take_append_drop]

section

variable [LinearOrder C] [BoundedOrder C]

/-- The weight of the heaviest part. -/
def heaviest (weight : List α → C) (parts : List (List α)) : C :=
  (parts.map weight).foldr max ⊥

@[simp]
theorem heaviest_nil (weight : List α → C) : heaviest weight [] = ⊥ := rfl

@[simp]
theorem heaviest_cons (weight : List α → C) (first : List α) (parts : List (List α)) :
    heaviest weight (first :: parts) = max (weight first) (heaviest weight parts) := rfl

theorem heaviest_append (weight : List α → C) (front back : List (List α)) :
    heaviest weight (front ++ back) = max (heaviest weight front) (heaviest weight back) := by
  induction front with
  | nil => simp
  | cons first front ih => rw [List.cons_append, heaviest_cons, heaviest_cons, ih, max_assoc]

/-- The least cost of these indices and the first of them that has it. -/
def cheapest (cost : ℕ → C) (indices : List ℕ) : C × ℕ :=
  indices.foldl (fun state j => if cost j < state.1 then (cost j, j) else state) (⊤, 0)

/-- The state after some indices: below the one before them and below every
cost seen, and one of these costs unless nothing changed. -/
theorem foldl_cheapest (cost : ℕ → C) (state : C × ℕ) (indices : List ℕ) :
    let last := indices.foldl
      (fun state j => if cost j < state.1 then (cost j, j) else state) state
    last.1 ≤ state.1 ∧ (∀ j ∈ indices, last.1 ≤ cost j) ∧
      (last = state ∨ last.2 ∈ indices ∧ cost last.2 = last.1) := by
  induction indices generalizing state with
  | nil => exact ⟨le_rfl, by simp, Or.inl rfl⟩
  | cons j indices ih =>
      rw [List.foldl_cons]
      obtain ⟨hle, hall, hlast⟩ := ih (if cost j < state.1 then (cost j, j) else state)
      have hnext : (if cost j < state.1 then (cost j, j) else state).1 ≤ state.1 ∧
          (if cost j < state.1 then (cost j, j) else state).1 ≤ cost j := by
        split_ifs with hlt
        · exact ⟨hlt.le, le_rfl⟩
        · exact ⟨le_rfl, not_lt.mp hlt⟩
      refine ⟨hle.trans hnext.1, ?_, ?_⟩
      · intro i hi
        rcases List.mem_cons.mp hi with rfl | hi
        · exact hle.trans hnext.2
        · exact hall i hi
      · rcases hlast with heq | ⟨hmem, hcost⟩
        · rw [heq]
          split_ifs with hlt
          · exact Or.inr ⟨List.mem_cons_self, rfl⟩
          · exact Or.inl rfl
        · exact Or.inr ⟨List.mem_cons_of_mem _ hmem, hcost⟩

/-- The minimum is below every cost, and one of them once it is finite. -/
theorem cheapest_spec (cost : ℕ → C) (indices : List ℕ) :
    (∀ j ∈ indices, (cheapest cost indices).1 ≤ cost j) ∧
      ((cheapest cost indices).1 < ⊤ → (cheapest cost indices).2 ∈ indices ∧
        cost (cheapest cost indices).2 = (cheapest cost indices).1) := by
  obtain ⟨-, hall, hlast⟩ := foldl_cheapest cost (⊤, 0) indices
  refine ⟨hall, fun hfinite => hlast.resolve_left fun heq => ?_⟩
  rw [show cheapest cost indices = (⊤, 0) from heq] at hfinite
  exact lt_irrefl _ hfinite

theorem cheapest_index (cost : ℕ → C) (indices : List ℕ) :
    (cheapest cost indices).2 = 0 ∨ (cheapest cost indices).2 ∈ indices := by
  obtain ⟨-, -, heq | hmem⟩ := foldl_cheapest cost (⊤, 0) indices
  · exact Or.inl (congrArg Prod.snd heq)
  · exact Or.inr hmem.1

/-- The lightest heaviest part of the first `i` items in `k` parts, and where
the last of them starts. -/
def lightest (weight : List α → C) (items : List α) : ℕ → ℕ → C × ℕ
  | 0, i => (if i = 0 then ⊥ else ⊤, 0)
  | k + 1, i => cheapest
      (fun j => max (lightest weight items k j).1 (weight (part items j i)))
      (List.range' k (i - k))

theorem lightest_start_le (weight : List α → C) (items : List α) (k i : ℕ) :
    (lightest weight items k i).2 ≤ i := by
  cases k with
  | zero => exact Nat.zero_le _
  | succ k =>
      rcases cheapest_index (fun j => max (lightest weight items k j).1 (weight (part items j i)))
        (List.range' k (i - k)) with hzero | hmem
      · exact hzero.trans_le (Nat.zero_le _)
      · have hbounds : k ≤ (lightest weight items (k + 1) i).2 ∧
            (lightest weight items (k + 1) i).2 < k + (i - k) := List.mem_range'_1.mp hmem
        omega

/-- The parts that these starts cut off, from the last one to the first. -/
def cutBack (items : List α) (start : ℕ → ℕ → ℕ) : ℕ → ℕ → List (List α)
  | 0, _ => []
  | k + 1, stop => cutBack items start k (start (k + 1) stop) ++
      [part items (start (k + 1) stop) stop]

theorem length_cutBack (items : List α) (start : ℕ → ℕ → ℕ) (k stop : ℕ) :
    (cutBack items start k stop).length = k := by
  induction k generalizing stop with
  | zero => rfl
  | succ k ih => rw [cutBack, List.length_append, ih, List.length_singleton]

variable {weight : List α → C} {items : List α}

/-- No split is lighter. -/
theorem lightest_le {parts : List (List α)} {k i : ℕ} (h : Split (items.take i) parts)
    (hlength : parts.length = k) (hi : i ≤ items.length) :
    (lightest weight items k i).1 ≤ heaviest weight parts := by
  induction k generalizing parts i with
  | zero =>
      obtain rfl := List.length_eq_zero_iff.mp hlength
      have hempty : (items.take i).length = 0 := by rw [← h.flatten]; rfl
      rw [List.length_take] at hempty
      rw [lightest, if_pos (by omega)]
      exact bot_le
  | succ k ih =>
      obtain ⟨front, last, rfl⟩ : ∃ front last, parts = front ++ [last] := by
        refine ⟨parts.dropLast, parts.getLast (List.ne_nil_of_length_eq_add_one hlength), ?_⟩
        rw [List.dropLast_append_getLast]
      have hflat : front.flatten ++ last = items.take i := by simpa using h.flatten
      have hfront : front.flatten = items.take front.flatten.length := by
        have htaken := congrArg (List.take front.flatten.length) hflat
        have hle : front.flatten.length ≤ i := by
          have hsum := congrArg List.length hflat
          rw [List.length_append, List.length_take] at hsum
          omega
        rwa [List.take_left', List.take_take, Nat.min_eq_left hle] at htaken
        rfl
      have hlast : last ≠ [] := h.nonempty last (by simp)
      have hsplit : Split (items.take front.flatten.length) front :=
        ⟨hfront, fun part hpart => h.nonempty part (List.mem_append_left _ hpart)⟩
      have hcount : front.length = k := by
        rw [List.length_append, List.length_singleton] at hlength
        omega
      have hmany := hsplit.length_le
      have hlengths := congrArg List.length hflat
      have hpositive := List.length_pos_iff.mpr hlast
      rw [List.length_append, List.length_take, Nat.min_eq_left hi] at hlengths
      rw [List.length_take, hcount] at hmany
      have hpart : part items front.flatten.length i = last := by
        rw [part, ← hflat, List.drop_left]
      refine ((cheapest_spec _ _).1 front.flatten.length ?_).trans ?_
      · rw [List.mem_range'_1]
        omega
      · rw [hpart, heaviest_append, heaviest_cons, heaviest_nil, max_bot_right]
        exact max_le_max_right _ (ih hsplit hcount (by omega))

/-- The parts cut back are a split of that weight. -/
theorem cutBack_lightest (hweight : ∀ part, weight part < ⊤) {k i : ℕ} (hle : k ≤ i)
    (hi : i ≤ items.length) (hzero : k = 0 → i = 0) :
    (lightest weight items k i).1 < ⊤ ∧
      Split (items.take i) (cutBack items (fun k i => (lightest weight items k i).2) k i) ∧
        heaviest weight (cutBack items (fun k i => (lightest weight items k i).2) k i) =
          (lightest weight items k i).1 := by
  induction k generalizing i with
  | zero =>
      obtain rfl := hzero rfl
      exact ⟨bot_le.trans_lt (hweight []), ⟨rfl, by simp [cutBack]⟩, rfl⟩
  | succ k ih =>
      have hspec := cheapest_spec
        (fun j => max (lightest weight items k j).1 (weight (part items j i)))
        (List.range' k (i - k))
      -- the last part may always start at `k`
      have hfirst : k ∈ List.range' k (i - k) := by
        rw [List.mem_range'_1]
        omega
      have hfinite : (lightest weight items (k + 1) i).1 < ⊤ :=
        (hspec.1 k hfirst).trans_lt (max_lt (ih le_rfl (by omega) id).1 (hweight _))
      obtain ⟨hmem, hcost⟩ := hspec.2 hfinite
      have hbounds : k ≤ (lightest weight items (k + 1) i).2 ∧
          (lightest weight items (k + 1) i).2 < k + (i - k) := List.mem_range'_1.mp hmem
      have hstart : k = 0 → (lightest weight items (k + 1) i).2 = 0 := by
        rintro rfl
        have hfront : (lightest weight items 0 (lightest weight items 1 i).2).1 < ⊤ :=
          (le_max_left _ _).trans_lt (hcost.trans_lt hfinite)
        rw [lightest] at hfront
        by_contra hne
        rw [if_neg hne] at hfront
        exact lt_irrefl _ hfront
      obtain ⟨-, hsplit, hheaviest⟩ := ih (i := (lightest weight items (k + 1) i).2) hbounds.1
        (by omega) hstart
      refine ⟨hfinite, ⟨?_, ?_⟩, ?_⟩
      · rw [cutBack, List.flatten_append, hsplit.flatten, List.flatten_singleton]
        exact take_append_part items (by omega)
      · intro piece hpiece
        rw [cutBack, List.mem_append, List.mem_singleton] at hpiece
        rcases hpiece with hfront | rfl
        · exact hsplit.nonempty piece hfront
        · exact part_ne_nil (by omega) hi
      · rw [cutBack, heaviest_append, hheaviest, heaviest_cons, heaviest_nil, max_bot_right]
        exact hcost

/-- Cutting back from the whole list gives a lightest split into that many
parts. -/
theorem cutBack_optimal (hweight : ∀ part, weight part < ⊤) {k : ℕ} (hle : k ≤ items.length)
    (hzero : k = 0 → items = []) :
    let parts := cutBack items (fun k i => (lightest weight items k i).2) k items.length
    Split items parts ∧ ∀ others, Split items others → others.length = k →
      heaviest weight parts ≤ heaviest weight others := by
  intro parts
  obtain ⟨-, hsplit, hheaviest⟩ := cutBack_lightest hweight hle le_rfl
    fun h => by rw [hzero h, List.length_nil]
  rw [List.take_length] at hsplit
  refine ⟨hsplit, fun others hothers hlength => hheaviest.trans_le ?_⟩
  exact lightest_le (by rwa [List.take_length]) hlength le_rfl

end

end Partition

end CybexOS
