/-
The shortcut overlay's columns (`columnsFor` in `KeybindHelpers.js`): the groups
split, in order, so that the heaviest column is lightest.
-/
import CybexOS.Json.Js
import CybexOS.Partition
import Mathlib.Algebra.Order.Ring.Rat
import Mathlib.Data.Rat.Floor
import Mathlib.Order.WithBot

namespace CybexOS

namespace Keybinds

open Json (JsValue)

/-- `Array.isArray(value) ? value : []` -/
def arrayOf : JsValue → List JsValue
  | .arr items => items
  | _ => []

/-- `Math.max(1, Math.min(Math.floor(Number(count) || 1), length || 1))` -/
def columnCount (count : Number) (length : ℕ) : ℕ :=
  let most : ℤ := if length = 0 then 1 else length
  let wanted : ℤ := match count with
    | .fin value => if value.val = 0 then 1 else ⌊value.val⌋
    | .inf neg => if neg then 0 else most
    | .nan => 1
  (max 1 (min wanted most)).toNat

/-- `group && Array.isArray(group.rows) ? group.rows.length : 0` -/
def rowCount (group : JsValue) : ℕ :=
  match group with
  | .obj fields => ((fields.lookup (ascii "rows")).map arrayOf).elim 0 List.length
  | _ => 0

def weightOf (group : JsValue) : ℚ≥0 := rowCount group + 3 / 2

/-- A cost; `⊤` is `Infinity`. -/
abbrev Cost := WithTop ℚ≥0

/-- `prefix[to] - prefix[from]` -/
def between (sums : List ℚ≥0) (start stop : ℕ) : ℚ≥0 := sums.getD stop 0 - sums.getD start 0

/-- `best[k][i]` and `cut[k][i]` of the row `best[k - 1]`. -/
def cell (sums : List ℚ≥0) (previous : List Cost) (k i : ℕ) : Cost × ℕ :=
  (List.range' (k - 1) (i - (k - 1))).foldl (fun state j =>
    let cost := max (previous.getD j ⊤) (between sums j i)
    if cost < state.1 then (cost, j) else state) (⊤, 0)

/-- `best[k]` and `cut[k]` -/
def tableRow (sums : List ℚ≥0) (length : ℕ) : ℕ → List (Cost × ℕ)
  | 0 => (List.range (length + 1)).map fun i => (if i = 0 then 0 else ⊤, 0)
  | k + 1 =>
      let previous := (tableRow sums length k).map Prod.fst
      (List.range (length + 1)).map fun i =>
        if k + 1 ≤ i then cell sums previous (k + 1) i else (⊤, 0)

/-- `list.slice(start, end)` -/
def slice (list : List JsValue) (start stop : ℕ) : List JsValue := (list.take stop).drop start

/-- The columns from the last to the first, each put before the later ones. -/
def columnsBack (list : List JsValue) (cut : ℕ → ℕ → ℕ) :
    ℕ → ℕ → List (List JsValue) → List (List JsValue)
  | 0, _, out => out
  | k + 1, stop, out =>
      let start := if list = [] then 0 else cut (k + 1) stop
      columnsBack list cut k start (slice list start stop :: out)

def columnsFor (groups : JsValue) (count : Number) : List (List JsValue) :=
  let list := arrayOf groups
  let sums := (list.map weightOf).scanl (· + ·) 0
  let cut := fun k i => ((tableRow sums list.length k)[i]?).elim 0 Prod.snd
  columnsBack list cut (columnCount count list.length) list.length []

/-! ### What the columns are for -/

/-- Rows plus 1.5 per group. -/
def columnWeight (column : List JsValue) : Cost := ((column.map weightOf).sum : ℚ≥0)

/-- `Math.floor(count)` cut to at least one column and at most one per group;
what is no number counts as 1. -/
def wantedColumns (count : Number) (length : ℕ) : ℤ :=
  match count with
  | .fin value => min (max 1 ⌊value.val⌋) length
  | .inf neg => if neg then 1 else length
  | .nan => 1

structure Optimal (list : List JsValue) (count : Number) (columns : List (List JsValue)) :
    Prop where
  flatten : columns.flatten = list
  length : (columns.length : ℤ) = if list = [] then 1 else wantedColumns count list.length
  nonempty : list ≠ [] → ∀ column ∈ columns, column ≠ []
  lightest : ∀ others, Partition.Split list others → others.length = columns.length →
    Partition.heaviest columnWeight columns ≤ Partition.heaviest columnWeight others

/-! ### The tables -/

section

variable {list : List JsValue}

theorem getD_scanl (weights : List ℚ≥0) (start : ℚ≥0) {i : ℕ} (hi : i ≤ weights.length) :
    (weights.scanl (· + ·) start).getD i 0 = start + (weights.take i).sum := by
  induction weights generalizing start i with
  | nil =>
      obtain rfl : i = 0 := Nat.le_zero.mp hi
      simp
  | cons weight weights ih =>
      cases i with
      | zero => simp [List.scanl_cons]
      | succ i =>
          have hrest := ih (start + weight) (Nat.le_of_succ_le_succ hi)
          rw [List.scanl_cons, List.getD_cons_succ, hrest, List.take_succ_cons, List.sum_cons,
            add_assoc]

theorem between_eq {start stop : ℕ} (h : start ≤ stop) (hstop : stop ≤ list.length) :
    ((between ((list.map weightOf).scanl (· + ·) 0) start stop : ℚ≥0) : Cost) =
      columnWeight (Partition.part list start stop) := by
  have hsum : ((list.take stop).map weightOf).sum = ((list.take start).map weightOf).sum +
      ((Partition.part list start stop).map weightOf).sum := by
    rw [← List.sum_append, ← List.map_append, Partition.take_append_part list h]
  rw [between, getD_scanl _ _ (by simpa using hstop), getD_scanl _ _ (by simp; omega),
    ← List.map_take, ← List.map_take, zero_add, zero_add, hsum, add_tsub_cancel_left]
  rfl

/-- The tables hold what the recursion over splits gives. -/
theorem tableRow_getElem? (k : ℕ) {i : ℕ} (hi : i ≤ list.length) :
    (tableRow ((list.map weightOf).scanl (· + ·) 0) list.length k)[i]? =
      some (Partition.lightest columnWeight list k i) := by
  induction k generalizing i with
  | zero =>
      rw [tableRow, List.getElem?_map, List.getElem?_range (by omega), Option.map_some]
      rfl
  | succ k ih =>
      rw [tableRow, List.getElem?_map, List.getElem?_range (by omega), Option.map_some]
      by_cases hk : k + 1 ≤ i
      · rw [if_pos hk]
        refine congrArg some (List.foldl_ext _ _ _ fun state j hj => ?_)
        rw [Nat.add_sub_cancel, List.mem_range'_1] at hj
        have hprevious : ((tableRow ((list.map weightOf).scanl (· + ·) 0) list.length k).map
            Prod.fst).getD j ⊤ = (Partition.lightest columnWeight list k j).1 := by
          rw [List.getD_eq_getElem?_getD, List.getElem?_map, ih (by omega)]
          rfl
        simp only [hprevious, between_eq (show j ≤ i by omega) hi]
      · have hempty : i - k = 0 := by omega
        rw [if_neg hk, Partition.lightest, hempty]
        rfl

theorem columnsBack_eq (hlist : list ≠ []) (k : ℕ) {stop : ℕ} (hstop : stop ≤ list.length)
    (out : List (List JsValue)) :
    columnsBack list (fun k i => ((tableRow ((list.map weightOf).scanl (· + ·) 0) list.length
      k)[i]?).elim 0 Prod.snd) k stop out =
        Partition.cutBack list (fun k i => (Partition.lightest columnWeight list k i).2) k stop ++
          out := by
  induction k generalizing stop out with
  | zero => rfl
  | succ k ih =>
      have hstart := (Partition.lightest_start_le columnWeight list (k + 1) stop).trans hstop
      rw [columnsBack, if_neg hlist, tableRow_getElem? (k + 1) hstop]
      simp only [Option.elim_some]
      rw [ih hstart, Partition.cutBack, List.append_assoc]
      rfl

/-! ### The columns -/

theorem columnCount_le (count : Number) {length : ℕ} (hlength : length ≠ 0) :
    (columnCount count length : ℤ) = wantedColumns count length ∧ 1 ≤ columnCount count length ∧
      columnCount count length ≤ length := by
  unfold columnCount wantedColumns
  simp only [if_neg hlength]
  cases count with
  | fin value =>
      by_cases hzero : value.val = 0
      · simp only [hzero, if_true, Int.floor_zero]
        omega
      · simp only [if_neg hzero]
        omega
  | inf neg => cases neg <;> simp <;> omega
  | nan =>
      simp only
      omega

theorem columnWeight_lt_top (column : List JsValue) : columnWeight column < ⊤ :=
  WithTop.coe_lt_top _

/-- The columns are a lightest split of the groups in order. -/
theorem columnsFor_optimal (groups : JsValue) (count : Number) :
    Optimal (arrayOf groups) count (columnsFor groups count) := by
  unfold columnsFor
  generalize arrayOf groups = list
  by_cases hlist : list = []
  · subst hlist
    have hone : columnCount count ([] : List JsValue).length = 1 := by
      cases count with
      | fin value =>
          by_cases hzero : value.val = 0 <;> simp [columnCount, hzero]
      | inf neg => cases neg <;> rfl
      | nan => rfl
    simp only [hone]
    refine ⟨rfl, rfl, fun h => absurd rfl h, fun others hothers hlength => ?_⟩
    have hnone : others.length ≤ 0 := hothers.length_le
    change others.length = 1 at hlength
    omega
  · have hlength : list.length ≠ 0 := fun h => hlist (List.length_eq_zero_iff.mp h)
    obtain ⟨hwanted, hpositive, hle⟩ := columnCount_le count hlength
    obtain ⟨hsplit, hlightest⟩ := Partition.cutBack_optimal columnWeight_lt_top hle
      fun h => absurd h (by omega)
    rw [columnsBack_eq hlist _ le_rfl, List.append_nil]
    refine ⟨hsplit.flatten, ?_, fun _ => hsplit.nonempty, fun others hothers hsame => ?_⟩
    · rw [Partition.length_cutBack, if_neg hlist, hwanted]
    · exact hlightest others hothers (by rw [hsame, Partition.length_cutBack])

end

end Keybinds

end CybexOS
