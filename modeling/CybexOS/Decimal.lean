/-
Decimal digits of natural numbers and fixed-point texts.
-/
import CybexOS.Text
import Mathlib.Data.Nat.Digits.Defs
import Mathlib.Data.Nat.Digits.Lemmas
import Mathlib.Tactic.Ring

namespace CybexOS

/-- The decimal digits of a natural number, without leading zeros. -/
def digitsOf (n : Nat) : Text :=
  if n = 0 then [48] else (Nat.digits 10 n).reverse.map (· + 48)

/-- A possibly negative integer. -/
def integerText (z : ℤ) : Text :=
  (if z < 0 then [45] else []) ++ digitsOf z.natAbs

/-- `scaled / 10 ^ places` with exactly `places` decimals. -/
def fixedText (places : Nat) (scaled : ℤ) : Text :=
  let whole := scaled.natAbs / 10 ^ places
  let part := digitsOf (scaled.natAbs % 10 ^ places)
  (if scaled < 0 then [45] else []) ++ digitsOf whole ++ [46] ++
    List.replicate (places - part.length) 48 ++ part

/-- The number written by decimal digits. -/
def decimal (digits : Text) : Nat :=
  digits.foldl (fun n c => 10 * n + (c - 48)) 0

theorem decimal_append (a b : Text) :
    decimal (a ++ b) = decimal a * 10 ^ b.length + decimal b := by
  induction b using List.reverseRecOn with
  | nil => simp [decimal]
  | append_singleton b c ih =>
      have hsnoc : ∀ s : Text, decimal (s ++ [c]) = 10 * decimal s + (c - 48) := by
        intro s
        simp [decimal]
      rw [← List.append_assoc, hsnoc, hsnoc, ih, List.length_append,
        List.length_singleton, pow_succ]
      ring

@[simp]
theorem decimal_replicate_zero (n : Nat) :
    decimal (List.replicate n 48) = 0 := by
  induction n with
  | zero => rfl
  | succ n ih => rw [List.replicate_succ', decimal_append, ih]; rfl

theorem decimal_reverse_digits (digits : List Nat) :
    decimal (digits.reverse.map (· + 48)) = Nat.ofDigits 10 digits := by
  induction digits with
  | nil => rfl
  | cons d digits ih =>
      rw [List.reverse_cons, List.map_append, decimal_append, ih,
        Nat.ofDigits_cons]
      simp [decimal]
      ring

@[simp]
theorem decimal_digitsOf (n : Nat) : decimal (digitsOf n) = n := by
  unfold digitsOf
  split
  · next h => rw [h]; rfl
  · rw [decimal_reverse_digits, Nat.ofDigits_digits]

theorem digitsOf_ne_nil (n : Nat) : digitsOf n ≠ [] := by
  unfold digitsOf
  split
  · simp
  · next h => simpa [Nat.digits_eq_nil_iff_eq_zero] using h

theorem digitsOf_all_isDigit (n : Nat) : (digitsOf n).all isDigit = true := by
  unfold digitsOf
  split
  · rfl
  · rw [List.all_eq_true]
    intro c hc
    obtain ⟨d, hd, rfl⟩ := List.mem_map.mp hc
    have hlt := Nat.digits_lt_base (by norm_num) (List.mem_reverse.mp hd)
    simp only [isDigit, Bool.and_eq_true, decide_eq_true_eq]
    omega

/-- Only zero itself is written with a leading zero. -/
theorem digitsOf_head_ne_zero {n : Nat} (hn : n ≠ 0) :
    (digitsOf n).head? ≠ some 48 := by
  rw [digitsOf, if_neg hn, List.head?_map, List.head?_reverse]
  intro h
  obtain ⟨d, hd, hzero⟩ := Option.map_eq_some_iff.mp h
  have hne : Nat.digits 10 n ≠ [] := Nat.digits_ne_nil_iff_ne_zero.mpr hn
  have hlast := Nat.getLast_digit_ne_zero 10 hn
  rw [List.getLast?_eq_some_getLast hne, Option.some.injEq] at hd
  omega

theorem length_digitsOf_le {n k : Nat} (hn : n < 10 ^ (k + 1)) :
    (digitsOf n).length ≤ k + 1 := by
  unfold digitsOf
  split
  · simp
  · rw [List.length_map, List.length_reverse]
    exact (Nat.digits_length_le_iff (by norm_num) n).mpr hn

end CybexOS
