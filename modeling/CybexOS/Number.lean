/-
Floating-point numbers as values.  The sign of zero is dropped: no modelled
program tells the two zeros apart, and both print as `0`.
-/
import CybexOS.Binary64
import Mathlib.Tactic.NormNum

namespace CybexOS

/-- A finite binary64 value. -/
@[ext]
structure Double where
  val : ℚ
  exact : Binary64.nearest val = val
  finite : |val| < Binary64.overflowBound

instance : DecidableEq Double := fun a b =>
  decidable_of_iff (a.val = b.val) ⟨Double.ext, fun h => h ▸ rfl⟩

/-- A binary64 number of any kind. -/
inductive Number where
  | fin (value : Double)
  | inf (neg : Bool)
  | nan
deriving DecidableEq

namespace Number

/-- Round a rational; overflow gives an infinity. -/
def ofRat (q : ℚ) : Number :=
  if h : |Binary64.nearest q| < Binary64.overflowBound then
    .fin ⟨Binary64.nearest q, Binary64.nearest_nearest q, h⟩
  else .inf (q < 0)

/-- The finite value, if the number has one. -/
def toDouble? : Number → Option Double
  | .fin value => some value
  | _ => none

end Number

theorem Binary64.lt_overflowBound_of_le {q : ℚ} (hq : |q| ≤ 2 ^ 53) :
    |q| < Binary64.overflowBound :=
  lt_of_le_of_lt hq (by
    unfold Binary64.overflowBound
    exact pow_lt_pow_right₀ (by norm_num) (by norm_num))

namespace Double

/-- The double of an integer that a 53-bit significand holds. -/
def ofInt (n : ℤ) (hn : |n| ≤ 2 ^ 53) : Double where
  val := n
  exact := Binary64.nearest_intCast hn
  finite := Binary64.lt_overflowBound_of_le (by exact_mod_cast hn)

@[simp]
theorem val_ofInt (n : ℤ) (hn : |n| ≤ 2 ^ 53) : (ofInt n hn).val = n := rfl

end Double

/-- Whatever rounds to a double is that double. -/
theorem Number.ofRat_of_nearest {q : ℚ} {d : Double}
    (hq : Binary64.nearest q = d.val) : Number.ofRat q = .fin d := by
  have h : |Binary64.nearest q| < Binary64.overflowBound := by
    rw [hq]
    exact d.finite
  rw [Number.ofRat, dif_pos h]
  congr 1
  exact Double.ext hq

theorem Number.ofRat_double (d : Double) : Number.ofRat d.val = .fin d :=
  Number.ofRat_of_nearest d.exact

end CybexOS
