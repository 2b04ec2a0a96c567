/-
IEEE 754 binary64 rounding, stated on exact rationals.  JavaScript and Lua
numbers and Python floats are the finite results of `nearest`; every bound the
modelled programs rely on comes from the half-ulp error lemma below.
-/
import Mathlib.Data.Int.Log
import Mathlib.Data.Rat.Floor
import Mathlib.Tactic.Linarith
import Mathlib.Tactic.Positivity
import Mathlib.Tactic.Ring
import Mathlib.Tactic.NormNum
import Mathlib.Tactic.FieldSimp

namespace CybexOS

namespace Binary64

/-- Round to an integer, ties to even. -/
def roundEven (y : ℚ) : ℤ :=
  if y - ⌊y⌋ < 1 / 2 then ⌊y⌋
  else if 1 / 2 < y - ⌊y⌋ then ⌊y⌋ + 1
  else if ⌊y⌋ % 2 = 0 then ⌊y⌋ else ⌊y⌋ + 1

/-- Exponent of the last significand bit that a number of this size keeps. -/
def ulpExp (x : ℚ) : ℤ := max (Int.log 2 |x| - 52) (-1074)

/-- The value rounded to a 53-bit significand, before the overflow check. -/
def nearest (x : ℚ) : ℚ := roundEven (x / 2 ^ ulpExp x) * 2 ^ ulpExp x

/-- Magnitudes from here on overflow to infinity. -/
def overflowBound : ℚ := 2 ^ 1024

theorem abs_roundEven_sub_le (y : ℚ) : |(roundEven y : ℚ) - y| ≤ 1 / 2 := by
  have hlow := Int.floor_le y
  have hhigh := Int.lt_floor_add_one y
  unfold roundEven
  split_ifs <;> rw [abs_le] <;> push_cast <;> constructor <;> linarith

theorem roundEven_eq_of_abs_lt {y : ℚ} {z : ℤ} (h : |(z : ℚ) - y| < 1 / 2) :
    roundEven y = z := by
  have herr := abs_roundEven_sub_le y
  have hlt : |((roundEven y - z : ℤ) : ℚ)| < 1 := by
    push_cast
    rw [abs_lt] at h ⊢
    rw [abs_le] at herr
    constructor <;> linarith [h.1, h.2, herr.1, herr.2]
  have hzero : |roundEven y - z| < 1 := by exact_mod_cast hlt
  have := Int.abs_lt_one_iff.mp hzero
  omega

@[simp]
theorem roundEven_intCast (z : ℤ) : roundEven z = z :=
  roundEven_eq_of_abs_lt (by norm_num)

/-- Rounding to an integer ignores the sign, since ties go to even. -/
theorem roundEven_neg (y : ℚ) : roundEven (-y) = -roundEven y := by
  by_cases hint : y = ⌊y⌋
  · have hneg : -y = ((-⌊y⌋ : ℤ) : ℚ) := by
      push_cast
      linarith
    rw [hneg, roundEven_intCast, hint, roundEven_intCast, Int.floor_intCast]
  · have hlow := lt_of_le_of_ne (Int.floor_le y) fun h => hint h.symm
    have hfloor : ⌊-y⌋ = -⌊y⌋ - 1 := by
      rw [Int.floor_eq_iff]
      push_cast
      constructor <;> linarith [Int.lt_floor_add_one y]
    have hparity : (-⌊y⌋ - 1) % 2 = 0 ↔ ¬ ⌊y⌋ % 2 = 0 := by omega
    unfold roundEven
    rw [hfloor]
    push_cast
    split_ifs <;> first | omega | (exfalso; linarith)

theorem zpow_two_pos (e : ℤ) : (0 : ℚ) < 2 ^ e := zpow_pos (by norm_num) e

theorem neg_le_ulpExp (x : ℚ) : -1074 ≤ ulpExp x := le_max_right _ _

/-- The significand has at most 53 bits. -/
theorem abs_lt_zpow_ulpExp (x : ℚ) : |x| < 2 ^ (ulpExp x + 53) := by
  have hlog : |x| < (2 : ℕ) ^ (Int.log 2 |x| + 1) :=
    Int.lt_zpow_succ_log_self (by norm_num) |x|
  refine lt_of_lt_of_le hlog ?_
  push_cast
  apply zpow_le_zpow_right₀ (by norm_num)
  have := le_max_left (Int.log 2 |x| - 52) (-1074)
  unfold ulpExp
  omega

/-- Outside the subnormal range the significand is full. -/
theorem zpow_ulpExp_le_abs {x : ℚ} (hx : x ≠ 0) (he : ulpExp x ≠ -1074) :
    2 ^ (ulpExp x + 52) ≤ |x| := by
  have hlog : ((2 : ℕ) : ℚ) ^ Int.log 2 |x| ≤ |x| :=
    Int.zpow_log_le_self (by norm_num) (abs_pos.mpr hx)
  have heq : ulpExp x + 52 = Int.log 2 |x| := by
    unfold ulpExp at he ⊢
    omega
  rw [heq]
  exact_mod_cast hlog

/-- The exponent is the least one whose significand fits. -/
theorem ulpExp_le {x : ℚ} {e : ℤ} (hx : x ≠ 0) (he : -1074 ≤ e)
    (hfits : |x| < 2 ^ (e + 53)) : ulpExp x ≤ e := by
  by_contra hlt
  have hfull := zpow_ulpExp_le_abs hx (by omega)
  have hmono : (2 : ℚ) ^ (e + 53) ≤ 2 ^ (ulpExp x + 52) :=
    zpow_le_zpow_right₀ (by norm_num) (by omega)
  linarith

@[simp]
theorem nearest_zero : nearest 0 = 0 := by
  have h : roundEven 0 = 0 := roundEven_intCast 0
  simp [nearest, h]

/-- Rounding moves a number by at most half a unit in the last place. -/
theorem abs_nearest_sub_le (x : ℚ) :
    |nearest x - x| ≤ 2 ^ ulpExp x / 2 := by
  have hpos := zpow_two_pos (ulpExp x)
  have herr := abs_roundEven_sub_le (x / 2 ^ ulpExp x)
  have hscale : nearest x - x =
      (roundEven (x / 2 ^ ulpExp x) - x / 2 ^ ulpExp x) * 2 ^ ulpExp x := by
    rw [nearest, sub_mul, div_mul_cancel₀ _ hpos.ne']
  rw [hscale, abs_mul, abs_of_pos hpos]
  calc |(roundEven (x / 2 ^ ulpExp x) : ℚ) - x / 2 ^ ulpExp x| * 2 ^ ulpExp x
      ≤ 1 / 2 * 2 ^ ulpExp x := by gcongr
    _ = 2 ^ ulpExp x / 2 := by ring

/-- In the normal range the relative error is at most `2 ^ (-53)`. -/
theorem abs_nearest_sub_le_mul {x : ℚ} (hx : 2 ^ (-1022 : ℤ) ≤ |x|) :
    |nearest x - x| ≤ |x| * 2 ^ (-53 : ℤ) := by
  have hzero : x ≠ 0 := by
    rintro rfl
    simp only [abs_zero] at hx
    linarith [zpow_two_pos (-1022)]
  have hfull : 2 ^ (ulpExp x + 52) ≤ |x| := by
    by_cases hsub : ulpExp x = -1074
    · rw [hsub]
      exact hx
    · exact zpow_ulpExp_le_abs hzero hsub
  calc |nearest x - x| ≤ 2 ^ ulpExp x / 2 := abs_nearest_sub_le x
    _ = 2 ^ (ulpExp x + 52) * 2 ^ (-53 : ℤ) := by
      rw [← zpow_add₀ (by norm_num), div_eq_mul_inv, ← zpow_neg_one,
        ← zpow_add₀ (by norm_num)]
      congr 1
      ring
    _ ≤ |x| * 2 ^ (-53 : ℤ) := by gcongr

@[simp]
theorem nearest_neg (x : ℚ) : nearest (-x) = -nearest x := by
  have hexp : ulpExp (-x) = ulpExp x := by rw [ulpExp, abs_neg, ← ulpExp]
  rw [nearest, hexp, neg_div, roundEven_neg, Int.cast_neg, neg_mul, ← nearest]

/-- Integer multiples of a unit at least the kept one are exact. -/
theorem nearest_intCast_mul {x : ℚ} {z e : ℤ} (hz : x = z * 2 ^ e)
    (he : ulpExp x ≤ e) : nearest x = x := by
  obtain ⟨n, hn⟩ := Int.eq_ofNat_of_zero_le (sub_nonneg.mpr he)
  have hdiv : x / 2 ^ ulpExp x = ((z * 2 ^ n : ℤ) : ℚ) := by
    rw [hz, mul_div_assoc, ← zpow_sub₀ (by norm_num), ← hz, hn]
    push_cast
    rfl
  rw [nearest, hdiv, roundEven_intCast, ← hdiv,
    div_mul_cancel₀ _ (zpow_two_pos _).ne']

/-- A 53-bit significand in exponent range is exact. -/
theorem nearest_of_significand {x : ℚ} {z e : ℤ} (hz : x = z * 2 ^ e)
    (he : -1074 ≤ e) (hbits : |z| ≤ 2 ^ 53) : nearest x = x := by
  by_cases hx : x = 0
  · rw [hx, nearest_zero]
  have habs : |x| = |(z : ℚ)| * 2 ^ e := by
    rw [hz, abs_mul, abs_of_pos (zpow_two_pos e)]
  by_cases hlt : |z| < 2 ^ 53
  · have hzlt : |(z : ℚ)| < 2 ^ (53 : ℤ) := by exact_mod_cast hlt
    refine nearest_intCast_mul hz (ulpExp_le hx he ?_)
    rw [habs, add_comm, zpow_add₀ (by norm_num)]
    exact mul_lt_mul_of_pos_right hzlt (zpow_two_pos e)
  -- the boundary significand is half as long one exponent up
  · have hzeq : |z| = 2 ^ 53 := by omega
    have hhalf : x = ((z / 2 : ℤ) : ℚ) * 2 ^ (e + 1) := by
      have heven : z = 2 * (z / 2) := by
        rcases (abs_eq (by norm_num)).mp hzeq with h | h <;> omega
      have hcast : (z : ℚ) = 2 * ((z / 2 : ℤ) : ℚ) := by exact_mod_cast heven
      rw [hz, hcast, zpow_add₀ (by norm_num)]
      ring
    refine nearest_intCast_mul hhalf (ulpExp_le hx (by omega) ?_)
    have hzq : |(z : ℚ)| = 2 ^ (53 : ℤ) := by exact_mod_cast hzeq
    rw [habs, hzq, ← zpow_add₀ (by norm_num)]
    exact zpow_lt_zpow_right₀ (by norm_num) (by omega)

theorem abs_roundEven_scaled_le (x : ℚ) :
    |roundEven (x / 2 ^ ulpExp x)| ≤ 2 ^ 53 := by
  have hpos := zpow_two_pos (ulpExp x)
  have hlt : |x / 2 ^ ulpExp x| < 2 ^ 53 := by
    rw [abs_div, abs_of_pos hpos, div_lt_iff₀ hpos]
    have h := abs_lt_zpow_ulpExp x
    rw [add_comm, zpow_add₀ (by norm_num)] at h
    exact_mod_cast h
  have herr := abs_roundEven_sub_le (x / 2 ^ ulpExp x)
  have hround : |(roundEven (x / 2 ^ ulpExp x) : ℚ)| < 2 ^ 53 + 1 := by
    rw [abs_le] at herr
    rw [abs_lt] at hlt ⊢
    constructor <;> linarith [herr.1, herr.2, hlt.1, hlt.2]
  have : |roundEven (x / 2 ^ ulpExp x)| < 2 ^ 53 + 1 := by exact_mod_cast hround
  omega

/-- Rounding is idempotent. -/
@[simp]
theorem nearest_nearest (x : ℚ) : nearest (nearest x) = nearest x :=
  nearest_of_significand rfl (neg_le_ulpExp x) (abs_roundEven_scaled_le x)

theorem nearest_intCast {n : ℤ} (hn : |n| ≤ 2 ^ 53) : nearest n = n :=
  nearest_of_significand (e := 0) (by simp) (by omega) hn

theorem nearest_natCast {n : ℕ} (hn : n ≤ 2 ^ 53) : nearest n = n := by
  have := nearest_intCast (n := (n : ℤ)) (by rw [abs_of_nonneg] <;> omega)
  exact_mod_cast this

/-- A multiple of the kept unit within half of it is the rounded value. -/
theorem nearest_eq_of_abs_lt_half {v x : ℚ} {z : ℤ}
    (hz : v = z * 2 ^ ulpExp x) (hclose : |x - v| < 2 ^ ulpExp x / 2) :
    nearest x = v := by
  have hpos := zpow_two_pos (ulpExp x)
  have hround : roundEven (x / 2 ^ ulpExp x) = z := by
    apply roundEven_eq_of_abs_lt
    have hscale : (z : ℚ) - x / 2 ^ ulpExp x = -((x - v) / 2 ^ ulpExp x) := by
      rw [hz]
      field_simp
      ring
    rw [hscale, abs_neg, abs_div, abs_of_pos hpos, div_lt_iff₀ hpos]
    linarith
  rw [nearest, hround, hz]

/-- A value within a relative distance of `2 ^ (-54)` of a representable one
rounds to it; at a power of two the neighbour below is that close. -/
theorem nearest_eq_of_abs_lt {v x : ℚ} (hv : nearest v = v) (hzero : v ≠ 0)
    (hclose : |x - v| < |v| / 2 ^ 54) : nearest x = v := by
  set e := ulpExp v with he
  have hpos := zpow_two_pos e
  obtain ⟨z, hz⟩ : ∃ z : ℤ, v = z * 2 ^ e := ⟨_, hv.symm⟩
  have habs : |v| = |(z : ℚ)| * 2 ^ e := by
    rw [hz, abs_mul, abs_of_pos hpos]
  have hfits : |v| < 2 ^ 53 * 2 ^ e := by
    have h := abs_lt_zpow_ulpExp v
    rw [← he, add_comm, zpow_add₀ (by norm_num)] at h
    exact_mod_cast h
  have hzpos : 1 ≤ |(z : ℚ)| := by
    have hne : z ≠ 0 := by
      rintro rfl
      exact hzero (by rw [hz]; simp)
    exact_mod_cast Int.one_le_abs hne
  have hztop : |(z : ℚ)| ≤ 2 ^ 53 - 1 := by
    rw [habs] at hfits
    have hlt : |z| < 2 ^ 53 := by
      exact_mod_cast lt_of_mul_lt_mul_right hfits hpos.le
    have hle : |z| ≤ 2 ^ 53 - 1 := by omega
    exact_mod_cast hle
  have hsmall : |x - v| < 2 ^ e / 2 := by
    refine lt_trans hclose ?_
    rw [div_lt_iff₀ (by norm_num)]
    linarith
  have hdiff : |(|x| - |v|)| < 2 ^ e / 2 :=
    lt_of_le_of_lt (abs_abs_sub_abs_le x v) hsmall
  rw [abs_lt] at hdiff
  have hlow : 2 ^ e ≤ |v| := by
    rw [habs]
    exact le_mul_of_one_le_left hpos.le hzpos
  have hhigh : |v| ≤ (2 ^ 53 - 1) * 2 ^ e := by
    rw [habs]
    exact mul_le_mul_of_nonneg_right hztop hpos.le
  have hx : x ≠ 0 := by
    rintro rfl
    simp only [abs_zero] at hdiff
    linarith [hdiff.1]
  have hupper : ulpExp x ≤ e := by
    apply ulpExp_le hx (neg_le_ulpExp v)
    rw [add_comm, zpow_add₀ (by norm_num)]
    have : |x| < 2 ^ 53 * 2 ^ e := by linarith [hdiff.2]
    exact_mod_cast this
  have hlower : e ≤ ulpExp x + 1 := by
    by_cases hsub : e = -1074
    · have := neg_le_ulpExp x
      omega
    · have hfull : 2 ^ (e + 52) ≤ |v| := zpow_ulpExp_le_abs hzero hsub
      have hsplit : (2 : ℚ) ^ (e + 52) = 2 ^ e * 2 ^ 52 := by
        rw [zpow_add₀ (by norm_num)]
        norm_cast
      have hhalf : (2 : ℚ) ^ (e + 51) = 2 ^ e * 2 ^ 51 := by
        rw [zpow_add₀ (by norm_num)]
        norm_cast
      have hbelow : (2 : ℚ) ^ (e + 51) < 2 ^ (ulpExp x + 53) := by
        refine lt_of_le_of_lt ?_ (abs_lt_zpow_ulpExp x)
        linarith [hdiff.1]
      have := (zpow_lt_zpow_iff_right₀ (by norm_num : (1 : ℚ) < 2)).mp hbelow
      omega
  rcases (by omega : ulpExp x = e ∨ ulpExp x = e - 1) with hexp | hexp
  · apply nearest_eq_of_abs_lt_half (z := z) (by rw [hexp]; exact hz)
    rw [hexp]
    linarith
  · have hunit : (2 : ℚ) ^ e = 2 * 2 ^ (e - 1) := by
      rw [zpow_sub_one₀ (by norm_num)]
      ring
    -- below the binade of `v` only when `v` is the power of two itself
    have hzpower : |(z : ℚ)| ≤ 2 ^ 52 := by
      have hxlt : |x| < 2 ^ 52 * 2 ^ e := by
        have h := abs_lt_zpow_ulpExp x
        rw [hexp, (by ring : e - 1 + 53 = 52 + e), zpow_add₀ (by norm_num)] at h
        exact_mod_cast h
      have hlt : |(z : ℚ)| * 2 ^ e < (2 ^ 52 + 1) * 2 ^ e := by
        rw [← habs]
        linarith [hdiff.1]
      have hint : |z| < 2 ^ 52 + 1 := by
        exact_mod_cast lt_of_mul_lt_mul_right hlt hpos.le
      have hle : |z| ≤ 2 ^ 52 := by omega
      exact_mod_cast hle
    apply nearest_eq_of_abs_lt_half (z := 2 * z)
    · rw [hexp, hz, hunit]
      push_cast
      ring
    · rw [hexp]
      have hv52 : |v| ≤ 2 ^ 52 * 2 ^ e := by
        rw [habs]
        exact mul_le_mul_of_nonneg_right hzpower hpos.le
      rw [lt_div_iff₀ (by norm_num)] at hclose
      linarith

end Binary64

end CybexOS
