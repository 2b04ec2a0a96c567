/-
`Number::toString` of ECMAScript on finite doubles: the shortest decimal that
rounds to the number, written without an exponent when its point is near.
-/
import CybexOS.Json.Print
import CybexOS.Json.Value

namespace CybexOS

namespace Json

/-! ### The shortest decimal -/

/-- `10 ^ (pointOf x - 1) ≤ |x| < 10 ^ pointOf x` -/
def pointOf (x : ℚ) : ℤ := Int.log 10 |x| + 1

/-- The value of the last of `k` significant digits. -/
def digitUnit (x : ℚ) (k : ℕ) : ℚ := 10 ^ (pointOf x - k)

def RoundsTo (x : ℚ) (k s : ℕ) : Prop :=
  Binary64.nearest (s * digitUnit x k) = |x|

instance (x : ℚ) (k s : ℕ) : Decidable (RoundsTo x k s) :=
  inferInstanceAs (Decidable (_ = _))

/-- The `k` digits that round to the number, the closer ones when both
neighbours do, and the even ones of two equally close. -/
def digitsAt (x : ℚ) (k : ℕ) : Option ℕ :=
  let low := ⌊|x| / digitUnit x k⌋.toNat
  let high := (Binary64.roundEven (|x| / digitUnit x k)).toNat
  if RoundsTo x k low ∧ RoundsTo x k (low + 1) then some high
  else if RoundsTo x k low then some low
  else if RoundsTo x k (low + 1) then some (low + 1)
  else none

/-- Digits and the exponent of the last one; a carry into one more digit is
written as a power of ten. -/
def carried (x : ℚ) (k s : ℕ) : ℕ × ℤ :=
  if s = 10 ^ k then (1, pointOf x) else (s, pointOf x - k)

/-- As few digits as possible; 17 always do. -/
def shortest (x : ℚ) : ℕ × ℤ :=
  match (List.range' 1 17).findSome? fun k => (digitsAt x k).map (carried x k) with
  | some digits => digits
  | none => (0, 0)

/-- `Number::toString`, with the sign set apart. -/
def positional (s : ℕ) (e : ℤ) (neg : Bool) : Numeral :=
  let digits := digitsOf s
  let k := digits.length
  let n := e + k
  if k ≤ n ∧ n ≤ 21 then
    ⟨neg, digits ++ List.replicate (n - k).toNat 48, [], none⟩
  else if 0 < n ∧ n ≤ 21 then
    ⟨neg, digits.take n.toNat, digits.drop n.toNat, none⟩
  else if -6 < n ∧ n ≤ 0 then
    ⟨neg, [48], List.replicate (-n).toNat 48 ++ digits, none⟩
  else
    ⟨neg, digits.take 1, digits.drop 1,
      some (some (n - 1 < 0), digitsOf (n - 1).natAbs)⟩

/-- The text of a finite number. -/
def numberNumeral (x : ℚ) : Numeral :=
  if x = 0 then ⟨false, [48], [], none⟩
  else positional (shortest x).1 (shortest x).2 (x < 0)

/-! ### The shortest decimal rounds to the number -/

theorem roundEven_eq_floor_or (y : ℚ) :
    Binary64.roundEven y = ⌊y⌋ ∨ Binary64.roundEven y = ⌊y⌋ + 1 := by
  unfold Binary64.roundEven
  split_ifs <;> simp

theorem zpow_pointOf_le {x : ℚ} (hx : x ≠ 0) :
    (10 : ℚ) ^ (pointOf x - 1) ≤ |x| := by
  have h := Int.zpow_log_le_self (b := 10) (by norm_num) (abs_pos.mpr hx)
  rw [pointOf, add_sub_cancel_right]
  exact_mod_cast h

/-- Seventeen digits determine a double. -/
theorem roundsTo_seventeen {x : ℚ} (hx : x ≠ 0)
    (hexact : Binary64.nearest x = x) :
    RoundsTo x 17 (Binary64.roundEven (|x| / digitUnit x 17)).toNat := by
  have hunit : 0 < digitUnit x 17 := zpow_pos (by norm_num) _
  have hsize := zpow_pointOf_le hx
  have habs : Binary64.nearest |x| = |x| := by
    rcases abs_choice x with h | h <;> rw [h]
    · exact hexact
    · rw [Binary64.nearest_neg, hexact]
  have herr := Binary64.abs_roundEven_sub_le (|x| / digitUnit x 17)
  have hnonneg : 0 ≤ Binary64.roundEven (|x| / digitUnit x 17) := by
    have hfloor : 0 ≤ ⌊|x| / digitUnit x 17⌋ := Int.floor_nonneg.mpr (by positivity)
    rcases roundEven_eq_floor_or (|x| / digitUnit x 17) with h | h <;> omega
  have hcast : (((Binary64.roundEven (|x| / digitUnit x 17)).toNat : ℕ) : ℚ) =
      Binary64.roundEven (|x| / digitUnit x 17) := by
    exact_mod_cast Int.toNat_of_nonneg hnonneg
  rw [RoundsTo, hcast]
  have hscaled : digitUnit x 17 * 10 ^ 16 ≤ |x| := by
    refine le_trans (le_of_eq ?_) hsize
    rw [digitUnit, ← zpow_natCast, ← zpow_add₀ (by norm_num)]
    congr 1
    push_cast
    ring
  refine Binary64.nearest_eq_of_abs_lt habs (abs_ne_zero.mpr hx) ?_
  have hdiff : (Binary64.roundEven (|x| / digitUnit x 17) : ℚ) * digitUnit x 17 -
      |x| = (Binary64.roundEven (|x| / digitUnit x 17) - |x| / digitUnit x 17) *
        digitUnit x 17 := by
    rw [sub_mul, div_mul_cancel₀ _ hunit.ne']
  rw [hdiff, abs_mul, abs_of_pos hunit, abs_abs]
  calc |(Binary64.roundEven (|x| / digitUnit x 17) : ℚ) - |x| / digitUnit x 17| *
        digitUnit x 17
      ≤ 1 / 2 * digitUnit x 17 := by gcongr
    _ < digitUnit x 17 * 10 ^ 16 / 2 ^ 54 := by linarith
    _ ≤ |x| / 2 ^ 54 := by gcongr

theorem digitsAt_roundsTo {x : ℚ} {k s : ℕ} (h : digitsAt x k = some s) :
    RoundsTo x k s := by
  unfold digitsAt at h
  dsimp only at h
  split_ifs at h with hboth hlow hhigh
  · simp only [Option.some.injEq] at h
    have hfloor : 0 ≤ ⌊|x| / digitUnit x k⌋ :=
      Int.floor_nonneg.mpr (div_nonneg (abs_nonneg x) (zpow_nonneg (by norm_num) _))
    rcases roundEven_eq_floor_or (|x| / digitUnit x k) with heq | heq
    · rw [← h, heq]
      exact hboth.1
    · rw [← h, heq, Int.toNat_add hfloor (by norm_num)]
      exact hboth.2
  · rw [← Option.some.inj h]
    exact hlow
  · rw [← Option.some.inj h]
    exact hhigh

theorem digitsAt_seventeen {x : ℚ} (hx : x ≠ 0)
    (hexact : Binary64.nearest x = x) : digitsAt x 17 ≠ none := by
  have hround := roundsTo_seventeen hx hexact
  have hfloor : 0 ≤ ⌊|x| / digitUnit x 17⌋ :=
    Int.floor_nonneg.mpr (div_nonneg (abs_nonneg x) (zpow_nonneg (by norm_num) _))
  have hone : RoundsTo x 17 ⌊|x| / digitUnit x 17⌋.toNat ∨
      RoundsTo x 17 (⌊|x| / digitUnit x 17⌋.toNat + 1) := by
    rcases roundEven_eq_floor_or (|x| / digitUnit x 17) with heq | heq
    · left
      rwa [heq] at hround
    · right
      rwa [heq, Int.toNat_add hfloor (by norm_num)] at hround
  unfold digitsAt
  dsimp only
  split_ifs <;> simp_all

theorem carried_value (x : ℚ) (k s : ℕ) :
    ((carried x k s).1 : ℚ) * 10 ^ (carried x k s).2 = s * digitUnit x k := by
  unfold carried digitUnit
  split
  · next h =>
    rw [h]
    push_cast
    rw [one_mul, ← zpow_natCast, ← zpow_add₀ (by norm_num)]
    congr 1
    ring
  · rfl

/-- The printed digits are not zero and round to the number. -/
theorem shortest_spec {x : ℚ} (hx : x ≠ 0) (hexact : Binary64.nearest x = x) :
    (shortest x).1 ≠ 0 ∧
      Binary64.nearest ((shortest x).1 * 10 ^ (shortest x).2) = |x| := by
  have hfound : ∃ k s, shortest x = carried x k s ∧ RoundsTo x k s := by
    unfold shortest
    split
    · next digits hsome =>
      obtain ⟨k, -, hk⟩ := List.exists_of_findSome?_eq_some hsome
      obtain ⟨s, hs, rfl⟩ := Option.map_eq_some_iff.mp hk
      exact ⟨k, s, rfl, digitsAt_roundsTo hs⟩
    · next hnone =>
      have h := List.findSome?_eq_none_iff.mp hnone 17 (by simp)
      exact absurd (Option.map_eq_none_iff.mp h) (digitsAt_seventeen hx hexact)
  obtain ⟨k, s, heq, hround⟩ := hfound
  rw [RoundsTo, ← carried_value, ← heq] at hround
  refine ⟨fun hzero => ?_, hround⟩
  rw [hzero, Nat.cast_zero, zero_mul, Binary64.nearest_zero] at hround
  exact hx (abs_eq_zero.mp hround.symm)

/-! ### The written numeral -/

def signFactor (neg : Bool) : ℚ := if neg then -1 else 1

theorem value_plain (neg : Bool) (whole frac : Text) :
    (⟨neg, whole, frac, none⟩ : Numeral).value = signFactor neg *
      (decimal (whole ++ frac) * 10 ^ (-(frac.length : ℤ))) := by
  cases neg <;> simp [Numeral.value, signFactor]

theorem value_exp (neg : Bool) (whole frac digits : Text) (minus : Bool) :
    (⟨neg, whole, frac, some (some minus, digits)⟩ : Numeral).value =
      signFactor neg * (decimal (whole ++ frac) *
        10 ^ ((if minus then -(decimal digits : ℤ) else decimal digits) -
          frac.length)) := by
  cases neg <;> cases minus <;> simp [Numeral.value, signFactor]

/-! The value of each way to write the digits of `s`. -/

theorem value_zeros (neg : Bool) (s zeros : ℕ) :
    (⟨neg, digitsOf s ++ List.replicate zeros 48, [], none⟩ : Numeral).value =
      signFactor neg * (s * 10 ^ (zeros : ℤ)) := by
  rw [value_plain, List.append_nil, decimal_append, decimal_digitsOf,
    decimal_replicate_zero, List.length_replicate, List.length_nil]
  push_cast
  simp

theorem value_point (neg : Bool) (s n : ℕ) :
    (⟨neg, (digitsOf s).take n, (digitsOf s).drop n, none⟩ : Numeral).value =
      signFactor neg * (s * 10 ^ (-((digitsOf s).length - n : ℕ) : ℤ)) := by
  rw [value_plain, List.take_append_drop, decimal_digitsOf, List.length_drop]

theorem value_small (neg : Bool) (s zeros : ℕ) :
    (⟨neg, [48], List.replicate zeros 48 ++ digitsOf s, none⟩ : Numeral).value =
      signFactor neg * (s * 10 ^ (-(zeros + (digitsOf s).length : ℤ))) := by
  have hlead : decimal ([48] ++ (List.replicate zeros 48 ++ digitsOf s)) = s := by
    rw [← List.append_assoc, decimal_append, decimal_append,
      decimal_replicate_zero, decimal_digitsOf]
    simp [decimal]
  rw [value_plain, hlead, List.length_append, List.length_replicate]
  push_cast
  rfl

theorem value_scientific (neg : Bool) (s zeros : ℕ) (e : ℤ) :
    (⟨neg, (digitsOf s).take 1, (digitsOf s).drop 1, some (some (e < 0),
        List.replicate zeros 48 ++ digitsOf e.natAbs)⟩ : Numeral).value =
      signFactor neg * (s * 10 ^ (e - ((digitsOf s).length - 1 : ℕ))) := by
  rw [value_exp, List.take_append_drop, decimal_digitsOf, List.length_drop,
    decimal_append, decimal_replicate_zero, decimal_digitsOf, zero_mul, zero_add]
  congr 3
  simp only [decide_eq_true_eq]
  split_ifs <;> omega

theorem positional_value (s : ℕ) (e : ℤ) (neg : Bool) :
    (positional s e neg).value = signFactor neg * (s * 10 ^ e) := by
  have hpos := List.length_pos_of_ne_nil (digitsOf_ne_nil s)
  unfold positional
  dsimp only
  split_ifs with hwhole hpoint hsmall
  · rw [value_zeros]
    congr 3
    omega
  · rw [value_point]
    congr 3
    omega
  · rw [value_small]
    congr 3
    omega
  · have h := value_scientific neg s 0 (e + (digitsOf s).length - 1)
    rw [List.replicate_zero, List.nil_append] at h
    rw [h]
    congr 3
    omega

/-- The digits of a positive number begin with no zero, so a part of them is
as good before the point. -/
theorem wellFormed_digits {s : ℕ} (hs : s ≠ 0) {whole frac : Text}
    {exp : Option (Option Bool × Text)} {neg : Bool} {count : ℕ}
    (hwhole : whole = (digitsOf s).take count ∨
      ∃ zeros, whole = digitsOf s ++ List.replicate zeros 48)
    (hcount : 0 < count) (hfrac : frac.all isDigit = true)
    (hexp : ∀ e ∈ exp, e.2 ≠ [] ∧ e.2.all isDigit = true) :
    (⟨neg, whole, frac, exp⟩ : Numeral).WellFormed := by
  have hne := digitsOf_ne_nil s
  have hall := List.all_eq_true.mp (digitsOf_all_isDigit s)
  have hhead : whole.head? = (digitsOf s).head? := by
    obtain ⟨c, tail, hcons⟩ := List.exists_cons_of_ne_nil hne
    obtain ⟨count, rfl⟩ : ∃ n, count = n + 1 := ⟨count - 1, by omega⟩
    rcases hwhole with rfl | ⟨zeros, rfl⟩ <;> rw [hcons] <;> rfl
  refine ⟨?_, ?_, fun _ => ?_, hfrac, hexp⟩
  · rw [List.all_eq_true]
    intro c hc
    rcases hwhole with rfl | ⟨zeros, rfl⟩
    · exact hall c (List.mem_of_mem_take hc)
    · rcases List.mem_append.mp hc with hc | hc
      · exact hall c hc
      · rw [List.eq_of_mem_replicate hc]
        rfl
  · rintro rfl
    rw [List.head?_nil, eq_comm, List.head?_eq_none_iff] at hhead
    exact hne hhead
  · rw [hhead]
    exact digitsOf_head_ne_zero hs

theorem positional_wellFormed {s : ℕ} (hs : s ≠ 0) (e : ℤ) (neg : Bool) :
    (positional s e neg).WellFormed := by
  have hdigits := digitsOf_all_isDigit s
  have hpart : ∀ n, ((digitsOf s).drop n).all isDigit = true := fun n =>
    List.all_eq_true.mpr fun c hc =>
      List.all_eq_true.mp hdigits c (List.mem_of_mem_drop hc)
  unfold positional
  dsimp only
  split_ifs with hwhole hpoint hsmall
  · exact wellFormed_digits hs (Or.inr ⟨_, rfl⟩) Nat.one_pos rfl (by simp)
  · exact wellFormed_digits hs (Or.inl rfl) (by omega) (hpart _) (by simp)
  · refine ⟨rfl, by simp, by simp, ?_, by simp⟩
    rw [List.all_append, hdigits, Bool.and_true, List.all_eq_true]
    intro c hc
    rw [List.eq_of_mem_replicate hc]
    rfl
  · refine wellFormed_digits hs (Or.inl rfl) Nat.one_pos (hpart 1) ?_
    intro exp hexp
    rw [Option.mem_def, Option.some.injEq] at hexp
    subst hexp
    exact ⟨digitsOf_ne_nil _, digitsOf_all_isDigit _⟩

theorem numberNumeral_wellFormed {x : ℚ} (hexact : Binary64.nearest x = x) :
    (numberNumeral x).WellFormed := by
  unfold numberNumeral
  split
  · exact ⟨rfl, by simp, by simp, rfl, by simp⟩
  · next hx => exact positional_wellFormed (shortest_spec hx hexact).1 _ _

/-- A number written by `Number::toString` is read back exactly. -/
theorem numberNumeral_nearest {x : ℚ} (hexact : Binary64.nearest x = x) :
    Binary64.nearest (numberNumeral x).value = x := by
  unfold numberNumeral
  split
  · next hx =>
    rw [hx, value_plain]
    simp [decimal]
  · next hx =>
    have hround := (shortest_spec hx hexact).2
    rw [positional_value]
    rcases lt_or_ge x 0 with hneg | hpos
    · rw [abs_of_neg hneg] at hround
      simp only [signFactor, hneg, decide_true, if_true, neg_mul, one_mul]
      rw [Binary64.nearest_neg, hround, neg_neg]
    · rw [abs_of_nonneg hpos] at hround
      simpa [signFactor, not_lt.mpr hpos] using hround

end Json

end CybexOS
