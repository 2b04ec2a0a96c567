/-
UTF-8 (RFC 3629) between code points and bytes, strict in both directions.
-/
import CybexOS.Text

namespace CybexOS

namespace Utf8

/-- A code point that is no surrogate. -/
def isScalar (c : Nat) : Bool := c < 0xd800 || (0xe000 ≤ c && c < 0x110000)

def encodeChar (c : Nat) : Text :=
  if c < 0x80 then [c]
  else if c < 0x800 then [0xc0 + c / 64, 0x80 + c % 64]
  else if c < 0x10000 then
    [0xe0 + c / 4096, 0x80 + c / 64 % 64, 0x80 + c % 64]
  else
    [0xf0 + c / 262144, 0x80 + c / 4096 % 64, 0x80 + c / 64 % 64, 0x80 + c % 64]

/-- The bytes of a text; a surrogate has none. -/
def encode (s : Text) : Option Text :=
  if s.all isScalar then some (s.flatMap encodeChar) else none

/-- Texts of ASCII are their own bytes. -/
theorem encode_ascii {s : Text} (h : ∀ c ∈ s, c < 128) : encode s = some s := by
  have hscalar : s.all isScalar = true := by
    rw [List.all_eq_true]
    intro c hc
    have hlt := h c hc
    simp only [isScalar, Bool.or_eq_true, Bool.and_eq_true, decide_eq_true_eq]
    omega
  have hchars : s.flatMap encodeChar = s.flatMap fun c => [c] :=
    List.flatMap_congr fun c hc => if_pos (h c hc)
  rw [encode, if_pos hscalar, hchars, List.flatMap_singleton']

def isTail (b : Nat) : Bool := 0x80 ≤ b && b ≤ 0xbf

/-- Two, three and four byte characters: the code point and its further bytes. -/
def char2 (a : Nat) : Text → Option (Nat × Nat)
  | b :: _ => if isTail b then some ((a - 0xc0) * 64 + (b - 0x80), 1) else none
  | _ => none

def char3 (a : Nat) : Text → Option (Nat × Nat)
  | b :: c :: _ =>
      let code := (a - 0xe0) * 4096 + (b - 0x80) * 64 + (c - 0x80)
      if isTail b && isTail c && 0x800 ≤ code && isScalar code then some (code, 2)
      else none
  | _ => none

def char4 (a : Nat) : Text → Option (Nat × Nat)
  | b :: c :: d :: _ =>
      let code := (a - 0xf0) * 262144 + (b - 0x80) * 4096 + (c - 0x80) * 64 +
        (d - 0x80)
      if isTail b && isTail c && isTail d && 0x10000 ≤ code && isScalar code then
        some (code, 3)
      else none
  | _ => none

/-- The first character and how many bytes follow its first one. -/
def firstChar : Text → Option (Nat × Nat)
  | [] => none
  | a :: rest =>
      if a < 0x80 then some (a, 0)
      else if 0xc2 ≤ a ∧ a ≤ 0xdf then char2 a rest
      else if 0xe0 ≤ a ∧ a ≤ 0xef then char3 a rest
      else if 0xf0 ≤ a ∧ a ≤ 0xf4 then char4 a rest
      else none

/-- Decode after skipping the bytes of the last character. -/
def decodeFrom : Nat → Text → Option Text
  | _, [] => some []
  | skip + 1, _ :: rest => decodeFrom skip rest
  | 0, a :: rest =>
      (firstChar (a :: rest)).bind fun r =>
        (decodeFrom r.2 rest).map fun s => r.1 :: s

/-- The code points of a valid byte sequence. -/
def decode (bytes : Text) : Option Text := decodeFrom 0 bytes

theorem isScalar_iff {c : Nat} :
    isScalar c = true ↔ c < 0xd800 ∨ (0xe000 ≤ c ∧ c < 0x110000) := by
  simp [isScalar]

theorem isTail_iff {b : Nat} : isTail b = true ↔ 0x80 ≤ b ∧ b ≤ 0xbf := by
  simp [isTail]

theorem firstChar_encodeChar {c : Nat} (hc : isScalar c = true) (rest : Text) :
    firstChar (encodeChar c ++ rest) = some (c, (encodeChar c).length - 1) := by
  rw [isScalar_iff] at hc
  unfold encodeChar
  split_ifs with h1 h2 h3
  · simp [firstChar, h1]
  · have hcode : (0xc0 + c / 64 - 0xc0) * 64 + (0x80 + c % 64 - 0x80) = c := by omega
    have htail : isTail (0x80 + c % 64) = true := isTail_iff.mpr (by omega)
    simp only [List.cons_append, List.nil_append, firstChar]
    rw [if_neg (by omega), if_pos (by omega), char2, if_pos htail, hcode]
    rfl
  · have hcode : (0xe0 + c / 4096 - 0xe0) * 4096 + (0x80 + c / 64 % 64 - 0x80) * 64 +
        (0x80 + c % 64 - 0x80) = c := by omega
    have hb : isTail (0x80 + c / 64 % 64) = true := isTail_iff.mpr (by omega)
    have hc' : isTail (0x80 + c % 64) = true := isTail_iff.mpr (by omega)
    have hscalar : isScalar c = true := isScalar_iff.mpr hc
    simp only [List.cons_append, List.nil_append, firstChar]
    rw [if_neg (by omega), if_neg (by omega), if_pos (by omega), char3]
    simp only [hcode, hb, hc', hscalar, Bool.and_true, Bool.true_and,
      decide_eq_true_eq]
    rw [if_pos (by omega)]
    rfl
  · have hcode : (0xf0 + c / 262144 - 0xf0) * 262144 +
        (0x80 + c / 4096 % 64 - 0x80) * 4096 + (0x80 + c / 64 % 64 - 0x80) * 64 +
        (0x80 + c % 64 - 0x80) = c := by omega
    have hb : isTail (0x80 + c / 4096 % 64) = true := isTail_iff.mpr (by omega)
    have hc' : isTail (0x80 + c / 64 % 64) = true := isTail_iff.mpr (by omega)
    have hd : isTail (0x80 + c % 64) = true := isTail_iff.mpr (by omega)
    have hscalar : isScalar c = true := isScalar_iff.mpr hc
    simp only [List.cons_append, List.nil_append, firstChar]
    rw [if_neg (by omega), if_neg (by omega), if_neg (by omega),
      if_pos (by omega), char4]
    simp only [hcode, hb, hc', hd, hscalar, Bool.and_true, Bool.true_and,
      decide_eq_true_eq]
    rw [if_pos (by omega)]
    rfl

theorem encodeChar_ne_nil (c : Nat) : encodeChar c ≠ [] := by
  unfold encodeChar
  split_ifs <;> simp

theorem decodeFrom_skip (skipped rest : Text) :
    decodeFrom skipped.length (skipped ++ rest) = decodeFrom 0 rest := by
  induction skipped with
  | nil => rfl
  | cons b skipped ih => exact ih

theorem decodeFrom_encodeChar {c : Nat} (hc : isScalar c = true) (rest : Text) :
    decodeFrom 0 (encodeChar c ++ rest) =
      (decodeFrom 0 rest).map fun s => c :: s := by
  have hfirst := firstChar_encodeChar hc rest
  obtain ⟨a, tail, hcons⟩ := List.exists_cons_of_ne_nil (encodeChar_ne_nil c)
  rw [hcons, List.cons_append, List.length_cons, Nat.add_sub_cancel] at hfirst
  rw [hcons, List.cons_append, decodeFrom, hfirst, Option.bind_some,
    decodeFrom_skip]

theorem decode_flatMap {s : Text} (h : s.all isScalar = true) :
    decode (s.flatMap encodeChar) = some s := by
  induction s with
  | nil => rfl
  | cons c s ih =>
      rw [List.all_cons, Bool.and_eq_true] at h
      rw [List.flatMap_cons, decode, decodeFrom_encodeChar h.1, ← decode, ih h.2]
      rfl

/-- Encoding is undone by decoding. -/
theorem decode_encode {s bytes : Text} (h : encode s = some bytes) :
    decode bytes = some s := by
  unfold encode at h
  split at h
  · next hall =>
    rw [← Option.some.inj h]
    exact decode_flatMap hall
  · simp at h

/-- A text has no more characters than bytes. -/
theorem length_le_of_encode {s bytes : Text} (h : encode s = some bytes) :
    s.length ≤ bytes.length := by
  unfold encode at h
  split at h
  · rw [← Option.some.inj h]
    clear h
    induction s with
    | nil => exact le_refl 0
    | cons c s ih =>
        have hpos := List.length_pos_iff.mpr (encodeChar_ne_nil c)
        simp only [List.all_cons, Bool.and_eq_true] at *
        have hrest := ih (by tauto)
        rw [List.flatMap_cons, List.length_append, List.length_cons]
        omega
  · simp at h

theorem char2_spec {a : Nat} {rest : Text} {r : Nat × Nat}
    (h : char2 a rest = some r) (ha : 0xc2 ≤ a ∧ a ≤ 0xdf) :
    isScalar r.1 = true ∧ ∃ skipped after, rest = skipped ++ after ∧
      skipped.length = r.2 ∧ encodeChar r.1 = a :: skipped := by
  cases rest with
  | nil => simp [char2] at h
  | cons b after =>
      rw [char2] at h
      split at h
      · next htail =>
        rw [isTail_iff] at htail
        obtain rfl := Option.some.inj h
        refine ⟨isScalar_iff.mpr (by dsimp only; omega), [b], after, rfl, rfl, ?_⟩
        unfold encodeChar
        rw [if_neg (by omega), if_pos (by omega), List.cons.injEq, List.cons.injEq]
        exact ⟨by omega, by omega, rfl⟩
      · simp at h

theorem char3_spec {a : Nat} {rest : Text} {r : Nat × Nat}
    (h : char3 a rest = some r) (ha : 0xe0 ≤ a ∧ a ≤ 0xef) :
    isScalar r.1 = true ∧ ∃ skipped after, rest = skipped ++ after ∧
      skipped.length = r.2 ∧ encodeChar r.1 = a :: skipped := by
  unfold char3 at h
  split at h
  · next b c after =>
    dsimp only at h
    split at h
    · next hchecks =>
      simp only [Bool.and_eq_true, decide_eq_true_eq, isTail_iff] at hchecks
      obtain ⟨⟨⟨hb, hc⟩, hlow⟩, hscalar⟩ := hchecks
      obtain rfl := Option.some.inj h
      refine ⟨hscalar, [b, c], after, rfl, rfl, ?_⟩
      rw [isScalar_iff] at hscalar
      unfold encodeChar
      rw [if_neg (by omega), if_neg (by omega), if_pos (by omega),
        List.cons.injEq, List.cons.injEq, List.cons.injEq]
      exact ⟨by omega, by omega, by omega, rfl⟩
    · simp at h
  · simp at h

theorem char4_spec {a : Nat} {rest : Text} {r : Nat × Nat}
    (h : char4 a rest = some r) (ha : 0xf0 ≤ a ∧ a ≤ 0xf4) :
    isScalar r.1 = true ∧ ∃ skipped after, rest = skipped ++ after ∧
      skipped.length = r.2 ∧ encodeChar r.1 = a :: skipped := by
  unfold char4 at h
  split at h
  · next b c d after =>
    dsimp only at h
    split at h
    · next hchecks =>
      simp only [Bool.and_eq_true, decide_eq_true_eq, isTail_iff] at hchecks
      obtain ⟨⟨⟨⟨hb, hc⟩, hd⟩, hlow⟩, hscalar⟩ := hchecks
      obtain rfl := Option.some.inj h
      refine ⟨hscalar, [b, c, d], after, rfl, rfl, ?_⟩
      rw [isScalar_iff] at hscalar
      unfold encodeChar
      rw [if_neg (by omega), if_neg (by omega), if_neg (by omega),
        List.cons.injEq, List.cons.injEq, List.cons.injEq, List.cons.injEq]
      exact ⟨by omega, by omega, by omega, by omega, rfl⟩
    · simp at h
  · simp at h

theorem firstChar_spec {a : Nat} {rest : Text} {r : Nat × Nat}
    (h : firstChar (a :: rest) = some r) :
    isScalar r.1 = true ∧ ∃ skipped after, rest = skipped ++ after ∧
      skipped.length = r.2 ∧ encodeChar r.1 = a :: skipped := by
  rw [firstChar] at h
  split_ifs at h with h1 h2 h3 h4
  · obtain rfl := Option.some.inj h
    refine ⟨isScalar_iff.mpr (by dsimp only; omega), [], rest, rfl, rfl, ?_⟩
    rw [encodeChar, if_pos h1]
  · exact char2_spec h h2
  · exact char3_spec h h3
  · exact char4_spec h h4

/-- Only encodings decode. -/
theorem flatMap_of_decode {bytes s : Text} (h : decode bytes = some s) :
    s.all isScalar = true ∧ s.flatMap encodeChar = bytes := by
  induction s generalizing bytes with
  | nil =>
      cases bytes with
      | nil => exact ⟨rfl, rfl⟩
      | cons a rest =>
          simp only [decode, decodeFrom, Option.bind_eq_some_iff,
            Option.map_eq_some_iff] at h
          obtain ⟨r, -, tail, -, heq⟩ := h
          simp at heq
  | cons c s ih =>
      cases bytes with
      | nil => simp [decode, decodeFrom] at h
      | cons a rest =>
          simp only [decode, decodeFrom, Option.bind_eq_some_iff,
            Option.map_eq_some_iff, List.cons.injEq] at h
          obtain ⟨r, hfirst, tail, htail, rfl, rfl⟩ := h
          obtain ⟨hscalar, skipped, after, rfl, hlen, hchar⟩ := firstChar_spec hfirst
          rw [← hlen, decodeFrom_skip] at htail
          obtain ⟨hall, hbytes⟩ := ih htail
          refine ⟨by rw [List.all_cons, hscalar, hall]; rfl, ?_⟩
          rw [List.flatMap_cons, hchar, hbytes]
          rfl

theorem decode_eq_some_iff {bytes s : Text} :
    decode bytes = some s ↔ encode s = some bytes := by
  constructor
  · intro h
    obtain ⟨hall, hbytes⟩ := flatMap_of_decode h
    rw [encode, if_pos hall, hbytes]
  · exact decode_encode

/-! ### Parts of valid bytes -/

/-- The bytes of some text. -/
def IsUtf8 (bytes : Text) : Prop :=
  ∃ s : Text, s.all isScalar = true ∧ bytes = s.flatMap encodeChar

theorem isUtf8_iff {bytes : Text} : IsUtf8 bytes ↔ (decode bytes).isSome = true := by
  constructor
  · rintro ⟨s, hall, rfl⟩
    rw [decode_flatMap hall]
    rfl
  · intro h
    obtain ⟨s, hs⟩ := Option.isSome_iff_exists.mp h
    obtain ⟨hall, hbytes⟩ := flatMap_of_decode hs
    exact ⟨s, hall, hbytes.symm⟩

theorem IsUtf8.append {first second : Text} (hfirst : IsUtf8 first) (hsecond : IsUtf8 second) :
    IsUtf8 (first ++ second) := by
  obtain ⟨s, hs, rfl⟩ := hfirst
  obtain ⟨t, ht, rfl⟩ := hsecond
  exact ⟨s ++ t, by rw [List.all_append, hs, ht]; rfl, List.flatMap_append.symm⟩

theorem isUtf8_char {c : Nat} (h : isScalar c = true) : IsUtf8 (encodeChar c) :=
  ⟨[c], by simpa using h, by simp⟩

theorem isUtf8_ascii {s : Text} (h : ∀ c ∈ s, c < 128) : IsUtf8 s := by
  have hencode := encode_ascii h
  unfold encode at hencode
  split at hencode
  · next hall => exact ⟨s, hall, (Option.some.inj hencode).symm⟩
  · cases hencode

theorem encodeChar_high {c : Nat} (hc : 128 ≤ c) : ∀ b ∈ encodeChar c, 128 ≤ b := by
  unfold encodeChar
  rw [if_neg (by omega)]
  split
  · simp
    omega
  · split <;> simp <;> omega

/-- An ASCII byte stands between two characters. -/
theorem IsUtf8.split {first second : Text} {c : Nat} (hc : c < 128)
    (h : IsUtf8 (first ++ c :: second)) : IsUtf8 first ∧ IsUtf8 second := by
  obtain ⟨s, hs, heq⟩ := h
  induction s generalizing first with
  | nil => simp at heq
  | cons x s ih =>
      rw [List.all_cons, Bool.and_eq_true] at hs
      rw [List.flatMap_cons] at heq
      rcases List.append_eq_append_iff.mp heq with ⟨m, hm, hrest⟩ | ⟨m, rfl, hrest⟩
      · cases m with
        | nil =>
            obtain ⟨hnil, hsecond⟩ := @ih [] hs.2 (by simpa using hrest)
            rw [List.append_nil] at hm
            exact ⟨hm ▸ isUtf8_char hs.1, hsecond⟩
        | cons y m =>
            obtain ⟨rfl, hsecond⟩ := List.cons.inj hrest
            have hmem : c ∈ encodeChar x := by simp [hm]
            have hx : x < 128 := by
              by_contra hge
              exact absurd (encodeChar_high (by omega) c hmem) (by omega)
            rw [encodeChar, if_pos hx] at hm
            have hparts : first = [] ∧ m = [] := by
              cases first with
              | nil => exact ⟨rfl, (List.cons.inj hm).2.symm⟩
              | cons z first => simp at hm
            rw [hparts.1, hsecond, hparts.2]
            exact ⟨⟨[], rfl, rfl⟩, ⟨s, hs.2, rfl⟩⟩
      · obtain ⟨hm, hsecond⟩ := ih hs.2 hrest.symm
        exact ⟨(isUtf8_char hs.1).append hm, hsecond⟩

theorem IsUtf8.of_ascii_append {lead s : Text} (hlead : ∀ c ∈ lead, c < 128)
    (h : IsUtf8 (lead ++ s)) : IsUtf8 s := by
  induction lead with
  | nil => exact h
  | cons c lead ih =>
      rw [List.forall_mem_cons] at hlead
      exact ih hlead.2 (@IsUtf8.split [] _ _ hlead.1 h).2

theorem IsUtf8.of_append_ascii {s trail : Text} (htrail : ∀ c ∈ trail, c < 128)
    (h : IsUtf8 (s ++ trail)) : IsUtf8 s := by
  cases trail with
  | nil => rwa [List.append_nil] at h
  | cons c trail => exact (IsUtf8.split (htrail c List.mem_cons_self) h).1

end Utf8

end CybexOS
