/-
The language that `M.decode` accepts.
-/
import CybexOS.Displays.LuaDecode

namespace CybexOS

namespace Displays

open Json

namespace Lua

/-! ### Strings -/

/-- A byte that is not escaped is taken as it is. -/
def RawByte (char out : Text) : Prop :=
  ∃ b, isUnescaped b = true ∧ char = [b] ∧ out = [b]

/-- What stands between two quotes, and its bytes once read. -/
def ByteString (s out : Text) : Prop := Chars RawByte Utf8.encodeChar s out

theorem utf8Char_eq (cp : ℕ) : utf8Char cp = Utf8.encodeChar cp := rfl

theorem isUnescaped_iff {c : ℕ} : isUnescaped c = true ↔ isPlain c = true ∧ c ≠ 0 := by
  simp only [isUnescaped, isPlain, Bool.and_eq_true, decide_eq_true_eq, bne_iff_ne, ne_eq,
    Bool.not_eq_true', Bool.and_eq_false_iff, decide_eq_false_iff_not]
  omega

theorem ByteString.cons {b : ℕ} (hb : isUnescaped b = true) {s out : Text}
    (h : ByteString s out) : ByteString (b :: s) (b :: out) := by
  have hchar : RawByte [b] [b] := ⟨b, hb, rfl, rfl⟩
  exact Chars.plain hchar h

theorem ByteString.append {chunk : Text} (hplain : ∀ c ∈ chunk, isPlain c = true)
    (hzero : 0 ∉ chunk) {s out : Text} (h : ByteString s out) :
    ByteString (chunk ++ s) (chunk ++ out) := by
  induction chunk with
  | nil => exact h
  | cons c chunk ih =>
      rw [List.forall_mem_cons] at hplain
      rw [List.mem_cons, not_or] at hzero
      exact ByteString.cons (isUnescaped_iff.mpr ⟨hplain.1, fun heq => hzero.1 heq.symm⟩)
        (ih hplain.2 hzero.2)

theorem encodeChar_shortEscape {e unit : ℕ} (h : shortEscape e = some unit) :
    Utf8.encodeChar unit = [unit] := by
  have hsmall : unit < 0x80 := by
    unfold shortEscape at h
    split at h <;> first | (obtain rfl := Option.some.inj h; decide) | cases h
  exact if_pos hsmall

theorem hexDigits_eq_some {s rest : Text} {cp : ℕ} :
    hexDigits s = some (cp, rest) ↔
      ∃ a b c d, s = a :: b :: c :: d :: rest ∧ hexValue4 a b c d = some cp := by
  constructor
  · intro h
    unfold hexDigits at h
    split at h
    · next a b c d tail =>
      obtain ⟨value, hvalue, heq⟩ := Option.map_eq_some_iff.mp h
      obtain ⟨rfl, rfl⟩ := Prod.mk.inj heq
      exact ⟨a, b, c, d, rfl, hvalue⟩
    · cases h
  · rintro ⟨a, b, c, d, rfl, hvalue⟩
    rw [hexDigits, hvalue]
    rfl

theorem matchLow_eq_some {s rest : Text} {low : ℕ} :
    matchLow s = some (low, rest) ↔
      ∃ a b c d, s = 92 :: 117 :: a :: b :: c :: d :: rest ∧
        hexValue4 a b c d = some low := by
  constructor
  · intro h
    unfold matchLow at h
    split at h
    · obtain ⟨a, b, c, d, rfl, hvalue⟩ := hexDigits_eq_some.mp h
      exact ⟨a, b, c, d, rfl, hvalue⟩
    · cases h
  · rintro ⟨a, b, c, d, rfl, hvalue⟩
    exact hexDigits_eq_some.mpr ⟨a, b, c, d, rfl, hvalue⟩

/-- An escape read is one of the grammar. -/
theorem parseUnicode_sound {start s char rest : Text}
    (h : parseUnicode start s = .ok (char, rest)) :
    ∃ escaped, s = escaped ++ rest ∧ ∀ {body out : Text}, ByteString body out →
      ByteString (92 :: 117 :: escaped ++ body) (char ++ out) := by
  unfold parseUnicode at h
  split at h
  · cases h
  · next cp tail hdigits =>
    obtain ⟨a, b, c, d, rfl, hvalue⟩ := hexDigits_eq_some.mp hdigits
    split at h
    · next hhigh =>
      split at h
      · cases h
      · next low after hlow =>
        obtain ⟨a', b', c', d', rfl, hlowValue⟩ := matchLow_eq_some.mp hlow
        split at h
        · cases h
        · next hrange =>
          obtain ⟨rfl, rfl⟩ := Prod.mk.inj (Except.ok.inj h)
          exact ⟨[a, b, c, d, 92, 117, a', b', c', d'], rfl,
            fun hbody => Chars.pair hvalue hhigh hlowValue (by omega) hbody⟩
    · next hnotHigh =>
      split at h
      · cases h
      · next hnotLow =>
        obtain ⟨rfl, rfl⟩ := Prod.mk.inj (Except.ok.inj h)
        have hlt : cp < 65536 := hexValue4_lt hvalue
        exact ⟨[a, b, c, d], rfl, fun hbody =>
          Chars.unit hvalue (Utf8.isScalar_iff.mpr (by omega)) hbody⟩

theorem parseEscape_sound {start s char rest : Text}
    (h : parseEscape start s = .ok (char, rest)) :
    ∃ escaped, s = escaped ++ rest ∧ escaped ≠ [] ∧ ∀ {body out : Text}, ByteString body out →
      ByteString (92 :: escaped ++ body) (char ++ out) := by
  unfold parseEscape at h
  split at h
  · cases h
  · next e tail =>
    split at h
    · next unit hunit =>
      obtain ⟨rfl, rfl⟩ := Prod.mk.inj (Except.ok.inj h)
      refine ⟨[e], rfl, List.cons_ne_nil _ _, fun hbody => ?_⟩
      have hshort := Chars.short hunit hbody
      rw [encodeChar_shortEscape hunit] at hshort
      exact hshort
    · split at h
      · next hu =>
        subst hu
        obtain ⟨escaped, rfl, hbody⟩ := parseUnicode_sound h
        exact ⟨117 :: escaped, rfl, List.cons_ne_nil _ _, hbody⟩
      · cases h

theorem takeWhile_isPlain (s : Text) : ∀ c ∈ s.takeWhile isPlain, isPlain c = true :=
  fun _ hc => List.mem_takeWhile_imp hc

/-- What is read as a string is one, up to its closing quote. -/
theorem parseString_sound {fuel : ℕ} {s out rest : Text}
    (h : parseString fuel s = .ok (out, rest)) :
    ∃ body, s = body ++ 34 :: rest ∧ ByteString body out := by
  induction fuel generalizing s out rest with
  | zero => cases h
  | succ fuel ih =>
      have hsplit := List.takeWhile_append_dropWhile (p := isPlain) (l := s)
      rw [parseString] at h
      dsimp only at h
      split at h
      · cases h
      · next c after hdrop =>
        rw [hdrop] at hsplit
        split at h
        · cases h
        · next hzero =>
          split at h
          · next hquote =>
            obtain ⟨rfl, rfl⟩ := Prod.mk.inj (Except.ok.inj h)
            subst hquote
            refine ⟨s.takeWhile isPlain, hsplit.symm, ?_⟩
            have hchunk := ByteString.append (takeWhile_isPlain s) hzero Chars.nil
            rwa [List.append_nil] at hchunk
          · split at h
            · cases h
            · next hslash =>
              rw [not_not] at hslash
              subst hslash
              rw [bind_eq_ok] at h
              obtain ⟨⟨char, mid⟩, hescape, h⟩ := h
              rw [bind_eq_ok] at h
              obtain ⟨⟨tail, last⟩, htail, h⟩ := h
              rw [pure_eq_ok, Prod.mk.injEq] at h
              obtain ⟨rfl, rfl⟩ := h
              obtain ⟨escaped, rfl, -, hbody⟩ := parseEscape_sound hescape
              obtain ⟨body, rfl, hstring⟩ := ih htail
              refine ⟨s.takeWhile isPlain ++ (92 :: escaped ++ body), ?_, ?_⟩
              · refine hsplit.symm.trans ?_
                simp
              · rw [List.append_assoc]
                exact ByteString.append (takeWhile_isPlain s) hzero (hbody hstring)

theorem parseString_cons {fuel : ℕ} {b : ℕ} (hb : isUnescaped b = true) {s out rest : Text}
    (h : parseString fuel s = .ok (out, rest)) :
    parseString fuel (b :: s) = .ok (b :: out, rest) := by
  obtain ⟨hplain, hzero⟩ := isUnescaped_iff.mp hb
  cases fuel with
  | zero => cases h
  | succ fuel =>
      rw [parseString] at h ⊢
      rw [List.takeWhile_cons_of_pos hplain, List.dropWhile_cons_of_pos hplain]
      dsimp only at h ⊢
      split at h
      · cases h
      · next c after hdrop =>
        split at h
        · cases h
        · next hnot =>
          have hnot' : 0 ∉ b :: s.takeWhile isPlain := by
            rw [List.mem_cons]
            exact not_or.mpr ⟨hzero.symm, hnot⟩
          rw [if_neg hnot']
          split at h
          · next hquote =>
            obtain ⟨rfl, rfl⟩ := Prod.mk.inj (Except.ok.inj h)
            rw [if_pos hquote]
          · next hquote =>
            rw [if_neg hquote]
            split at h
            · cases h
            · next hslash =>
              rw [if_neg hslash]
              rw [bind_eq_ok] at h ⊢
              obtain ⟨char, hescape, h⟩ := h
              refine ⟨char, hescape, ?_⟩
              rw [bind_eq_ok] at h ⊢
              obtain ⟨tail, htail, h⟩ := h
              refine ⟨tail, htail, ?_⟩
              rw [pure_eq_ok, Prod.mk.injEq] at h ⊢
              obtain ⟨rfl, rfl⟩ := h
              exact ⟨rfl, rfl⟩

theorem parseString_escape {fuel : ℕ} {s char after out rest : Text}
    (hescape : parseEscape (92 :: s) s = .ok (char, after))
    (h : parseString fuel after = .ok (out, rest)) :
    parseString (fuel + 1) (92 :: s) = .ok (char ++ out, rest) := by
  have hslash : ¬ isPlain 92 = true := by decide
  rw [parseString, List.takeWhile_cons_of_neg hslash, List.dropWhile_cons_of_neg hslash]
  dsimp only
  rw [if_neg List.not_mem_nil, if_neg (by decide), if_neg (by decide), hescape]
  rw [bind_eq_ok]
  refine ⟨(char, after), rfl, ?_⟩
  rw [bind_eq_ok]
  exact ⟨(out, rest), h, rfl⟩

/-- Every string of the grammar is read, up to its closing quote. -/
theorem parseString_complete {body out : Text} (h : ByteString body out) (rest : Text)
    {fuel : ℕ} (hfuel : body.length < fuel) :
    parseString fuel (body ++ 34 :: rest) = .ok (out, rest) := by
  obtain ⟨fuel, rfl⟩ := Nat.exists_eq_succ_of_ne_zero (Nat.ne_zero_of_lt hfuel)
  induction h generalizing fuel with
  | nil => rfl
  | plain hchar hrest ih =>
      obtain ⟨b, hb, rfl, rfl⟩ := hchar
      rw [List.length_append, List.length_singleton] at hfuel
      exact parseString_cons hb (ih fuel (by omega))
  | @short e unit s text hunit hrest ih =>
      simp only [List.length_cons] at hfuel
      obtain ⟨fuel, rfl⟩ := Nat.exists_eq_succ_of_ne_zero (show fuel ≠ 0 by omega)
      rw [encodeChar_shortEscape hunit]
      refine parseString_escape ?_ (ih fuel (by omega))
      change parseEscape _ (e :: (s ++ 34 :: rest)) = _
      rw [parseEscape, hunit]
  | @unit a b c d code s text hvalue hscalar hrest ih =>
      simp only [List.length_cons] at hfuel
      obtain ⟨fuel, rfl⟩ := Nat.exists_eq_succ_of_ne_zero (show fuel ≠ 0 by omega)
      refine parseString_escape ?_ (ih fuel (by omega))
      have hlt := hexValue4_lt hvalue
      rw [Utf8.isScalar_iff] at hscalar
      change parseEscape _ (117 :: a :: b :: c :: d :: (s ++ 34 :: rest)) = _
      rw [parseEscape, show shortEscape 117 = none from rfl]
      dsimp only
      rw [if_pos rfl, parseUnicode, hexDigits_eq_some.mpr ⟨a, b, c, d, rfl, hvalue⟩]
      dsimp only
      rw [if_neg (by omega), if_neg (by omega), utf8Char_eq]
  | @pair a b c d high a' b' c' d' low s text hhigh hh hlow hl hrest ih =>
      simp only [List.length_cons] at hfuel
      obtain ⟨fuel, rfl⟩ := Nat.exists_eq_succ_of_ne_zero (show fuel ≠ 0 by omega)
      refine parseString_escape ?_ (ih fuel (by omega))
      change parseEscape _ (117 :: a :: b :: c :: d :: 92 :: 117 :: a' :: b' :: c' :: d' ::
        (s ++ 34 :: rest)) = _
      rw [parseEscape, show shortEscape 117 = none from rfl]
      dsimp only
      rw [if_pos rfl, parseUnicode, hexDigits_eq_some.mpr ⟨a, b, c, d, rfl, hhigh⟩]
      dsimp only
      rw [if_pos hh]
      rw [matchLow_eq_some.mpr ⟨a', b', c', d', rfl, hlow⟩]
      dsimp only
      rw [if_neg (by omega), utf8Char_eq]

theorem parseEscape_ends (start s : Text) : parseEscape start s ≠ .error .exhausted := by
  unfold parseEscape parseUnicode fail
  split
  · simp
  · split
    · simp
    · split
      · split
        · simp
        · split
          · split
            · simp
            · split <;> simp
          · split <;> simp
      · simp

/-- A string is read within as many rounds as it has bytes. -/
theorem parseString_ends {fuel : ℕ} {s : Text} (hfuel : s.length < fuel) :
    parseString fuel s ≠ .error .exhausted := by
  induction fuel generalizing s with
  | zero => omega
  | succ fuel ih =>
      intro h
      have hlen := congrArg List.length (List.takeWhile_append_dropWhile (p := isPlain) (l := s))
      rw [parseString] at h
      dsimp only at h
      split at h
      · cases h
      · next c after hdrop =>
        rw [hdrop, List.length_append, List.length_cons] at hlen
        split at h
        · cases h
        · split at h
          · cases h
          · split at h
            · cases h
            · rw [bind_eq_error] at h
              rcases h with h | ⟨⟨char, mid⟩, hescape, h⟩
              · exact parseEscape_ends _ _ h
              · obtain ⟨escaped, rfl, -, -⟩ := parseEscape_sound hescape
                rw [List.length_append] at hlen
                rw [bind_eq_error] at h
                rcases h with h | ⟨tail, -, h⟩
                · exact ih (show mid.length < fuel by omega) h
                · cases h

/-! ### Numbers -/

/-- A number is worth its binary64 value, if that is finite. -/
def toDouble (numeral : Numeral) : Option Double := numeral.toNumber.toDouble?

theorem toDouble_eq_some {numeral : Numeral} {d : Double} :
    toDouble numeral = some d ↔ numeral.toNumber = .fin d := by
  rw [toDouble]
  cases numeral.toNumber <;> simp [Number.toDouble?]

theorem digits_takeWhile {s : Text} (hne : s.takeWhile isDigit ≠ []) :
    Digits (s.takeWhile isDigit) :=
  ⟨hne, List.all_eq_true.mpr fun _ hc => List.mem_takeWhile_imp hc⟩

theorem append_drop_of_takeWhile (s : Text) :
    s.takeWhile isDigit ++ s.drop (s.takeWhile isDigit).length = s := by
  have hsplit := List.takeWhile_append_dropWhile (p := isDigit) (l := s)
  have hdrop : s.drop (s.takeWhile isDigit).length = s.dropWhile isDigit := by
    conv_lhs => rw [← hsplit]
    rw [List.drop_left' (by rw [hsplit])]
  rw [hdrop, hsplit]

theorem matchFraction_text (s : Text) :
    ∃ frac, FracText ((matchFraction s).getD []) frac ∧
      (matchFraction s).getD [] ++ s.drop ((matchFraction s).getD []).length = s := by
  unfold matchFraction
  split
  · next rest =>
    split
    · exact ⟨[], .none, rfl⟩
    · next hne =>
      refine ⟨_, .digits (digits_takeWhile hne), ?_⟩
      exact congrArg (46 :: ·) (append_drop_of_takeWhile rest)
  · exact ⟨[], .none, rfl⟩

theorem matchSign_text (s : Text) :
    ∃ sign, SignText (matchSign s) sign ∧ matchSign s ++ s.drop (matchSign s).length = s := by
  unfold matchSign
  split
  · exact ⟨_, .plus, rfl⟩
  · exact ⟨_, .minus, rfl⟩
  · exact ⟨_, .none, rfl⟩

theorem isMark_iff {c : ℕ} : isMark c = true ↔ c = 101 ∨ c = 69 := by
  simp [isMark]

theorem matchExponent_text (s : Text) :
    ∃ exp, ExpText ((matchExponent s).getD []) exp ∧
      (matchExponent s).getD [] ++ s.drop ((matchExponent s).getD []).length = s := by
  cases s with
  | nil => exact ⟨none, .none, rfl⟩
  | cons mark rest =>
      rw [matchExponent]
      split
      · next hmatch =>
        obtain ⟨sign, hsign, hsplit⟩ := matchSign_text rest
        refine ⟨_, .digits (isMark_iff.mp hmatch.1) hsign (digits_takeWhile hmatch.2), ?_⟩
        rw [Option.getD_some, List.cons_append, List.cons_append, List.length_cons,
          List.drop_succ_cons, List.length_append, ← List.drop_drop, List.append_assoc,
          append_drop_of_takeWhile, hsplit]
      · exact ⟨none, .none, rfl⟩

theorem tonumber_of {body : Text} {numeral : Numeral} (h : IsNumeral body numeral) :
    tonumber body = some numeral.toNumber := by
  have hread := parseNumeral_of h (show EndsNumber [] by simp [EndsNumber])
  rw [List.append_nil] at hread
  rw [tonumber, hread]

theorem signLength_text (s : Text) :
    ∃ neg : Bool, (if neg then [45] else []) ++ s.drop (signLength s) = s := by
  unfold signLength
  by_cases hminus : s.head? = some 45
  · cases s with
    | nil => cases hminus
    | cons c tail =>
        rw [List.head?_cons, Option.some.injEq] at hminus
        exact ⟨true, by simp [hminus]⟩
  · exact ⟨false, by simp [hminus]⟩

/-- What is read as a number is one. -/
theorem parseNumber_sound {s rest : Text} {d : Double}
    (h : parseNumber s = .ok (d, rest)) :
    ∃ body numeral, s = body ++ rest ∧ IsNumeral body numeral ∧ toDouble numeral = some d := by
  obtain ⟨neg, hsign⟩ := signLength_text s
  unfold parseNumber at h
  dsimp only at h
  rw [← List.drop_drop] at h
  have hwholeSplit := append_drop_of_takeWhile (s.drop (signLength s))
  generalize s.drop (signLength s) = opened at *
  split at h
  · cases h
  · next hdigits =>
    split at h
    · cases h
    · next hzero =>
      obtain ⟨frac, hfrac, hfracSplit⟩ :=
        matchFraction_text (opened.drop (opened.takeWhile isDigit).length)
      generalize opened.drop (opened.takeWhile isDigit).length = whole at *
      split at h
      · cases h
      · obtain ⟨exp, hexp, hexpSplit⟩ :=
          matchExponent_text (whole.drop ((matchFraction whole).getD []).length)
        generalize whole.drop ((matchFraction whole).getD []).length = mantissa at *
        split at h
        · cases h
        · generalize mantissa.drop ((matchExponent mantissa).getD []).length = left at *
          split at h
          · next number hnumber =>
            obtain ⟨rfl, rfl⟩ := Prod.mk.inj (Except.ok.inj h)
            have hnumeral := IsNumeral.mk neg
              ⟨digits_takeWhile hdigits, fun hlong hhead => hzero ⟨hlong, hhead⟩⟩ hfrac hexp
            have hbody : s = ((if neg then [45] else []) ++ opened.takeWhile isDigit ++
                (matchFraction whole).getD [] ++ (matchExponent mantissa).getD []) ++ left := by
              rw [List.append_assoc, hexpSplit, List.append_assoc, hfracSplit,
                List.append_assoc, hwholeSplit, hsign]
            refine ⟨_, _, hbody, hnumeral, toDouble_eq_some.mpr ?_⟩
            rw [hbody, List.length_append, Nat.add_sub_cancel, List.take_left,
              tonumber_of hnumeral, Option.some.injEq] at hnumber
            exact hnumber
          · cases h

theorem matchFraction_of {fracText frac : Text} (h : FracText fracText frac) {rest : Text}
    (hrest : ∀ c ∈ rest.head?, isDigit c = false ∧ c ≠ 46) :
    (matchFraction (fracText ++ rest)).getD [] = fracText ∧
      ¬ ((fracText ++ rest).head? = some 46 ∧ matchFraction (fracText ++ rest) = none) := by
  cases h with
  | none =>
      have hnone : matchFraction rest = none := by
        cases rest with
        | nil => rfl
        | cons c tail =>
            rw [matchFraction]
            intro _ heq
            exact (hrest c rfl).2 (List.cons.inj heq).1
      rw [List.nil_append, hnone]
      exact ⟨rfl, fun hand => (hrest 46 hand.1).2 rfl⟩
  | digits h =>
      have hread := h.takeWhile fun c hc => (hrest c hc).1
      have hsome : ∀ digits, Digits digits → (digits ++ rest).takeWhile isDigit = digits →
          matchFraction (46 :: digits ++ rest) = some (46 :: digits) := by
        intro digits hdigits htake
        rw [List.cons_append, matchFraction, htake, if_neg hdigits.1]
      rw [hsome frac h hread.1]
      exact ⟨rfl, fun hand => by simp at hand⟩

theorem matchSign_of {signText : Text} {sign : Option Bool} (h : SignText signText sign)
    {digits : Text} (hdigits : Digits digits) (rest : Text) :
    matchSign (signText ++ (digits ++ rest)) = signText := by
  cases h with
  | none =>
      obtain ⟨c, tail, hcons, hc⟩ := hdigits.head rest
      rw [List.nil_append, hcons, matchSign]
      · intro _ heq
        rw [(List.cons.inj heq).1] at hc
        cases hc
      · intro _ heq
        rw [(List.cons.inj heq).1] at hc
        cases hc
  | plus => rfl
  | minus => rfl

theorem matchExponent_of {expText : Text} {exp : Option (Option Bool × Text)}
    (h : ExpText expText exp) {rest : Text} (hrest : EndsNumber rest) :
    (matchExponent (expText ++ rest)).getD [] = expText ∧
      ¬ ((∃ c ∈ (expText ++ rest).head?, isMark c = true) ∧
        matchExponent (expText ++ rest) = none) := by
  cases h with
  | none =>
      have hmark : ∀ c ∈ rest.head?, ¬ isMark c = true := fun c hc hmark =>
        (isMark_iff.mp hmark).elim (hrest c hc).2.2.1 (hrest c hc).2.2.2
      have hnone : matchExponent rest = none := by
        cases rest with
        | nil => rfl
        | cons c tail =>
            rw [matchExponent]
            exact if_neg fun hand => hmark c rfl hand.1
      rw [List.nil_append, hnone]
      exact ⟨rfl, fun ⟨⟨c, hc, hand⟩, _⟩ => hmark c hc hand⟩
  | @digits mark hmark signText sign hsign digits hdigits =>
      have hread := hdigits.takeWhile fun c hc => (hrest c hc).1
      have hsome : matchExponent (mark :: signText ++ digits ++ rest) =
          some (mark :: signText ++ digits) := by
        rw [List.cons_append, List.cons_append, List.append_assoc, matchExponent,
          matchSign_of hsign hdigits, List.drop_left, hread.1,
          if_pos ⟨isMark_iff.mpr hmark, hdigits.1⟩]
        rfl
      rw [hsome]
      exact ⟨rfl, fun hand => by simp at hand⟩

/-- Every number of the grammar is read, where it ends. -/
theorem parseNumber_complete {body : Text} {numeral : Numeral} (h : IsNumeral body numeral)
    {d : Double} (hd : toDouble numeral = some d) {rest : Text} (hrest : EndsNumber rest) :
    parseNumber (body ++ rest) = .ok (d, rest) := by
  have hnumber := tonumber_of h
  rw [toDouble_eq_some.mp hd] at hnumber
  cases h with
  | @mk neg whole fracText frac expText exp hwhole hfrac hexp =>
      have hexpHead := hexp.head hrest
      have hdigits := (hwhole.1.takeWhile (hfrac.head hexpHead)).1
      have hopened : ((if neg then [45] else []) ++ whole ++ fracText ++ expText ++ rest).drop
          (signLength ((if neg then [45] else []) ++ whole ++ fracText ++ expText ++ rest)) =
          whole ++ (fracText ++ (expText ++ rest)) := by
        cases neg with
        | true => simp [signLength]
        | false =>
            obtain ⟨c, tail, hcons, hc⟩ := hwhole.1.head (fracText ++ (expText ++ rest))
            have hne : c ≠ 45 := by
              rintro rfl
              cases hc
            simp only [Bool.false_eq_true, if_false, List.nil_append, List.append_assoc, hcons]
            simp [signLength, hne]
      obtain ⟨hfracText, hfracOk⟩ := matchFraction_of hfrac hexpHead
      obtain ⟨hexpText, hexpOk⟩ := matchExponent_of hexp hrest
      unfold parseNumber
      dsimp only
      rw [← List.drop_drop, hopened, hdigits, if_neg hwhole.1.1,
        if_neg (fun hand => hwhole.2 hand.1 hand.2), List.drop_left, if_neg hfracOk, hfracText,
        List.drop_left, if_neg hexpOk, hexpText, List.drop_left, List.length_append,
        Nat.add_sub_cancel, List.take_left, hnumber]

theorem parseNumber_ends (s : Text) : parseNumber s ≠ .error .exhausted := by
  unfold parseNumber fail
  dsimp only
  intro h
  split at h
  · cases h
  · split at h
    · cases h
    · split at h
      · cases h
      · split at h
        · cases h
        · split at h <;> cases h

/-! ### What is read is in the language -/

/-- The texts of values for which so many containers may be open. -/
abbrev Reads : ℕ → Text → LuaValue → Prop := Denotes ByteString toDouble

theorem split_of_take {s word : Text} {n : ℕ} (h : s.take n = word) : s = word ++ s.drop n := by
  rw [← h, List.take_append_drop]

theorem parseScalar_sound {s rest : Text} {value : LuaValue}
    (h : parseScalar s = .ok (value, rest)) (left : ℕ) :
    ∃ body, s = body ++ rest ∧ Reads left body value := by
  unfold parseScalar at h
  split at h
  · next inside =>
    rw [bind_eq_ok] at h
    obtain ⟨⟨text, after⟩, hstring, h⟩ := h
    rw [pure_eq_ok, Prod.mk.injEq] at h
    obtain ⟨rfl, rfl⟩ := h
    obtain ⟨body, rfl, hbody⟩ := parseString_sound hstring
    exact ⟨34 :: body ++ [34], by simp, .str left hbody⟩
  · split at h
    · rw [bind_eq_ok] at h
      obtain ⟨⟨number, after⟩, hnumber, h⟩ := h
      rw [pure_eq_ok, Prod.mk.injEq] at h
      obtain ⟨rfl, rfl⟩ := h
      obtain ⟨body, numeral, rfl, hnumeral, hworth⟩ := parseNumber_sound hnumber
      exact ⟨body, rfl, .num left hnumeral hworth⟩
    · split at h
      · next hword =>
        obtain ⟨rfl, rfl⟩ := Prod.mk.inj (Except.ok.inj h)
        exact ⟨_, split_of_take hword, .bool left true⟩
      · split at h
        · next hword =>
          obtain ⟨rfl, rfl⟩ := Prod.mk.inj (Except.ok.inj h)
          exact ⟨_, split_of_take hword, .bool left false⟩
        · split at h
          · next hword =>
            obtain ⟨rfl, rfl⟩ := Prod.mk.inj (Except.ok.inj h)
            exact ⟨_, split_of_take hword, .null left⟩
          · cases h

theorem parseKey_sound {result : List (Text × LuaValue)} {s key rest : Text}
    (h : parseKey result s = .ok (key, rest)) :
    ∃ before raw after, Space before ∧ Space after ∧ ByteString raw key ∧
      key ∉ result.map Prod.fst ∧ s = before ++ 34 :: raw ++ 34 :: after ++ 58 :: rest := by
  obtain ⟨before, hbefore, hs⟩ := exists_skipped s
  unfold parseKey at h
  split at h
  · next inside hquote =>
    rw [bind_eq_ok] at h
    obtain ⟨⟨name, mid⟩, hstring, h⟩ := h
    dsimp only at h
    obtain ⟨raw, rfl, hraw⟩ := parseString_sound hstring
    split at h
    · cases h
    · next hnew =>
      split at h
      · next after hcolon =>
        obtain ⟨rfl, rfl⟩ := Prod.mk.inj (Except.ok.inj h)
        obtain ⟨space, hspace, hmid⟩ := exists_skipped mid
        rw [hcolon] at hmid
        refine ⟨before, raw, space, hbefore, hspace, hraw, hnew, ?_⟩
        rw [hs, hquote, hmid]
        simp
      · cases h
  · cases h

theorem parseValue_skip (fuel depth : ℕ) (s : Text) :
    parseValue fuel depth (skipSpace s) = parseValue fuel depth s := by
  cases fuel with
  | zero => rfl
  | succ fuel => rw [parseValue, skipSpace_skipSpace, parseValue]

theorem parseItems_skip (fuel depth : ℕ) (s : Text) :
    parseItems fuel depth (skipSpace s) = parseItems fuel depth s := by
  cases fuel with
  | zero => rfl
  | succ fuel => rw [parseItems, parseValue_skip, parseItems]

theorem parseMembers_skip (fuel depth : ℕ) (result : List (Text × LuaValue)) (s : Text) :
    parseMembers fuel depth result (skipSpace s) = parseMembers fuel depth result s := by
  cases fuel with
  | zero => rfl
  | succ fuel =>
      have hkey : parseKey result (skipSpace s) = parseKey result s := by
        rw [parseKey, skipSpace_skipSpace, parseKey]
      rw [parseMembers, hkey, parseMembers]

/-- What a successful call of each reader says, with these rounds to go. -/
structure Sound (fuel : ℕ) : Prop where
  value : ∀ {depth left : ℕ} {s rest : Text} {v : LuaValue}, depth + left = MAX_DEPTH →
    parseValue fuel depth s = .ok (v, rest) →
      ∃ before body, Space before ∧ s = before ++ body ++ rest ∧ Reads left body v
  items : ∀ {depth left : ℕ} {s rest : Text} {values : List LuaValue},
    depth + left = MAX_DEPTH → parseItems fuel depth s = .ok (values, rest) →
      ∃ slots : List (Slot Double), slots ≠ [] ∧ (∀ slot ∈ slots, slot.Spaced) ∧
        (∀ slot ∈ slots, Reads left slot.body slot.value) ∧ values = slots.map Slot.value ∧
        s = commas (slots.map Slot.text) ++ 93 :: rest
  members : ∀ {depth left : ℕ} {result fields : List (Text × LuaValue)} {s rest : Text},
    depth + left = MAX_DEPTH → (result.map Prod.fst).Nodup →
    parseMembers fuel depth result s = .ok (fields, rest) →
      ∃ members : List (Member Double), members ≠ [] ∧ (∀ m ∈ members, m.Spaced) ∧
        (∀ m ∈ members, ByteString m.key m.name) ∧
        (result.map Prod.fst ++ members.map Member.name).Nodup ∧
        (∀ m ∈ members, Reads left m.slot.body m.slot.value) ∧
        fields = result ++ members.map (fun m => (m.name, m.slot.value)) ∧
        s = commas (members.map Member.text) ++ 125 :: rest

theorem Sound.zero : Sound 0 where
  value := fun _ h => by cases h
  items := fun _ h => by cases h
  members := fun _ _ h => by cases h

/-- A value read and the space up to what comes next make a slot. -/
theorem Sound.slot {fuel : ℕ} (h : Sound fuel) {depth left : ℕ}
    (hdepth : depth + left = MAX_DEPTH) {s rest : Text} {v : LuaValue}
    (hread : parseValue fuel depth s = .ok (v, rest)) :
    ∃ slot : Slot Double, slot.Spaced ∧ Reads left slot.body slot.value ∧ slot.value = v ∧
      s = slot.text ++ skipSpace rest := by
  obtain ⟨before, body, hbefore, hs, hbody⟩ := h.value hdepth hread
  obtain ⟨after, hafter, hrest⟩ := exists_skipped rest
  refine ⟨⟨before, body, after, v⟩, ⟨hbefore, hafter⟩, hbody, rfl, ?_⟩
  rw [hs, Slot.text, List.append_assoc _ after, ← hrest]

theorem Sound.arr {fuel : ℕ} (h : Sound fuel) {depth left : ℕ}
    (hdepth : depth + 1 + left = MAX_DEPTH) {s rest : Text} {v : LuaValue}
    (hread : parseArray (parseItems fuel (depth + 1)) s = .ok (v, rest)) :
    ∃ body, 91 :: s = body ++ rest ∧ Reads (left + 1) body v := by
  unfold parseArray at hread
  split at hread
  · next after hclose =>
    obtain ⟨rfl, rfl⟩ := Prod.mk.inj (Except.ok.inj hread)
    obtain ⟨space, hspace, hs⟩ := exists_skipped s
    rw [hclose] at hs
    exact ⟨91 :: space ++ [93], by simp [hs], .emptyArr left hspace⟩
  · rw [parseItems_skip, bind_eq_ok] at hread
    obtain ⟨⟨values, after⟩, hitems, hread⟩ := hread
    rw [pure_eq_ok, Prod.mk.injEq] at hread
    obtain ⟨rfl, rfl⟩ := hread
    obtain ⟨slots, hne, hspaced, hreads, rfl, rfl⟩ := h.items hdepth hitems
    exact ⟨91 :: commas (slots.map Slot.text) ++ [93], by simp, .arr hne hspaced hreads⟩

theorem Sound.obj {fuel : ℕ} (h : Sound fuel) {depth left : ℕ}
    (hdepth : depth + 1 + left = MAX_DEPTH) {s rest : Text} {v : LuaValue}
    (hread : parseObject (parseMembers fuel (depth + 1) []) s = .ok (v, rest)) :
    ∃ body, 123 :: s = body ++ rest ∧ Reads (left + 1) body v := by
  unfold parseObject at hread
  split at hread
  · next after hclose =>
    obtain ⟨rfl, rfl⟩ := Prod.mk.inj (Except.ok.inj hread)
    obtain ⟨space, hspace, hs⟩ := exists_skipped s
    rw [hclose] at hs
    exact ⟨123 :: space ++ [125], by simp [hs], .emptyObj left hspace⟩
  · rw [parseMembers_skip, bind_eq_ok] at hread
    obtain ⟨⟨fields, after⟩, hmembers, hread⟩ := hread
    rw [pure_eq_ok, Prod.mk.injEq] at hread
    obtain ⟨rfl, rfl⟩ := hread
    have hempty : (([] : List (Text × LuaValue)).map Prod.fst).Nodup := List.nodup_nil
    obtain ⟨members, hne, hspaced, hkeys, hdistinct, hreads, rfl, rfl⟩ :=
      h.members hdepth hempty hmembers
    exact ⟨123 :: commas (members.map Member.text) ++ [125], by simp,
      .obj hne hspaced hkeys hdistinct hreads⟩

theorem Sound.succ_value {fuel : ℕ} (h : Sound fuel) {depth left : ℕ} {s rest : Text}
    {v : LuaValue} (hdepth : depth + left = MAX_DEPTH)
    (hread : parseValue (fuel + 1) depth s = .ok (v, rest)) :
    ∃ before body, Space before ∧ s = before ++ body ++ rest ∧ Reads left body v := by
  obtain ⟨before, hbefore, hs⟩ := exists_skipped s
  suffices hbody : ∃ body, skipSpace s = body ++ rest ∧ Reads left body v by
    obtain ⟨body, hskip, hbody⟩ := hbody
    exact ⟨before, body, hbefore, by rw [List.append_assoc, ← hskip, ← hs], hbody⟩
  rw [parseValue] at hread
  split at hread
  · next inside hopen =>
    split at hread
    · cases hread
    · next hroom =>
      obtain ⟨left, rfl⟩ : ∃ less, left = less + 1 := ⟨left - 1, by omega⟩
      rw [hopen]
      exact h.obj (by omega) hread
  · next inside hopen =>
    split at hread
    · cases hread
    · next hroom =>
      obtain ⟨left, rfl⟩ : ∃ less, left = less + 1 := ⟨left - 1, by omega⟩
      rw [hopen]
      exact h.arr (by omega) hread
  · exact parseScalar_sound hread left

theorem Sound.succ_items {fuel : ℕ} (h : Sound fuel) {depth left : ℕ} {s rest : Text}
    {values : List LuaValue} (hdepth : depth + left = MAX_DEPTH)
    (hread : parseItems (fuel + 1) depth s = .ok (values, rest)) :
    ∃ slots : List (Slot Double), slots ≠ [] ∧ (∀ slot ∈ slots, slot.Spaced) ∧
      (∀ slot ∈ slots, Reads left slot.body slot.value) ∧ values = slots.map Slot.value ∧
      s = commas (slots.map Slot.text) ++ 93 :: rest := by
  rw [parseItems, bind_eq_ok] at hread
  obtain ⟨⟨value, mid⟩, hvalue, hread⟩ := hread
  obtain ⟨slot, hspaced, hreads, rfl, hs⟩ := h.slot hdepth hvalue
  dsimp only at hread
  split at hread
  · next after hclose =>
    rw [pure_eq_ok, Prod.mk.injEq] at hread
    obtain ⟨rfl, rfl⟩ := hread
    rw [hclose] at hs
    exact ⟨[slot], List.cons_ne_nil _ _, by simpa using hspaced, by simpa using hreads, rfl, hs⟩
  · next after hcomma =>
    rw [bind_eq_ok] at hread
    obtain ⟨⟨others, last⟩, hitems, hread⟩ := hread
    rw [pure_eq_ok, Prod.mk.injEq] at hread
    obtain ⟨rfl, rfl⟩ := hread
    obtain ⟨slots, hne, hspacedAll, hreadsAll, rfl, rfl⟩ := h.items hdepth hitems
    refine ⟨slot :: slots, List.cons_ne_nil _ _, List.forall_mem_cons.mpr ⟨hspaced, hspacedAll⟩,
      List.forall_mem_cons.mpr ⟨hreads, hreadsAll⟩, rfl, ?_⟩
    rw [hs, hcomma, List.map_cons, commas_cons _ (by simpa using hne)]
    simp
  · cases hread

theorem Sound.succ_members {fuel : ℕ} (h : Sound fuel) {depth left : ℕ}
    {result fields : List (Text × LuaValue)} {s rest : Text}
    (hdepth : depth + left = MAX_DEPTH) (hnodup : (result.map Prod.fst).Nodup)
    (hread : parseMembers (fuel + 1) depth result s = .ok (fields, rest)) :
    ∃ members : List (Member Double), members ≠ [] ∧ (∀ m ∈ members, m.Spaced) ∧
      (∀ m ∈ members, ByteString m.key m.name) ∧
      (result.map Prod.fst ++ members.map Member.name).Nodup ∧
      (∀ m ∈ members, Reads left m.slot.body m.slot.value) ∧
      fields = result ++ members.map (fun m => (m.name, m.slot.value)) ∧
      s = commas (members.map Member.text) ++ 125 :: rest := by
  rw [parseMembers, bind_eq_ok] at hread
  obtain ⟨⟨name, start⟩, hkey, hread⟩ := hread
  obtain ⟨before, key, after, hbefore, hafter, hstring, hnew, rfl⟩ := parseKey_sound hkey
  rw [bind_eq_ok] at hread
  obtain ⟨⟨value, mid⟩, hvalue, hread⟩ := hread
  obtain ⟨slot, hspaced, hreads, rfl, hstart⟩ := h.slot hdepth hvalue
  have hnames : (result.map Prod.fst ++ [name]).Nodup := by
    rw [List.nodup_append]
    refine ⟨hnodup, List.nodup_singleton name, ?_⟩
    rintro other hother _ hname rfl
    rw [List.mem_singleton.mp hname] at hother
    exact hnew hother
  have hm : (⟨before, key, name, after, slot⟩ : Member Double).Spaced :=
    ⟨hbefore, hafter, hspaced⟩
  dsimp only at hread hstart
  split at hread
  · next closed hclose =>
    rw [pure_eq_ok, Prod.mk.injEq] at hread
    obtain ⟨rfl, rfl⟩ := hread
    rw [hclose] at hstart
    refine ⟨[⟨before, key, name, after, slot⟩], List.cons_ne_nil _ _, by simpa using hm,
      by simpa using hstring, hnames, by simpa using hreads, rfl, ?_⟩
    rw [hstart]
    simp [commas, Member.text]
  · next more hcomma =>
    have hresult : ((result ++ [(name, slot.value)]).map Prod.fst).Nodup := by
      simpa using hnames
    obtain ⟨members, hne, hspacedAll, hkeys, hdistinct, hreadsAll, rfl, rfl⟩ :=
      h.members hdepth hresult hread
    refine ⟨⟨before, key, name, after, slot⟩ :: members, List.cons_ne_nil _ _,
      List.forall_mem_cons.mpr ⟨hm, hspacedAll⟩, List.forall_mem_cons.mpr ⟨hstring, hkeys⟩,
      by simpa using hdistinct, List.forall_mem_cons.mpr ⟨hreads, hreadsAll⟩, by simp, ?_⟩
    rw [hstart, hcomma, List.map_cons, commas_cons _ (by simpa using hne)]
    simp [Member.text]
  · cases hread

theorem sound (fuel : ℕ) : Sound fuel := by
  induction fuel with
  | zero => exact Sound.zero
  | succ fuel ih => exact ⟨ih.succ_value, ih.succ_items, ih.succ_members⟩

end Lua

end Displays

end CybexOS
