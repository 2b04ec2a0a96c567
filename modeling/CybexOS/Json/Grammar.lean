/-
The grammar of JSON texts (RFC 8259) as a relation between what is written and
what it denotes, open in how strings and numbers are taken.
-/
import CybexOS.Json.Print
import CybexOS.Json.Value
import CybexOS.Utf8

namespace CybexOS

namespace Json

/-- Space between tokens. -/
def Space (s : Text) : Prop := s.all isSpace = true

/-! ### Numbers -/

/-- One or more digits. -/
def Digits (s : Text) : Prop := s ≠ [] ∧ s.all isDigit = true

/-- Digits without a leading zero. -/
def Whole (s : Text) : Prop := Digits s ∧ (1 < s.length → s.head? ≠ some 48)

inductive FracText : Text → Text → Prop
  | none : FracText [] []
  | digits {digits : Text} (h : Digits digits) : FracText (46 :: digits) digits

inductive SignText : Text → Option Bool → Prop
  | none : SignText [] none
  | plus : SignText [43] (some false)
  | minus : SignText [45] (some true)

inductive ExpText : Text → Option (Option Bool × Text) → Prop
  | none : ExpText [] none
  | digits {mark : Nat} (hmark : mark = 101 ∨ mark = 69) {signText : Text}
      {sign : Option Bool} (hsign : SignText signText sign) {digits : Text}
      (h : Digits digits) : ExpText (mark :: signText ++ digits) (some (sign, digits))

/-- `number = [ minus ] int [ frac ] [ exp ]` -/
inductive IsNumeral : Text → Numeral → Prop
  | mk (neg : Bool) {whole fracText frac expText : Text}
      {exp : Option (Option Bool × Text)} (hwhole : Whole whole)
      (hfrac : FracText fracText frac) (hexp : ExpText expText exp) :
      IsNumeral ((if neg then [45] else []) ++ whole ++ fracText ++ expText)
        ⟨neg, whole, frac, exp⟩

/-! ### Strings -/

/-- What stands between two quotes, character by character: one that is not
escaped, a short escape, a code point by its digits, or a surrogate pair. -/
inductive Chars (plain : Text → Text → Prop) (spell : Nat → Text) : Text → Text → Prop
  | nil : Chars plain spell [] []
  | plain {char out s text : Text} (h : plain char out) (hrest : Chars plain spell s text) :
      Chars plain spell (char ++ s) (out ++ text)
  | short {e unit : Nat} {s text : Text} (h : shortEscape e = some unit)
      (hrest : Chars plain spell s text) : Chars plain spell (92 :: e :: s) (spell unit ++ text)
  | unit {a b c d code : Nat} {s text : Text} (h : hexValue4 a b c d = some code)
      (hscalar : Utf8.isScalar code = true) (hrest : Chars plain spell s text) :
      Chars plain spell (92 :: 117 :: a :: b :: c :: d :: s) (spell code ++ text)
  | pair {a b c d high a' b' c' d' low : Nat} {s text : Text}
      (hhigh : hexValue4 a b c d = some high) (hh : 0xd800 ≤ high ∧ high ≤ 0xdbff)
      (hlow : hexValue4 a' b' c' d' = some low) (hl : 0xdc00 ≤ low ∧ low ≤ 0xdfff)
      (hrest : Chars plain spell s text) :
      Chars plain spell
        (92 :: 117 :: a :: b :: c :: d :: 92 :: 117 :: a' :: b' :: c' :: d' :: s)
        (spell (0x10000 + (high - 0xd800) * 0x400 + (low - 0xdc00)) ++ text)

theorem hexValue_lt {c value : Nat} (h : hexValue c = some value) : value < 16 := by
  unfold hexValue at h
  split_ifs at h <;> obtain rfl := Option.some.inj h <;> omega

theorem hexValue4_lt {a b c d code : Nat} (h : hexValue4 a b c d = some code) :
    code < 65536 := by
  unfold hexValue4 at h
  split at h
  · next w x y z hw hx hy hz =>
    obtain rfl := Option.some.inj h
    have := hexValue_lt hw
    have := hexValue_lt hx
    have := hexValue_lt hy
    have := hexValue_lt hz
    omega
  · cases h

/-- `unescaped = %x20-21 / %x23-5B / %x5D-10FFFF` -/
def isUnescaped (c : Nat) : Bool := 32 ≤ c && c != 34 && c != 92

/-- The bytes of one character that is not escaped, and its code point. -/
def Unescaped (char out : Text) : Prop :=
  ∃ c, isUnescaped c = true ∧ Utf8.isScalar c = true ∧ char = Utf8.encodeChar c ∧ out = [c]

/-- The bytes between two quotes that denote this text of code points. -/
def DenotesText (s text : Text) : Prop := Chars Unescaped (fun code => [code]) s text

/-- The bytes between two quotes, and the UTF-8 of the text they denote. -/
def IsString (s bytes : Text) : Prop :=
  ∃ text, DenotesText s text ∧ bytes = text.flatMap Utf8.encodeChar

/-! ### Values -/

/-- A value with the space around it. -/
structure Slot (N : Type) where
  before : Text
  body : Text
  after : Text
  value : Value N

/-- A member of an object: space, its key between quotes and what it denotes,
and after the colon its value. -/
structure Member (N : Type) where
  before : Text
  key : Text
  name : Text
  after : Text
  slot : Slot N

section

variable {N : Type}

def Slot.text (slot : Slot N) : Text := slot.before ++ slot.body ++ slot.after

def Slot.Spaced (slot : Slot N) : Prop := Space slot.before ∧ Space slot.after

def Member.text (m : Member N) : Text :=
  m.before ++ 34 :: m.key ++ 34 :: m.after ++ 58 :: m.slot.text

def Member.Spaced (m : Member N) : Prop := Space m.before ∧ Space m.after ∧ m.slot.Spaced

/-- Texts with commas between them. -/
def commas : List Text → Text
  | [] => []
  | [text] => text
  | text :: next :: rest => text ++ 44 :: commas (next :: rest)

/-- The texts of values that nest at most so deep, and what they denote: keys
are distinct once read, and every number is worth something. -/
inductive Denotes (string : Text → Text → Prop) (number : Numeral → Option N) :
    ℕ → Text → Value N → Prop
  | null (depth : ℕ) : Denotes string number depth (ascii "null") .null
  | bool (depth : ℕ) (value : Bool) :
      Denotes string number depth (ascii (if value then "true" else "false")) (.bool value)
  | num (depth : ℕ) {body : Text} {numeral : Numeral} {n : N} (h : IsNumeral body numeral)
      (hworth : number numeral = some n) : Denotes string number depth body (.num n)
  | str (depth : ℕ) {body text : Text} (h : string body text) :
      Denotes string number depth (34 :: body ++ [34]) (.str text)
  | emptyArr (depth : ℕ) {space : Text} (h : Space space) :
      Denotes string number (depth + 1) (91 :: space ++ [93]) (.arr [])
  | arr {depth : ℕ} {slots : List (Slot N)} (hne : slots ≠ [])
      (hspaced : ∀ slot ∈ slots, slot.Spaced)
      (h : ∀ slot ∈ slots, Denotes string number depth slot.body slot.value) :
      Denotes string number (depth + 1) (91 :: commas (slots.map Slot.text) ++ [93])
        (.arr (slots.map Slot.value))
  | emptyObj (depth : ℕ) {space : Text} (h : Space space) :
      Denotes string number (depth + 1) (123 :: space ++ [125]) (.obj [])
  | obj {depth : ℕ} {members : List (Member N)} (hne : members ≠ [])
      (hspaced : ∀ m ∈ members, m.Spaced) (hkeys : ∀ m ∈ members, string m.key m.name)
      (hdistinct : (members.map Member.name).Nodup)
      (h : ∀ m ∈ members, Denotes string number depth m.slot.body m.slot.value) :
      Denotes string number (depth + 1) (123 :: commas (members.map Member.text) ++ [125])
        (.obj (members.map fun m => (m.name, m.slot.value)))

/-- `JSON-text = ws value ws` -/
def DenotesWhole (string : Text → Text → Prop) (number : Numeral → Option N) (depth : ℕ)
    (text : Text) (value : Value N) : Prop :=
  ∃ slot : Slot N, text = slot.text ∧ slot.Spaced ∧
    Denotes string number depth slot.body slot.value ∧ slot.value = value

end

/-- More strings, more texts. -/
theorem Denotes.mono {N : Type} {string string' : Text → Text → Prop}
    {number : Numeral → Option N} (hstring : ∀ s out, string s out → string' s out)
    {depth : ℕ} {body : Text} {v : Value N} (h : Denotes string number depth body v) :
    Denotes string' number depth body v := by
  induction h with
  | null depth => exact .null depth
  | bool depth value => exact .bool depth value
  | num depth h hworth => exact .num depth h hworth
  | str depth h => exact .str depth (hstring _ _ h)
  | emptyArr depth h => exact .emptyArr depth h
  | arr hne hspaced _ ih => exact .arr hne hspaced ih
  | emptyObj depth h => exact .emptyObj depth h
  | obj hne hspaced hkeys hdistinct _ ih =>
      exact .obj hne hspaced (fun m hm => hstring _ _ (hkeys m hm)) hdistinct ih

/-! ### Space -/

theorem space_nil : Space [] := rfl

theorem Space.skip {space : Text} (h : Space space) (s : Text) :
    skipSpace (space ++ s) = skipSpace s := skipSpace_append h s

theorem exists_skipped (s : Text) : ∃ space, Space space ∧ s = space ++ skipSpace s :=
  ⟨s.takeWhile isSpace, List.all_eq_true.mpr fun _ hc => List.mem_takeWhile_imp hc,
    List.takeWhile_append_dropWhile.symm⟩

theorem skipSpace_skipSpace (s : Text) : skipSpace (skipSpace s) = skipSpace s := by
  obtain ⟨space, hspace, hs⟩ := exists_skipped s
  conv_rhs => rw [hs]
  exact (hspace.skip _).symm

theorem skipSpace_space {space : Text} (h : Space space) : skipSpace space = [] := by
  have hskip := h.skip []
  rwa [List.append_nil] at hskip

/-- Space, and what comes after a value, do not continue a number. -/
theorem endsNumber_space {space : Text} (h : Space space) {c : Nat}
    (hc : c = 44 ∨ c = 93 ∨ c = 125) (rest : Text) : EndsNumber (space ++ c :: rest) := by
  intro first hfirst
  cases space with
  | nil =>
      obtain rfl := Option.some.inj hfirst
      rcases hc with rfl | rfl | rfl <;> decide
  | cons other space =>
      obtain rfl := Option.some.inj hfirst
      have hspace := List.all_eq_true.mp h other List.mem_cons_self
      simp only [isSpace, Bool.or_eq_true, beq_iff_eq] at hspace
      rcases hspace with ((rfl | rfl) | rfl) | rfl <;> decide

theorem endsNumber_end {space : Text} (h : Space space) : EndsNumber space := by
  intro first hfirst
  cases space with
  | nil => cases hfirst
  | cons other space =>
      obtain rfl := Option.some.inj hfirst
      have hspace := List.all_eq_true.mp h other List.mem_cons_self
      simp only [isSpace, Bool.or_eq_true, beq_iff_eq] at hspace
      rcases hspace with ((rfl | rfl) | rfl) | rfl <;> decide

theorem commas_cons (text : Text) {rest : List Text} (h : rest ≠ []) :
    commas (text :: rest) = text ++ 44 :: commas rest := by
  cases rest with
  | nil => exact absurd rfl h
  | cons next rest => rfl

/-! ### Numerals are read exactly -/

theorem Digits.takeWhile {digits : Text} (h : Digits digits) {rest : Text}
    (hrest : ∀ c ∈ rest.head?, isDigit c = false) :
    (digits ++ rest).takeWhile isDigit = digits ∧ (digits ++ rest).dropWhile isDigit = rest :=
  ⟨takeWhile_digits h.2 hrest, dropWhile_digits h.2 hrest⟩

theorem Digits.head {digits : Text} (h : Digits digits) (rest : Text) :
    ∃ c tail, digits ++ rest = c :: tail ∧ isDigit c = true := by
  obtain ⟨c, tail, rfl⟩ := List.exists_cons_of_ne_nil h.1
  exact ⟨c, tail ++ rest, rfl, List.all_eq_true.mp h.2 c List.mem_cons_self⟩

theorem ExpText.head {expText : Text} {exp : Option (Option Bool × Text)}
    (h : ExpText expText exp) {rest : Text} (hrest : EndsNumber rest) :
    ∀ c ∈ (expText ++ rest).head?, isDigit c = false ∧ c ≠ 46 := by
  intro c hc
  cases h with
  | none => exact ⟨(hrest c hc).1, (hrest c hc).2.1⟩
  | digits hmark =>
      rw [List.append_assoc, List.cons_append, List.head?_cons, Option.mem_some_iff] at hc
      rcases hmark with rfl | rfl <;> subst hc <;> decide

theorem FracText.head {fracText frac expText : Text} (h : FracText fracText frac)
    (hrest : ∀ c ∈ expText.head?, isDigit c = false ∧ c ≠ 46) :
    ∀ c ∈ (fracText ++ expText).head?, isDigit c = false := by
  intro c hc
  cases h with
  | none => exact (hrest c hc).1
  | digits =>
      rw [List.cons_append, List.head?_cons, Option.mem_some_iff] at hc
      subst hc
      decide

theorem parseExp_of {expText : Text} {exp : Option (Option Bool × Text)}
    (h : ExpText expText exp) {rest : Text} (hrest : EndsNumber rest) :
    parseExp (expText ++ rest) = some (exp, rest) := by
  cases h with
  | none => exact @parseExp_printExp none (by simp) rest hrest
  | @digits mark hmark signText sign hsign digits hdigits =>
      have hread := hdigits.takeWhile fun c hc => (hrest c hc).1
      have hsigned : parseExpSign (signText ++ digits ++ rest) = (sign, digits ++ rest) := by
        cases hsign with
        | none =>
            obtain ⟨c, tail, hcons, hc⟩ := hdigits.head rest
            have hplus : c ≠ 43 := by rintro rfl; simp [isDigit] at hc
            have hminus : c ≠ 45 := by rintro rfl; simp [isDigit] at hc
            rw [List.nil_append, hcons, parseExpSign]
            · intro _ heq
              exact hplus (List.cons.inj heq).1
            · intro _ heq
              exact hminus (List.cons.inj heq).1
        | plus => rfl
        | minus => rfl
      rw [List.cons_append, List.cons_append, parseExp, if_pos hmark]
      dsimp only
      rw [hsigned]
      dsimp only
      rw [hread.1, hread.2, if_neg hdigits.1]

theorem parseFrac_of {fracText frac : Text} (h : FracText fracText frac) {rest : Text}
    (hrest : ∀ c ∈ rest.head?, isDigit c = false ∧ c ≠ 46) :
    parseFrac (fracText ++ rest) = some (frac, rest) := by
  cases h with
  | none => exact @parseFrac_printFrac [] rfl rest hrest
  | digits h =>
      have hread := h.takeWhile fun c hc => (hrest c hc).1
      rw [List.cons_append, parseFrac, hread.1, hread.2, if_neg h.1]

/-- What is written as a number is read as that number, where it ends. -/
theorem parseNumeral_of {body : Text} {numeral : Numeral} (h : IsNumeral body numeral)
    {rest : Text} (hrest : EndsNumber rest) :
    parseNumeral (body ++ rest) = some (numeral, rest) := by
  cases h with
  | @mk neg whole fracText frac expText exp hwhole hfrac hexp =>
      have hexpHead := hexp.head hrest
      have hfracHead := hfrac.head hexpHead
      have hread := hwhole.1.takeWhile hfracHead
      have hminus : parseMinus ((if neg then [45] else []) ++ whole ++ fracText ++ expText ++
          rest) = (neg, whole ++ (fracText ++ (expText ++ rest))) := by
        cases neg with
        | true => simp [parseMinus]
        | false =>
            obtain ⟨c, tail, hcons, hc⟩ := hwhole.1.head (fracText ++ (expText ++ rest))
            have hne : c ≠ 45 := by rintro rfl; simp [isDigit] at hc
            simp only [Bool.false_eq_true, if_false, List.nil_append, List.append_assoc, hcons]
            rw [parseMinus]
            intro _ heq
            exact hne (List.cons.inj heq).1
      have hparse : parseWhole (whole ++ (fracText ++ (expText ++ rest))) =
          some (whole, fracText ++ (expText ++ rest)) := by
        unfold parseWhole
        dsimp only
        rw [hread.1, hread.2, if_neg]
        rintro (hempty | ⟨hlong, hzero⟩)
        · exact hwhole.1.1 hempty
        · exact hwhole.2 hlong hzero
      simp only [parseNumeral, hminus, hparse, Option.bind_some, parseFrac_of hfrac hexpHead,
        parseExp_of hexp hrest, Option.map_some]

end Json

end CybexOS
