/-
The JSON reader of `displays.lua`.  The cursor is what is left of the text; a
number is taken as binary64, also where Lua has integers of its own.
-/
import CybexOS.Displays.LuaValidate
import CybexOS.Excepts
import CybexOS.Json.Grammar

namespace CybexOS

namespace Displays

open Json

namespace Lua

def MAX_BYTES : ℕ := 262144

def MAX_DEPTH : ℕ := 16

/-- Why reading stopped: a message and what is left of the text there, or a
loop that went on for more rounds than it was given. -/
inductive Stop where
  | fails (message : Text) (rest : Text)
  | exhausted
deriving DecidableEq, Repr

def fail {α : Type} (message : String) (rest : Text) : Except Stop α :=
  .error (.fails (ascii message) rest)

/-! ### Strings -/

/-- `utf8_char` -/
def utf8Char (cp : ℕ) : Text :=
  if cp < 0x80 then [cp]
  else if cp < 0x800 then [0xc0 + cp / 0x40, 0x80 + cp % 0x40]
  else if cp < 0x10000 then
    [0xe0 + cp / 0x1000, 0x80 + cp / 0x40 % 0x40, 0x80 + cp % 0x40]
  else
    [0xf0 + cp / 0x40000, 0x80 + cp / 0x1000 % 0x40, 0x80 + cp / 0x40 % 0x40,
      0x80 + cp % 0x40]

/-- Not in the class `["\\\1-\31]`. -/
def isPlain (c : ℕ) : Bool := c != 34 && c != 92 && !(1 ≤ c && c ≤ 31)

/-- `^%x%x%x%x` and its value, and what follows. -/
def hexDigits : Text → Option (ℕ × Text)
  | a :: b :: c :: d :: rest => (hexValue4 a b c d).map fun cp => (cp, rest)
  | _ => none

/-- The value of `^\\u(%x%x%x%x)`, and what follows. -/
def matchLow : Text → Option (ℕ × Text)
  | 92 :: 117 :: rest => hexDigits rest
  | _ => none

/-- The character of an escape `\u` at `start`, its digits first in `digits`. -/
def parseUnicode (start digits : Text) : Except Stop (Text × Text) :=
  match hexDigits digits with
  | none => fail "invalid unicode escape" start
  | some (cp, rest) =>
      if 0xd800 ≤ cp ∧ cp ≤ 0xdbff then
        match matchLow rest with
        | none => fail "unpaired surrogate" rest
        | some (low, after) =>
            if low < 0xdc00 ∨ 0xdfff < low then fail "unpaired surrogate" rest
            else .ok (utf8Char (0x10000 + (cp - 0xd800) * 0x400 + (low - 0xdc00)), after)
      else if 0xdc00 ≤ cp ∧ cp ≤ 0xdfff then fail "unpaired surrogate" rest
      else .ok (utf8Char cp, rest)

/-- The character of an escape at `start`, whose backslash is passed. -/
def parseEscape (start : Text) : Text → Except Stop (Text × Text)
  | [] => fail "invalid escape" start
  | e :: rest =>
      match shortEscape e with
      | some unit => .ok ([unit], rest)
      | none => if e = 117 then parseUnicode start rest else fail "invalid escape" start

/-- The loop of `parse_string` after the opening quote. -/
def parseString : ℕ → Text → Except Stop (Text × Text)
  | 0, _ => .error .exhausted
  | fuel + 1, s =>
      let chunk := s.takeWhile isPlain
      match s.dropWhile isPlain with
      | [] => fail "unterminated string" s
      | c :: after =>
          if 0 ∈ chunk then fail "control character in string" s
          else if c = 34 then .ok (chunk, after)
          else if c ≠ 92 then fail "control character in string" (c :: after)
          else do
            let (char, rest) ← parseEscape (c :: after) after
            let (tail, rest) ← parseString fuel rest
            pure (chunk ++ char ++ tail, rest)

/-! ### Numbers -/

/-- `^%.%d+` -/
def matchFraction : Text → Option Text
  | 46 :: rest =>
      if rest.takeWhile isDigit = [] then none else some (46 :: rest.takeWhile isDigit)
  | _ => none

/-- `[-+]?` -/
def matchSign : Text → Text
  | 43 :: _ => [43]
  | 45 :: _ => [45]
  | _ => []

def isMark (c : ℕ) : Bool := c == 101 || c == 69

/-- `^[eE][-+]?%d+` -/
def matchExponent : Text → Option Text
  | mark :: rest =>
      let digits := (rest.drop (matchSign rest).length).takeWhile isDigit
      if isMark mark ∧ digits ≠ [] then some (mark :: matchSign rest ++ digits) else none
  | [] => none

/-- `tonumber` of a decimal numeral. -/
def tonumber (text : Text) : Option Number :=
  match parseNumeral text with
  | some (numeral, []) => some numeral.toNumber
  | _ => none

/-- `text:match("^%-", pos) and 1 or 0` -/
def signLength (s : Text) : ℕ := if s.head? = some 45 then 1 else 0

def parseNumber (s : Text) : Except Stop (Double × Text) :=
  let sign := signLength s
  let digits := (s.drop sign).takeWhile isDigit
  if digits = [] then fail "invalid number" s
  else if 1 < digits.length ∧ digits.head? = some 48 then fail "leading zero" s
  else
    let whole := s.drop (sign + digits.length)
    let fraction := matchFraction whole
    if whole.head? = some 46 ∧ fraction = none then fail "invalid number" whole
    else
      let afterFraction := whole.drop (fraction.getD []).length
      let exponent := matchExponent afterFraction
      if (∃ c ∈ afterFraction.head?, isMark c = true) ∧ exponent = none then
        fail "invalid number" afterFraction
      else
        let rest := afterFraction.drop (exponent.getD []).length
        match tonumber (s.take (s.length - rest.length)) with
        | some (.fin d) => .ok (d, rest)
        | _ => fail "invalid number" rest

/-! ### Values -/

/-- `parse_array` over its loop, after the opening bracket. -/
def parseArray (items : Text → Except Stop (List LuaValue × Text)) (s : Text) :
    Except Stop (LuaValue × Text) :=
  match skipSpace s with
  | 93 :: rest => .ok (.arr [], rest)
  | opened => do
      let (values, rest) ← items opened
      pure (.arr values, rest)

/-- `parse_object` over its loop, after the opening brace. -/
def parseObject (members : Text → Except Stop (List (Text × LuaValue) × Text)) (s : Text) :
    Except Stop (LuaValue × Text) :=
  match skipSpace s with
  | 125 :: rest => .ok (.obj [], rest)
  | opened => do
      let (fields, rest) ← members opened
      pure (.obj fields, rest)

/-- The key of a member and what follows its colon. -/
def parseKey (result : List (Text × LuaValue)) (s : Text) : Except Stop (Text × Text) :=
  match skipSpace s with
  | 34 :: inside => do
      let (key, rest) ← parseString (inside.length + 1) inside
      if key ∈ result.map Prod.fst then fail "duplicate key" rest
      else
        match skipSpace rest with
        | 58 :: after => .ok (key, after)
        | other => fail "expected ':'" other
  | other => fail "expected a string key" other

/-- The words and numbers of `parse_value`. -/
def parseScalar (s : Text) : Except Stop (LuaValue × Text) :=
  match s with
  | 34 :: inside => do
      let (text, rest) ← parseString (inside.length + 1) inside
      pure (.str text, rest)
  | s =>
      if ∃ c ∈ s.head?, c = 45 ∨ isDigit c = true then do
        let (number, rest) ← parseNumber s
        pure (.num number, rest)
      else if s.take 4 = ascii "true" then .ok (.bool true, s.drop 4)
      else if s.take 5 = ascii "false" then .ok (.bool false, s.drop 5)
      else if s.take 4 = ascii "null" then .ok (.null, s.drop 4)
      else fail "unexpected input" s

mutual

/-- `parse_value` with this many containers open. -/
def parseValue : ℕ → ℕ → Text → Except Stop (LuaValue × Text)
  | 0, _, _ => .error .exhausted
  | fuel + 1, depth, s =>
      match skipSpace s with
      | 123 :: rest =>
          if MAX_DEPTH < depth + 1 then fail "nesting is too deep" (123 :: rest)
          else parseObject (parseMembers fuel (depth + 1) []) rest
      | 91 :: rest =>
          if MAX_DEPTH < depth + 1 then fail "nesting is too deep" (91 :: rest)
          else parseArray (parseItems fuel (depth + 1)) rest
      | scalar => parseScalar scalar

/-- The loop of `parse_array`. -/
def parseItems : ℕ → ℕ → Text → Except Stop (List LuaValue × Text)
  | 0, _, _ => .error .exhausted
  | fuel + 1, depth, s => do
      let (value, rest) ← parseValue fuel depth s
      match skipSpace rest with
      | 93 :: after => pure ([value], after)
      | 44 :: after => do
          let (values, rest) ← parseItems fuel depth after
          pure (value :: values, rest)
      | other => fail "expected ',' or ']'" other

/-- The loop of `parse_object`, which has stored `result`. -/
def parseMembers : ℕ → ℕ → List (Text × LuaValue) → Text →
    Except Stop (List (Text × LuaValue) × Text)
  | 0, _, _, _ => .error .exhausted
  | fuel + 1, depth, result, s => do
      let (key, rest) ← parseKey result s
      let (value, rest) ← parseValue fuel depth rest
      match skipSpace rest with
      | 125 :: after => pure (result ++ [(key, value)], after)
      | 44 :: after => parseMembers fuel depth (result ++ [(key, value)]) after
      | other => fail "expected ',' or '\x7d'" other

end

/-- One value and nothing but space after it. -/
def parseDocument (fuel : ℕ) (text : Text) : Except Stop LuaValue := do
  let (result, rest) ← parseValue fuel 0 text
  match skipSpace rest with
  | [] => pure result
  | other => fail "trailing data" other

/-- `M.decode` of a string: a value or an error; `none` if a loop did not end
within the rounds it was given. -/
def decode (text : Text) : Option (Except Text LuaValue) :=
  if MAX_BYTES < text.length then
    some (.error (ascii "the file is larger than 262144 bytes"))
  else
    match parseDocument (fuelFor text) text with
    | .ok value => some (.ok value)
    | .error (.fails message rest) =>
        some (.error (message ++ ascii " at byte " ++
          digitsOf (text.length - rest.length + 1)))
    | .error .exhausted => none

end Lua

end Displays

end CybexOS
