/-
Concrete syntax of JSON texts (RFC 8259) over code units.  A term keeps what
the readers of different languages interpret differently: numerals by their
digits and `\uXXXX` escapes by their value.
-/
import CybexOS.Text
import Mathlib.Data.Nat.Digits.Defs

namespace CybexOS

namespace Json

/-- One element of a string literal: a plain or shortly escaped unit, or the
value of a four-digit escape. -/
inductive Piece where
  | lit (unit : Nat)
  | hex (unit : Nat)
deriving Repr, DecidableEq

/-- The digits of a number literal; `frac` is empty when there is no point and
the exponent sign is `some true` for a minus. -/
structure Numeral where
  neg : Bool
  whole : Text
  frac : Text
  exp : Option (Option Bool × Text)
deriving Repr, DecidableEq

inductive Term where
  | null
  | bool (value : Bool)
  | num (numeral : Numeral)
  | str (pieces : List Piece)
  | arr (items : List Term)
  | obj (fields : List (List Piece × Term))
deriving Repr

/-! ### Reading -/

def isSpace (c : Nat) : Bool := c == 32 || c == 9 || c == 10 || c == 13

def skipSpace (s : Text) : Text := s.dropWhile isSpace

def hexValue (c : Nat) : Option Nat :=
  if 48 ≤ c ∧ c ≤ 57 then some (c - 48)
  else if 65 ≤ c ∧ c ≤ 70 then some (c - 55)
  else if 97 ≤ c ∧ c ≤ 102 then some (c - 87)
  else none

def hexValue4 (a b c d : Nat) : Option Nat :=
  match hexValue a, hexValue b, hexValue c, hexValue d with
  | some w, some x, some y, some z => some (((w * 16 + x) * 16 + y) * 16 + z)
  | _, _, _, _ => none

/-- The unit a two-character escape stands for. -/
def shortEscape : Nat → Option Nat
  | 34 => some 34
  | 92 => some 92
  | 47 => some 47
  | 98 => some 8
  | 102 => some 12
  | 110 => some 10
  | 114 => some 13
  | 116 => some 9
  | _ => none

/-- The pieces up to the closing quote, and what follows it. -/
def parsePieces : Text → Option (List Piece × Text)
  | [] => none
  | 34 :: rest => some ([], rest)
  | 92 :: 117 :: a :: b :: c :: d :: rest =>
      match hexValue4 a b c d with
      | none => none
      | some unit => (parsePieces rest).map fun r => (.hex unit :: r.1, r.2)
  | 92 :: e :: rest =>
      match shortEscape e with
      | none => none
      | some unit => (parsePieces rest).map fun r => (.lit unit :: r.1, r.2)
  | c :: rest =>
      if c < 32 then none
      else (parsePieces rest).map fun r => (.lit c :: r.1, r.2)

def parseMinus : Text → Bool × Text
  | 45 :: rest => (true, rest)
  | s => (false, s)

def parseWhole (s : Text) : Option (Text × Text) :=
  let digits := s.takeWhile isDigit
  if digits = [] ∨ (1 < digits.length ∧ digits.head? = some 48) then none
  else some (digits, s.dropWhile isDigit)

def parseFrac : Text → Option (Text × Text)
  | 46 :: rest =>
      if rest.takeWhile isDigit = [] then none
      else some (rest.takeWhile isDigit, rest.dropWhile isDigit)
  | s => some ([], s)

def parseExpSign : Text → Option Bool × Text
  | 43 :: rest => (some false, rest)
  | 45 :: rest => (some true, rest)
  | s => (none, s)

def parseExp : Text → Option (Option (Option Bool × Text) × Text)
  | [] => some (none, [])
  | c :: rest =>
      if c = 101 ∨ c = 69 then
        let signed := parseExpSign rest
        if signed.2.takeWhile isDigit = [] then none
        else some (some (signed.1, signed.2.takeWhile isDigit),
          signed.2.dropWhile isDigit)
      else some (none, c :: rest)

def parseNumeral (s : Text) : Option (Numeral × Text) :=
  (parseWhole (parseMinus s).2).bind fun whole =>
    (parseFrac whole.2).bind fun frac =>
      (parseExp frac.2).map fun exp =>
        (⟨(parseMinus s).1, whole.1, frac.1, exp.1⟩, exp.2)

mutual

/-- A value with its leading space, and what follows it. -/
def parseValue : Nat → Text → Option (Term × Text)
  | 0, _ => none
  | fuel + 1, s =>
      match skipSpace s with
      | 110 :: 117 :: 108 :: 108 :: rest => some (.null, rest)
      | 116 :: 114 :: 117 :: 101 :: rest => some (.bool true, rest)
      | 102 :: 97 :: 108 :: 115 :: 101 :: rest => some (.bool false, rest)
      | 34 :: rest => (parsePieces rest).map fun r => (.str r.1, r.2)
      | 91 :: rest =>
          match skipSpace rest with
          | 93 :: rest => some (.arr [], rest)
          | _ => (parseItems fuel rest).map fun r => (.arr r.1, r.2)
      | 123 :: rest =>
          match skipSpace rest with
          | 125 :: rest => some (.obj [], rest)
          | _ => (parseFields fuel rest).map fun r => (.obj r.1, r.2)
      | s => (parseNumeral s).map fun r => (.num r.1, r.2)

/-- The items of an array up to its closing bracket. -/
def parseItems : Nat → Text → Option (List Term × Text)
  | 0, _ => none
  | fuel + 1, s =>
      (parseValue fuel s).bind fun item =>
        match skipSpace item.2 with
        | 93 :: rest => some ([item.1], rest)
        | 44 :: rest =>
            (parseItems fuel rest).map fun r => (item.1 :: r.1, r.2)
        | _ => none

/-- The members of an object up to its closing brace. -/
def parseFields : Nat → Text → Option (List (List Piece × Term) × Text)
  | 0, _ => none
  | fuel + 1, s =>
      match skipSpace s with
      | 34 :: rest =>
          (parsePieces rest).bind fun key =>
            match skipSpace key.2 with
            | 58 :: rest =>
                (parseValue fuel rest).bind fun value =>
                  match skipSpace value.2 with
                  | 125 :: rest => some ([(key.1, value.1)], rest)
                  | 44 :: rest =>
                      (parseFields fuel rest).map fun r =>
                        ((key.1, value.1) :: r.1, r.2)
                  | _ => none
            | _ => none
      | _ => none

end

/-- Enough steps for a text of this length. -/
def fuelFor (s : Text) : Nat := 2 * s.length + 2

/-- A whole JSON text: one value and nothing but space after it. -/
def parse (s : Text) : Option Term :=
  (parseValue (fuelFor s) s).bind fun r =>
    if skipSpace r.2 = [] then some r.1 else none

end Json

end CybexOS
