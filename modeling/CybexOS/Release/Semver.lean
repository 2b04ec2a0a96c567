/-
`scripts/semver`: which texts are versions, and how two versions compare.
-/
import CybexOS.Decimal
import CybexOS.Pattern
import Mathlib.Data.Prod.Lex

namespace CybexOS

namespace Semver

/-- `[1-9]` -/
def isPositive (c : ℕ) : Bool := 49 ≤ c && c ≤ 57

/-- `[A-Za-z-]` -/
def isLetter (c : ℕ) : Bool := isUpper c || isLower c || c == 45

/-- `[0-9A-Za-z-]` -/
def isWord (c : ℕ) : Bool := isDigit c || isLetter c

/-- `0|[1-9][0-9]*` -/
def number : Pattern := .alt (.char 48) (.seq (.unit isPositive) (.star (.unit isDigit)))

/-- `IDENTIFIER` -/
def identifier : Pattern :=
  .alt (.char 48) <| .alt (.seq (.unit isPositive) (.star (.unit isDigit))) <|
    .seq (.star (.unit isWord)) <| .seq (.unit isLetter) (.star (.unit isWord))

/-- `SEMVER`, whose `^` and `$` only say what `fullmatch` asks for. -/
def semver : Pattern :=
  .seq (.group 1 number) <| .seq (.char 46) <| .seq (.group 2 number) <| .seq (.char 46) <|
    .seq (.group 3 number) <|
    .seq (.optional (.seq (.char 45) (.group 4 (.separated 46 identifier)))) <|
    .optional (.seq (.char 43) (.group 5 (.separated 46 (.plus (.unit isWord)))))

inductive Failure where
  | valueError (value : Text)
deriving DecidableEq

/-- The three numbers, compared from left to right as tuples are. -/
abbrev Core := ℕ ×ₗ (ℕ ×ₗ ℕ)

/-- `int(match.group(index))` -/
def int (index : ℕ) (captures : Pattern.Captures) : ℕ :=
  decimal ((Pattern.captured index captures).getD [])

def parse (value : Text) : Except Failure (Core × Option (List Text)) :=
  match semver.fullmatch value with
  | none => .error (.valueError value)
  | some captures =>
      .ok (toLex (int 1 captures, toLex (int 2 captures, int 3 captures)),
        (Pattern.captured 4 captures).map (·.splitOn 46))

/-- `(left > right) - (left < right)` -/
def threeWay {α : Type} [LinearOrder α] (left right : α) : ℤ :=
  (if right < left then 1 else 0) - (if left < right then 1 else 0)

/-- `isdigit()` of the texts that the expression admits. -/
def isNumeric (id : Text) : Bool := !id.isEmpty && id.all isDigit

/-- One round of the loop, `none` when it goes on. -/
def compareIds (left right : Text) : Option ℤ :=
  if left = right then none
  else if isNumeric left ∧ isNumeric right then some (threeWay (decimal left) (decimal right))
  else if isNumeric left ≠ isNumeric right then some (if isNumeric left then -1 else 1)
  else some (threeWay left right)

def comparePre (left right : List Text) : ℤ :=
  ((left.zip right).findSome? fun ids => compareIds ids.1 ids.2).getD
    (threeWay left.length right.length)

def compare (left right : Text) : Except Failure ℤ := do
  let (leftCore, leftPre) ← parse left
  let (rightCore, rightPre) ← parse right
  if leftCore ≠ rightCore then pure (threeWay leftCore rightCore)
  else
    match leftPre, rightPre with
    | some leftPre, some rightPre => pure (comparePre leftPre rightPre)
    | _, _ =>
        pure ((if leftPre.isNone then 1 else 0) - (if rightPre.isNone then 1 else 0))

/-- The exit status of `semver validate`. -/
def validate (value : Text) : ℕ :=
  match parse value with
  | .ok _ => 0
  | .error _ => 1

/-- The exit status of `semver newer`. -/
def newer (candidate current : Text) : ℕ :=
  match compare candidate current with
  | .ok order => if order > 0 then 0 else 1
  | .error _ => 2

end Semver

end CybexOS
