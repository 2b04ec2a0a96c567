/-
Note titles (`NotesHelpers.js`): one line of at most fifty characters, and the
title a note of the first schema takes from its body.
-/
import CybexOS.JsString
import CybexOS.Json.Js

namespace CybexOS

namespace Notes

open Json (isHighSurrogate isLowSurrogate)

def MAX_TITLE_LENGTH : Nat := 50

def UNTITLED_TITLE : Text := ascii "Untitled note"

/-! ### Normal titles -/

/-- The first characters of a text, a surrogate pair being one. -/
def takeCharacters : Nat → Text → Text
  | 0, _ => []
  | _ + 1, [] => []
  | _ + 1, [c] => [c]
  | n + 1, c :: d :: rest =>
      if isHighSurrogate c && isLowSurrogate d then
        c :: d :: takeCharacters n rest
      else c :: takeCharacters n (d :: rest)

def titleLength : Text → Nat
  | [] => 0
  | [_] => 1
  | c :: d :: rest =>
      if isHighSurrogate c && isLowSurrogate d then titleLength rest + 1
      else titleLength (d :: rest) + 1

def normalizeTitle (value : Text) : Text :=
  jsTrim (takeCharacters MAX_TITLE_LENGTH
    (jsTrim (collapseSpaces false (blankControls value))))

def validTitle (title : Text) : Bool :=
  title ≠ [] && titleLength title ≤ MAX_TITLE_LENGTH &&
    normalizeTitle title == title

/-! ### Titles of old notes -/

/-- `split(/\r?\n/)` -/
def splitLines : Text → List Text
  | [] => [[]]
  | 10 :: rest => [] :: splitLines rest
  | 13 :: 10 :: rest => [] :: splitLines rest
  | c :: rest =>
      match splitLines rest with
      | [] => [[c]]
      | line :: lines => (c :: line) :: lines

/-- `^(?:>\s*)+` -/
def stripQuote (line : Text) : Text :=
  if line.head? = some 62 then line.dropWhile fun c => c == 62 || isJsSpace c
  else line

/-- `^#{1,6}\s*` -/
def stripHeading (line : Text) : Text :=
  let marks := min 6 (line.takeWhile (· == 35)).length
  if marks = 0 then line else (line.drop marks).dropWhile isJsSpace

/-- `^(?:[-*+] |[0-9]+[.)] )` -/
def stripListMark (line : Text) : Text :=
  match line with
  | c :: 32 :: rest =>
      if c = 45 ∨ c = 42 ∨ c = 43 then rest else line
  | _ =>
      match line.takeWhile isDigit, line.dropWhile isDigit with
      | _ :: _, c :: 32 :: rest => if c = 46 ∨ c = 41 then rest else line
      | _, _ => line

/-- `^\[[ xX]\]\s*` -/
def stripCheckbox (line : Text) : Text :=
  match line with
  | 91 :: c :: 93 :: rest =>
      if c = 32 ∨ c = 120 ∨ c = 88 then rest.dropWhile isJsSpace else line
  | _ => line

/-- A label in brackets and a target in parentheses. -/
def matchLink (opener : Text) (minLabel : Nat) (s : Text) :
    Option (Text × Nat) :=
  (afterPrefix opener s).bind fun body =>
    let label := body.takeWhile (· != 93)
    match body.dropWhile (· != 93) with
    | 93 :: 40 :: rest =>
        let target := rest.takeWhile (· != 41)
        if label.length < minLabel ∨ target.length = rest.length then none
        else some (label, opener.length + label.length + target.length + 3)
    | _ => none

/-- `<[^>]+>` -/
def matchTag (s : Text) : Option (Text × Nat) :=
  match s with
  | 60 :: body =>
      let inner := body.takeWhile (· != 62)
      if inner = [] ∨ inner.length = body.length then none
      else some ([], inner.length + 2)
  | _ => none

/-- A backslash before Markdown punctuation. -/
def matchEscape (s : Text) : Option (Text × Nat) :=
  match s with
  | 92 :: c :: _ =>
      if c ∈ [92, 96, 42, 123, 125, 91, 93, 40, 41, 35, 43, 46, 33, 95, 62, 126, 45]
      then some ([c], 2) else none
  | _ => none

/-- A line without prose: blank, a code fence or a thematic break. -/
def isDecoration (line : Text) : Bool :=
  line == [] || [96, 96, 96].isPrefixOf line || [126, 126, 126].isPrefixOf line ||
    (3 ≤ line.length &&
      (line.all (· == 45) || line.all (· == 42) || line.all (· == 95)))

/-- A line without its Markdown decorations. -/
def plainLine (line : Text) : Text :=
  let line := stripCheckbox (stripListMark (stripHeading (stripQuote line)))
  let line := replaceAll (matchLink [33, 91] 0) 0 line
  let line := replaceAll (matchLink [91] 1) 0 line
  let line := replaceAll matchEscape 0 (replaceAll matchTag 0 line)
  line.filter fun c => !(c == 96 || c == 42 || c == 95 || c == 126)

def fallbackTitleFrom : List Text → Text
  | [] => UNTITLED_TITLE
  | line :: lines =>
      let line := jsTrim line
      if isDecoration line then fallbackTitleFrom lines
      else
        let title := normalizeTitle (plainLine line)
        if title = [] then fallbackTitleFrom lines else title

def fallbackTitle (body : Text) : Text := fallbackTitleFrom (splitLines body)

end Notes

end CybexOS
