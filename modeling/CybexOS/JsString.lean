/-
String helpers of ECMAScript over UTF-16 code units.
-/
import CybexOS.Text

namespace CybexOS

/-- `\s`, the white space and line terminators that `trim` strips too. -/
def isJsSpace (c : Nat) : Bool :=
  (9 ≤ c && c ≤ 13) || c == 32 || c == 160 || c == 0x1680 ||
    (0x2000 ≤ c && c ≤ 0x200a) || c == 0x2028 || c == 0x2029 || c == 0x202f ||
    c == 0x205f || c == 0x3000 || c == 0xfeff

/-- `String.prototype.trim` -/
def jsTrim (s : Text) : Text := trimWith isJsSpace s

/-- `replace(/[\u0000-\u001f\u007f]/g, " ")` -/
def blankControls (s : Text) : Text :=
  s.map fun c => if c < 32 ∨ c = 127 then 32 else c

/-- `replace(/\s+/g, " ")`; the flag says a run has been written already. -/
def collapseSpaces (inRun : Bool) : Text → Text
  | [] => []
  | c :: rest =>
      if isJsSpace c then
        if inRun then collapseSpaces true rest else 32 :: collapseSpaces true rest
      else c :: collapseSpaces false rest

/-- What follows a prefix, when the text starts with it. -/
def afterPrefix (pre s : Text) : Option Text :=
  if pre.isPrefixOf s then some (s.drop pre.length) else none

/-- `replace` with a global pattern: `matcher` gives the replacement and the
length of a match at the start of a text; scanning goes on after the match. -/
def replaceAll (matcher : Text → Option (Text × Nat)) : Nat → Text → Text
  | _, [] => []
  | skip + 1, _ :: rest => replaceAll matcher skip rest
  | 0, c :: rest =>
      match matcher (c :: rest) with
      | some (out, length) => out ++ replaceAll matcher (length - 1) rest
      | none => c :: replaceAll matcher 0 rest

end CybexOS
