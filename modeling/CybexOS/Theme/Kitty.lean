/-
The terminal's colours (`theme_kitty.py`), one line for each setting.
-/
import CybexOS.Decimal
import CybexOS.Theme.Tokens

namespace CybexOS

namespace Theme

namespace Kitty

def HEADER : Text :=
  ["# Generated by theme-apply.py (scripts/theme_kitty.py) from the shell's\n",
    "# appearance tokens. Rewritten whenever the appearance changes: put colour\n",
    "# overrides in ~/.config/kitty/kitty.conf after the CYBEXOS MANAGED INCLUDE\n",
    "# block instead.\n"].flatMap ascii

/-- The settings of the marks, each with its own ink. -/
def marks (arithmetic : Arithmetic) (fills : List Text) : List (Text × Text) :=
  (fills.zipIdx 1).flatMap fun fill =>
    [(ascii "mark" ++ digitsOf fill.2 ++ ascii "_foreground", arithmetic.foregroundFor fill.1),
      (ascii "mark" ++ digitsOf fill.2 ++ ascii "_background", fill.1)]

def settings (arithmetic : Arithmetic) (tokens : Tokens) : List (Text × Text) :=
  let background := tokens.colors .background
  let text := tokens.colors .text
  let accent := tokens.colors .accent
  let accentText := arithmetic.ensureContrast (tokens.colors .accentText) background (9 / 2)
  let selection := tokens.colors .accentContainer
  [(ascii "foreground", text),
    (ascii "background", background),
    (ascii "selection_foreground", arithmetic.foregroundFor selection),
    (ascii "selection_background", selection),
    (ascii "cursor", accentText),
    (ascii "cursor_text_color", background),
    (ascii "url_color", accentText),
    (ascii "active_tab_foreground", tokens.colors .onAccent),
    (ascii "active_tab_background", accent),
    (ascii "inactive_tab_foreground", tokens.colors .textMuted),
    (ascii "inactive_tab_background", tokens.colors .surface),
    (ascii "tab_bar_background", background),
    (ascii "active_border_color", accentText),
    (ascii "inactive_border_color", tokens.colors .stroke),
    (ascii "bell_border_color", tokens.colors .amber)] ++
    marks arithmetic [accent, tokens.colors .amber, tokens.colors .red] ++
    (ansiPalette arithmetic tokens).zipIdx.map fun color =>
      (ascii "color" ++ digitsOf color.2, color.1)

/-- `f'{key} {value}'` -/
def line (pair : Text × Text) : Text := pair.1 ++ 32 :: pair.2

def render (arithmetic : Arithmetic) (tokens : Tokens) : Text :=
  HEADER ++ (settings arithmetic tokens).flatMap fun pair => line pair ++ [10]

end Kitty

/-- The lines of a text, each of which ends with a line break. -/
def linesOf : Text → List Text
  | [] => []
  | c :: rest =>
      if c = 10 then [] :: linesOf rest
      else
        match linesOf rest with
        | [] => [[c]]
        | line :: lines => (c :: line) :: lines

end Theme

end CybexOS
