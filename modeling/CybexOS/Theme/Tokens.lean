/-
The appearance as the shell exports it (`theme_tokens.py`): what is accepted of
an export, and the colours that the targets derive from it.
-/
import CybexOS.Json.Py

namespace CybexOS

namespace Theme

open Json (PyValue)

inductive Color where
  | background
  | surface
  | surfaceRaised
  | bar
  | text
  | textMuted
  | textDim
  | accent
  | onAccent
  | accentText
  | accentContainer
  | stroke
  | red
  | amber
  | green
deriving DecidableEq

/-- `COLOR_KEYS` -/
def Color.all : List Color :=
  [.background, .surface, .surfaceRaised, .bar, .text, .textMuted, .textDim, .accent, .onAccent,
    .accentText, .accentContainer, .stroke, .red, .amber, .green]

def Color.key : Color → Text
  | .background => ascii "background"
  | .surface => ascii "surface"
  | .surfaceRaised => ascii "surfaceRaised"
  | .bar => ascii "bar"
  | .text => ascii "text"
  | .textMuted => ascii "textMuted"
  | .textDim => ascii "textDim"
  | .accent => ascii "accent"
  | .onAccent => ascii "onAccent"
  | .accentText => ascii "accentText"
  | .accentContainer => ascii "accentContainer"
  | .stroke => ascii "stroke"
  | .red => ascii "red"
  | .amber => ascii "amber"
  | .green => ascii "green"

inductive Mode where
  | dark
  | light
deriving DecidableEq

inductive Source where
  | fixed
  | wallpaper
deriving DecidableEq

structure Tokens where
  mode : Mode
  source : Source
  colors : Color → Text
  ui : Text
  mono : Text
  radius : ℕ
  glass : Bool
  wallpaper : Text

/-- `TokenError`, by what it is about. -/
inductive TokenError where
  | notObject
  | version
  | mode
  | source
  | colorsMissing
  | fontMissing
  | radius
  | glass
  | color (color : Color)
  | font (key : Text)
deriving DecidableEq

/-! ### Checks -/

def isHexDigit (c : ℕ) : Bool := isDigit c || (97 ≤ c && c ≤ 102)

/-- `^body$`: the end of the text, or the line break that ends it. -/
def matchesLine (body : Text → Bool) (text : Text) : Bool :=
  body text || (text.getLast? == some 10 && body text.dropLast)

/-- `#[0-9a-f]{6}` -/
def isHexColor : Text → Bool
  | c :: digits => c == 35 && digits.length == 6 && digits.all isHexDigit
  | [] => false

/-- `HEX.match` -/
def isHex (text : Text) : Bool := matchesLine isHexColor text

/-- `[A-Za-z0-9 ._+-]{1,64}` -/
def isFamily (text : Text) : Bool :=
  1 ≤ text.length && text.length ≤ 64 &&
    text.all fun c => isAlnum c || c == 32 || c == 46 || c == 95 || c == 43 || c == 45

/-- `FONT.match` -/
def isFont (text : Text) : Bool := matchesLine isFamily text

def MAX_PATH : ℕ := 4096

section

-- `str.lower`
variable (lower : Text → Text)

/-- `_color` -/
def colorOf (value : Option PyValue) (color : Color) : Except TokenError Text :=
  match value with
  | some (.str text) => if isHex (lower text) then .ok (lower text) else .error (.color color)
  | _ => .error (.color color)

/-- `_font` -/
def fontOf (value : Option PyValue) (key : Text) : Except TokenError Text :=
  match value with
  | some (.str text) => if isFont text then .ok text else .error (.font key)
  | _ => .error (.font key)

/-- `_path` -/
def pathOf (value : Option PyValue) : Text :=
  match value with
  | some (.str text) =>
      if MAX_PATH < text.length ∨ text.head? ≠ some 47 ∨
          text.any (fun c => c < 32 || c == 34 || c == 92) then []
      else text
  | _ => []

/-- `value == 1`, which is so of `True` and `1.0` as well. -/
def isVersion : Option PyValue → Bool
  | some (.num (.int value)) => value == 1
  | some (.num (.float (.fin value))) => value.val == 1
  | some (.bool value) => value
  | _ => false

def isStr (value : Option PyValue) (text : String) : Bool :=
  match value with
  | some (.str held) => held == ascii text
  | _ => false

def demand (condition : Bool) (error : TokenError) : Except TokenError Unit :=
  if condition then .ok () else .error error

def modeOf (value : Option PyValue) : Except TokenError Mode :=
  if isStr value "dark" then .ok .dark
  else if isStr value "light" then .ok .light
  else .error .mode

def sourceOf (value : Option PyValue) : Except TokenError Source :=
  if isStr value "fixed" then .ok .fixed
  else if isStr value "wallpaper" then .ok .wallpaper
  else .error .source

def membersOf (value : Option PyValue) (error : TokenError) :
    Except TokenError (List (Text × PyValue)) :=
  match value with
  | some (.obj fields) => .ok fields
  | _ => .error error

def radiusOf : Option PyValue → Except TokenError ℕ
  | some (.num (.int value)) => if 0 ≤ value ∧ value ≤ 64 then .ok value.toNat else .error .radius
  | _ => .error .radius

def glassOf : Option PyValue → Except TokenError Bool
  | some (.bool value) => .ok value
  | _ => .error .glass

/-- The colours, checked in order. -/
def colorsOf (fields : List (Text × PyValue)) : List Color → Except TokenError (List (Color × Text))
  | [] => .ok []
  | color :: rest => do
      let text ← colorOf lower (fields.lookup color.key) color
      let others ← colorsOf fields rest
      pure ((color, text) :: others)

def validate (raw : PyValue) : Except TokenError Tokens := do
  let fields ← membersOf (some raw) .notObject
  demand (isVersion (fields.lookup (ascii "v"))) .version
  let mode ← modeOf (fields.lookup (ascii "mode"))
  let source ← sourceOf (fields.lookup (ascii "source"))
  let colors ← membersOf (fields.lookup (ascii "colors")) .colorsMissing
  let font ← membersOf (fields.lookup (ascii "font")) .fontMissing
  let radius ← radiusOf (fields.lookup (ascii "radius"))
  let glass ← glassOf (fields.lookup (ascii "glass"))
  let checked ← colorsOf lower colors Color.all
  let ui ← fontOf (font.lookup (ascii "ui")) (ascii "ui")
  let mono ← fontOf (font.lookup (ascii "mono")) (ascii "mono")
  pure
    { mode := mode
      source := source
      colors := fun color => (checked.lookup color).getD []
      ui := ui
      mono := mono
      radius := radius
      glass := glass
      wallpaper := pathOf (fields.lookup (ascii "wallpaper")) }

end

/-! ### Colour arithmetic -/

def hexUnit (digit : ℕ) : ℕ := if digit < 10 then digit + 48 else digit + 87

/-- `hex_color`, of channels that are integers already. -/
def hexColor (channels : ℕ × ℕ × ℕ) : Text :=
  35 :: [channels.1, channels.2.1, channels.2.2].flatMap fun channel =>
    [hexUnit (min channel 255 / 16), hexUnit (min channel 255 % 16)]

/-- What the derived colours come to in floating point. -/
structure Arithmetic where
  /-- `contrast(a, b) >= target` -/
  reads : Text → Text → ℚ → Bool
  /-- `contrast('#ffffff', background) >= contrast('#000000', background)` -/
  inksWhite : Text → Bool
  /-- The channels of `mix(start, end, amount)`. -/
  channels : Text → Text → ℚ → ℕ × ℕ × ℕ
  /-- The amount that the search of `ensure_contrast` comes to. -/
  least : Text → Text → ℚ → ℚ

namespace Arithmetic

variable (arithmetic : Arithmetic)

def mix (start stop : Text) (amount : ℚ) : Text := hexColor (arithmetic.channels start stop amount)

def foregroundFor (background : Text) : Text :=
  if arithmetic.inksWhite background then ascii "#ffffff" else ascii "#000000"

def ensureContrast (value background : Text) (target : ℚ) : Text :=
  if arithmetic.reads value background target then value
  else
    arithmetic.mix value (arithmetic.foregroundFor background)
      (arithmetic.least value background target)

end Arithmetic

/-! ### The terminal's palette -/

/-- The hues of a mode, and the bright ones. -/
def ANSI_HUES : Mode → List Text × List Text
  | .dark =>
      (["#e8837a", "#a3c98f", "#d3b47e", "#9ecbeb", "#c0a8dc", "#6ec2b2"].map ascii,
        ["#ffb3ab", "#b8dba5", "#e5cb98", "#b6dcf6", "#d4c0ec", "#8fd8ca"].map ascii)
  | .light =>
      (["#b3261e", "#2e7d32", "#8a5a00", "#1f5fbf", "#7a3fc0", "#0f766e"].map ascii,
        ["#d1242f", "#1a7f37", "#9a6700", "#0969da", "#8250df", "#1b7c83"].map ascii)

def ansiPalette (arithmetic : Arithmetic) (tokens : Tokens) : List Text :=
  let background := tokens.colors .background
  let text := tokens.colors .text
  let readable := (arithmetic.ensureContrast · background (9 / 2))
  let normal := (ANSI_HUES tokens.mode).1.map readable
  let bright := (ANSI_HUES tokens.mode).2.map readable
  match tokens.mode with
  | .dark =>
      [arithmetic.mix background text (1 / 10)] ++ normal ++ [tokens.colors .textMuted,
        arithmetic.ensureContrast (arithmetic.mix background text (2 / 5)) background 3] ++
        bright ++ [text]
  | .light =>
      [text] ++ normal ++ [arithmetic.ensureContrast (arithmetic.mix background text (9 / 20))
        background 3, tokens.colors .textDim] ++ bright ++
        [arithmetic.mix background text (1 / 4)]

end Theme

end CybexOS
