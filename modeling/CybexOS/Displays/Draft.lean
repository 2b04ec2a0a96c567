/-
The Displays page's editable drafts and the rectangles they occupy
(`DisplayHelpers.js`).  Coordinates are whole logical pixels; sizes divide a
mode by its scale in binary64 and round.
-/
import CybexOS.Binary64
import CybexOS.Text

namespace CybexOS

namespace Displays

/-- `Math.round` -/
def mathRound (q : ℚ) : ℤ := ⌊q + 1 / 2⌋

/-- JavaScript's remainder, which takes the sign of the dividend. -/
def jsRem (a b : ℚ) : ℚ :=
  a - b * (if 0 ≤ a / b then ⌊a / b⌋ else ⌈a / b⌉)

structure Mode where
  width : ℚ
  height : ℚ
  refresh : ℚ
deriving DecidableEq, Repr

inductive ModeChoice where
  | preferred
  | size (mode : Mode)
deriving DecidableEq, Repr

inductive ScaleChoice where
  | auto
  | value (scale : ℚ)
deriving DecidableEq, Repr

/-- One editable draft per connected monitor. -/
structure Draft where
  key : Text
  name : Text
  label : Text := []
  description : Text := []
  enabled : Bool := true
  mode : ModeChoice := .preferred
  scale : ScaleChoice := .auto
  transform : ℚ := 0
  mirror : Text := []
  vrr : ℚ := -1
  x : ℤ := 0
  y : ℤ := 0
  liveWidth : ℚ := 1
  liveHeight : ℚ := 1
  liveScale : ℚ := 1
  availableModes : List Text := []
deriving DecidableEq, Repr

structure Rect where
  key : Text
  x : ℤ
  y : ℤ
  width : ℤ
  height : ℤ
deriving DecidableEq, Repr

/-- `modeSize` -/
def Draft.modeSize (draft : Draft) : ℚ × ℚ :=
  match draft.mode with
  | .preferred => (draft.liveWidth, draft.liveHeight)
  | .size mode => (mode.width, mode.height)

def Draft.scaleValue (draft : Draft) : ℚ :=
  let scale :=
    match draft.scale with
    | .auto => draft.liveScale
    | .value scale => scale
  if 0 < scale then scale else 1

/-- `logicalSize`: width and height swap for a 90 or 270 degree transform. -/
def Draft.logicalSize (draft : Draft) : ℤ × ℤ :=
  let width := mathRound (Binary64.nearest (draft.modeSize.1 / draft.scaleValue))
  let height := mathRound (Binary64.nearest (draft.modeSize.2 / draft.scaleValue))
  if jsRem draft.transform 2 = 1 then (height, width) else (width, height)

/-- On and not mirroring another output. -/
def Draft.isPlaced (draft : Draft) : Bool := draft.enabled && draft.mirror == []

def Draft.toRect (draft : Draft) : Rect where
  key := draft.key
  x := draft.x
  y := draft.y
  width := draft.logicalSize.1
  height := draft.logicalSize.2

/-- The outputs that occupy space in the layout. -/
def placed (drafts : List Draft) : List Draft := drafts.filter Draft.isPlaced

def rects (drafts : List Draft) : List Rect := (placed drafts).map Draft.toRect

def Overlaps (a b : Rect) : Prop :=
  a.x < b.x + b.width ∧ b.x < a.x + a.width ∧
    a.y < b.y + b.height ∧ b.y < a.y + a.height

instance : DecidableRel Overlaps := fun _ _ => inferInstanceAs (Decidable (_ ∧ _))

def Touches (a b : Rect) : Prop :=
  ((a.x + a.width = b.x ∨ b.x + b.width = a.x) ∧
      a.y < b.y + b.height ∧ b.y < a.y + a.height) ∨
    ((a.y + a.height = b.y ∨ b.y + b.height = a.y) ∧
      a.x < b.x + b.width ∧ b.x < a.x + a.width)

instance : DecidableRel Touches := fun _ _ => inferInstanceAs (Decidable (_ ∨ _))

theorem Overlaps.symm {a b : Rect} (h : Overlaps a b) : Overlaps b a :=
  ⟨h.2.1, h.1, h.2.2.2, h.2.2.1⟩

theorem Touches.symm {a b : Rect} (h : Touches a b) : Touches b a := by
  unfold Touches at *
  omega

end Displays

end CybexOS
