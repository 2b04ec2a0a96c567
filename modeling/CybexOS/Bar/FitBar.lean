/-
`fitBar` of `LayoutHelpers.js`: which modules of a bar give up their detail text
or their place until its three lanes no longer collide.
-/
import CybexOS.Bar.MoveWidget
import Mathlib.Algebra.BigOperators.Group.List.Basic
import Mathlib.Algebra.Order.Ring.Rat
import Mathlib.Tactic.Linarith

namespace CybexOS

namespace Bar

open Settings (Column)

def COMPACT_ORDER : List Text :=
  ["media", "updates", "notifications", "t3", "hermes", "gh", "weather", "clock", "vol",
    "batt"].map ascii

def OVERFLOW_ORDER : List Text :=
  ["media", "updates", "gh", "t3", "hermes", "modelusage", "weather", "tray", "bt",
    "notifications", "indicators"].map ascii

inductive Side where
  | left
  | right
deriving DecidableEq

/-- A measured module, its missing numbers read as zero; `col` is `none` when it
names no lane. -/
structure Entry where
  id : Text
  col : Option Column
  saving : ℚ
  width : ℚ
  policy : Text
  centerSide : Text
deriving DecidableEq

def Entry.side (entry : Entry) : Side :=
  if entry.centerSide = ascii "left" then .left else .right

/-- `Math.max(0, entry.saving || 0)` -/
def Entry.amount (entry : Entry) : ℚ := max 0 entry.saving

structure Options where
  width : ℚ
  sideMargin : ℚ
  gutter : Option ℚ
  widths : Column → ℚ
  centerExtents : Option (Side → ℚ)
  entries : List Entry
  overflowWidth : ℚ

namespace Options

variable (options : Options)

def available : ℚ := max 0 (options.width - 2 * options.sideMargin)

def gap : ℚ := options.gutter.getD 8

/-- `center` as it is at first. -/
def extents : Side → ℚ :=
  match options.centerExtents with
  | some extents => fun side => max 0 (extents side)
  | none => fun _ => max 0 (options.widths .center) / 2

end Options

/-- The variables that the steps change. -/
structure Lanes where
  widths : Column → ℚ
  center : Side → ℚ
  compact : List Text

def start (options : Options) : Lanes where
  widths := Function.update (fun col => max 0 (options.widths col)) .center
    (options.extents .left + options.extents .right)
  center := options.extents
  compact := []

/-- What `apply` leaves of the extents. -/
def narrowed (options : Options) (center : Side → ℚ) (entry : Entry) : Side → ℚ :=
  if options.centerExtents.isSome then
    Function.update center entry.side (max 0 (center entry.side - entry.amount))
  else fun side => max 0 (center side - entry.amount / 2)

def apply (options : Options) (lanes : Lanes) (entry : Entry) : Lanes :=
  if entry.id ∈ lanes.compact then lanes
  else
    match entry.col with
    | none => { lanes with compact := lanes.compact ++ [entry.id] }
    | some col =>
        { widths := Function.update lanes.widths col (max 0 (lanes.widths col - entry.amount))
          center := if col = .center then narrowed options lanes.center entry else lanes.center
          compact := lanes.compact ++ [entry.id] }

structure Geometry where
  desired : ℚ
  rightX : ℚ
  fits : Bool

def geometry (options : Options) (lanes : Lanes) : Geometry :=
  let desired := options.available / 2 - lanes.center .left
  let rightX := options.available - lanes.widths .right
  { desired := desired
    rightX := rightX
    fits := decide (lanes.widths .left + options.gap ≤ desired) &&
      decide (desired + lanes.center .left + lanes.center .right + options.gap ≤ rightX) }

def forced (options : Options) : List Entry :=
  options.entries.filter (·.policy = ascii "compact")

/-- `ordered` -/
def ordered (options : Options) : List Entry :=
  [ascii "auto", ascii "prefer"].flatMap fun policy =>
    COMPACT_ORDER.flatMap fun id =>
      (options.entries.find? fun item =>
        item.id = id ∧ item.policy = policy ∧ 0 < item.amount).toList

def compactLoop (options : Options) : List Entry → Lanes → Lanes
  | [], lanes => lanes
  | entry :: rest, lanes =>
      if (geometry options lanes).fits then lanes
      else compactLoop options rest (apply options lanes entry)

/-- `centerX`, `shifted` and `state.fits`. -/
structure Placement where
  centerX : ℚ
  shifted : Bool
  fits : Bool

/-- The desired place, or the nearest one between the other lanes. -/
def place (options : Options) (lanes : Lanes) : Placement :=
  let state := geometry options lanes
  if state.fits then ⟨state.desired, false, true⟩
  else
    let minX := lanes.widths .left + options.gap
    let maxX := state.rightX - options.gap - lanes.center .left - lanes.center .right
    if maxX ≥ minX then
      let centerX := clamp state.desired minX maxX
      ⟨centerX, decide (|centerX - state.desired| > 1 / 100), true⟩
    else ⟨state.desired, false, false⟩

def hiddenWidth (compact : List Text) (hidden : Entry) : ℚ :=
  max 0 (max 0 hidden.width - if hidden.id ∈ compact then hidden.amount else 0)

def hide (lanes : Lanes) (hidden : Entry) (col : Column) : Lanes :=
  let amount := hiddenWidth lanes.compact hidden
  { widths := Function.update lanes.widths col (max 0 (lanes.widths col - amount))
    center := if col = .center then
        Function.update lanes.center hidden.side (max 0 (lanes.center hidden.side - amount))
      else lanes.center
    compact := lanes.compact }

structure Overflowing where
  lanes : Lanes
  overflow : List Text
  placed : Placement

def overflowStep (options : Options) (state : Overflowing) (hidden : Entry) (col : Column) :
    Overflowing :=
  let lanes := hide state.lanes hidden col
  ⟨lanes, state.overflow ++ [hidden.id], place options lanes⟩

def overflowLoop (options : Options) : List Text → Overflowing → Overflowing
  | [], state => state
  | id :: rest, state =>
      if state.placed.fits then state
      else
        match options.entries.find? (·.id = id) with
        | none => overflowLoop options rest state
        | some hidden =>
            match hidden.col with
            | none => overflowLoop options rest state
            | some col => overflowLoop options rest (overflowStep options state hidden col)

/-- The lanes with the More button, before anything is hidden. -/
def reserve (options : Options) (lanes : Lanes) : Overflowing :=
  let lanes := { lanes with
    widths := Function.update lanes.widths .right
      (lanes.widths .right + max 0 options.overflowWidth) }
  let state := geometry options lanes
  ⟨lanes, [], ⟨state.desired, false, state.fits⟩⟩

/-- The lanes once no more detail text is given up. -/
def compacted (options : Options) : Lanes :=
  compactLoop options (ordered options) ((forced options).foldl (apply options) (start options))

def settled (options : Options) : Overflowing :=
  let lanes := compacted options
  let placed := place options lanes
  if placed.fits then ⟨lanes, [], placed⟩
  else overflowLoop options OVERFLOW_ORDER (reserve options lanes)

structure Fit where
  compact : List Text
  overflow : List Text
  widths : Column → ℚ
  centerExtents : Side → ℚ
  centerX : ℚ
  centerOffset : ℚ
  shifted : Bool
  fits : Bool

def fitBar (options : Options) : Fit :=
  let state := settled options
  { compact := state.lanes.compact
    overflow := state.overflow
    widths := state.lanes.widths
    centerExtents := state.lanes.center
    centerX := state.placed.centerX
    centerOffset := state.placed.centerX - (geometry options state.lanes).desired
    shifted := state.placed.shifted
    fits := state.placed.fits }

end Bar

end CybexOS
