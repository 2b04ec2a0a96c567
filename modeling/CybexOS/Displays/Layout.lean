/-
Placing displays (`DisplayHelpers.js`): a dropped display snaps to a shared
edge, and a display that changed size has every other one re-attached to the
growing arrangement around it.
-/
import CybexOS.Displays.Draft
import Mathlib.Data.List.Sort
import Mathlib.Logic.Relation
import Mathlib.Order.Lex

namespace CybexOS

namespace Displays

def SNAP_DISTANCE : ℤ := 48

def MIN_SHARED_EDGE : ℤ := 64

inductive Side where
  | right
  | left
  | down
  | up
deriving DecidableEq, Repr

def clamp (value low high : ℤ) : ℤ := max low (min high value)

/-- Snap the free coordinate to a shared edge when it is close. -/
def align (value size start extent : ℤ) : ℤ :=
  if |value - start| ≤ SNAP_DISTANCE then start
  else if |value + size - (start + extent)| ≤ SNAP_DISTANCE then
    start + extent - size
  else value

structure Candidate where
  side : Side
  x : ℤ
  y : ℤ
deriving DecidableEq, Repr

def Candidate.box (candidate : Candidate) (rect : Rect) : Rect :=
  { rect with x := candidate.x, y := candidate.y }

/-- The coordinate along an edge of `o`, at least a shared stretch on it. -/
def alongEdge (value size start extent : ℤ) : ℤ :=
  let share := min MIN_SHARED_EDGE (min size extent)
  align (clamp value (start - size + share) (start + extent - share))
    size start extent

/-- The four positions beside one placed rectangle. -/
def candidatesFor (rect o : Rect) : List Candidate :=
  let y := alongEdge rect.y rect.height o.y o.height
  let x := alongEdge rect.x rect.width o.x o.width
  [⟨.right, o.x + o.width, y⟩, ⟨.left, o.x - rect.width, y⟩,
    ⟨.down, x, o.y + o.height⟩, ⟨.up, x, o.y - rect.height⟩]

/-- Overlaps none of `others` and shares an edge with one. -/
def Fits (box : Rect) (others : List Rect) : Prop :=
  (∀ o ∈ others, ¬ Overlaps box o) ∧ ∃ o ∈ others, Touches box o

instance (box : Rect) (others : List Rect) : Decidable (Fits box others) :=
  inferInstanceAs (Decidable (_ ∧ _))

def usable (rect : Rect) (others : List Rect) : List Candidate :=
  (others.flatMap (candidatesFor rect)).filter
    fun candidate => Fits (candidate.box rect) others

/-- The preferred side, when it has room. -/
def preferred (prefer : Option Side) (candidates : List Candidate) :
    List Candidate :=
  match prefer with
  | none => candidates
  | some side =>
      if candidates.filter (·.side = side) = [] then candidates
      else candidates.filter (·.side = side)

def squaredDistance (x y : ℤ) (rect : Rect) : ℤ :=
  (x - rect.x) * (x - rect.x) + (y - rect.y) * (y - rect.y)

/-- The first of the nearest candidates. -/
def closest (rect : Rect) : List Candidate → Option Candidate
  | [] => none
  | candidate :: rest =>
      match closest rect rest with
      | none => some candidate
      | some best =>
          if squaredDistance best.x best.y rect <
              squaredDistance candidate.x candidate.y rect then some best
          else some candidate

/-- `Math.max.apply(null, others.map(o => o.x + o.width))` -/
def rightEdge : List Rect → ℤ
  | [] => 0
  | [o] => o.x + o.width
  | o :: rest => max (o.x + o.width) (rightEdge rest)

/-- The nearest position that shares an edge and overlaps nothing. -/
def placeRect (rect : Rect) (others : List Rect) (prefer : Option Side) :
    ℤ × ℤ :=
  match others with
  | [] => (rect.x, rect.y)
  | first :: rest =>
      match closest rect (preferred prefer (usable rect (first :: rest))) with
      | some best => (best.x, best.y)
      | none => (rightEdge (first :: rest), first.y)

/-- Which side of `anchor` a display is on, judged by centres relative to the
combined half-sizes. -/
def sideOf (rect anchor : Rect) : Side :=
  let dx : ℚ := (rect.x + rect.width / 2) - (anchor.x + anchor.width / 2)
  let dy : ℚ := (rect.y + rect.height / 2) - (anchor.y + anchor.height / 2)
  let nx := Binary64.nearest (dx / max 1 ((rect.width + anchor.width) / 2))
  let ny := Binary64.nearest (dy / max 1 ((rect.height + anchor.height) / 2))
  if |ny| ≤ |nx| then if 0 ≤ dx then .right else .left
  else if 0 ≤ dy then .down else .up

def Draft.shift (dx dy : ℤ) (draft : Draft) : Draft :=
  if draft.isPlaced then { draft with x := draft.x - dx, y := draft.y - dy }
  else draft

/-- `Math.min.apply` over a non-empty list. -/
def minimum : ℤ → List ℤ → ℤ
  | first, [] => first
  | first, next :: rest => min first (minimum next rest)

/-- Shift the layout so its top-left corner is 0x0. -/
def normalize (drafts : List Draft) : List Draft :=
  match rects drafts with
  | [] => drafts
  | first :: rest =>
      drafts.map (Draft.shift (minimum first.x (rest.map Rect.x))
        (minimum first.y (rest.map Rect.y)))

/-- Put one draft at a position. -/
def setPosition (drafts : List Draft) (key : Text) (position : ℤ × ℤ) :
    List Draft :=
  drafts.map fun draft =>
    if draft.key = key then { draft with x := position.1, y := position.2 }
    else draft

/-- Drop one display at `(x, y)`; the others stay where they are. -/
def moveDisplay (drafts : List Draft) (key : Text) (x y : ℚ)
    (prefer : Option Side) : List Draft :=
  match drafts.find? (·.key = key) with
  | none => drafts
  | some moving =>
      if !moving.isPlaced then drafts
      else
        let others := (rects drafts).filter (·.key ≠ key)
        let target :=
          { moving.toRect with x := mathRound x, y := mathRound y }
        normalize (setPosition drafts key (placeRect target others prefer))

/-- Nearest to the anchor first, then by key. -/
def CloserTo (anchor a b : Rect) : Prop :=
  squaredDistance a.x a.y anchor < squaredDistance b.x b.y anchor ∨
    squaredDistance a.x a.y anchor = squaredDistance b.x b.y anchor ∧
      a.key ≤ b.key

instance (anchor : Rect) : DecidableRel (CloserTo anchor) :=
  fun _ _ => inferInstanceAs (Decidable (_ ∨ _))

/-- Where one rectangle goes beside the ones already done. -/
def attach (before : List Rect) (anchor : Rect) (done : List Rect)
    (rect : Rect) : Rect :=
  if Fits rect done then rect
  else
    let prefer :=
      match before.find? (·.key = anchor.key), before.find? (·.key = rect.key) with
      | some oldAnchor, some oldRect => some (sideOf oldRect oldAnchor)
      | _, _ => none
    let position := placeRect rect done prefer
    { rect with x := position.1, y := position.2 }

def attachAll (before : List Rect) (anchor : Rect) (rest : List Rect) :
    List Rect :=
  rest.foldl (fun done rect => done ++ [attach before anchor done rect]) [anchor]

/-- The changed display, or the first placed one. -/
def anchorOf (drafts : List Draft) (key : Text) : Option Rect :=
  match (rects drafts).find? (·.key = key) with
  | some rect => some rect
  | none => (rects drafts).head?

/-- Copy the positions of the placed rectangles back. -/
def applyRects (drafts : List Draft) (done : List Rect) : List Draft :=
  drafts.map fun draft =>
    match done.find? (·.key = draft.key) with
    | some moved => { draft with x := moved.x, y := moved.y }
    | none => draft

/-- The arrangement `relayout` builds, before it is normalized. -/
def reattach (drafts : List Draft) (anchor : Rect)
    (previous : Option (List Draft)) : List Draft :=
  let before := (previous.map rects).getD []
  let rest := ((rects drafts).erase anchor).insertionSort (CloserTo anchor)
  applyRects drafts (attachAll before anchor rest)

/-- Keep the changed display and re-attach every other one, nearest first. -/
def relayout (drafts : List Draft) (key : Text)
    (previous : Option (List Draft)) : List Draft :=
  match anchorOf drafts key with
  | none => drafts
  | some anchor => normalize (reattach drafts anchor previous)

/-- Whether `o` lies further out than `edge` in a direction. -/
def Further (direction : Option Side) (o edge : Rect) : Bool :=
  match direction with
  | some .left => o.x < edge.x
  | some .right => edge.x + edge.width < o.x + o.width
  | some .up => o.y < edge.y
  | some .down => edge.y + edge.height < o.y + o.height
  | none => false

/-- Arrow keys place a display beside the outermost other one; a direction
that is none of the four leaves it where it is. -/
def nudge (drafts : List Draft) (key : Text) (direction : Option Side) :
    List Draft :=
  match (rects drafts).find? (·.key = key),
      (rects drafts).filter (·.key ≠ key) with
  | some self, first :: rest =>
      let edge := rest.foldl
        (fun edge o => if Further direction o edge then o else edge) first
      let centred : ℚ := edge.x + (edge.width - self.width) / 2
      match direction with
      | some .left =>
          moveDisplay drafts key (edge.x - self.width) edge.y direction
      | some .right =>
          moveDisplay drafts key (edge.x + edge.width) edge.y direction
      | some .up =>
          moveDisplay drafts key (mathRound centred) (edge.y - self.height)
            direction
      | some .down =>
          moveDisplay drafts key (mathRound centred) (edge.y + edge.height)
            direction
      | none => moveDisplay drafts key self.x self.y none
  | _, _ => drafts

end Displays

end CybexOS
