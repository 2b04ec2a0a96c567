/-
The wallpaper palette (`Palette.qml`, `PaletteHelpers.js`): the cache, the stat
of the image, Matugen, and the requests that meet them.
-/
import CybexOS.JsString
import Mathlib.Data.Int.Notation

namespace CybexOS

namespace Wallpaper

/-! ### The cache -/

/-- An entry with the palette that `sanitizePalette` makes of its own. -/
structure Entry (P : Type) where
  identity : Text
  fingerprint : Text
  palette : P
deriving DecidableEq

def CACHE_LIMIT : ℕ := 12

/-- `/^\d+ \d+$/` -/
def isStamp (text : Text) : Bool :=
  let first := text.takeWhile isDigit
  match text.dropWhile isDigit with
  | 32 :: second => first ≠ [] && second ≠ [] && second.all isDigit
  | _ => false

/-- `fingerprint`, of the output of `stat`. -/
def fingerprint (statText : Text) : Text :=
  let text := jsTrim statText
  if isStamp text then text else []

section

variable {P : Type}

/-- `cacheEntries`, of the entries in the text with a valid palette. -/
def cacheEntries (parsed : List (Entry P)) : List (Entry P) :=
  (parsed.filter fun entry => entry.identity ≠ [] && entry.fingerprint ≠ []).take CACHE_LIMIT

/-- The new entries of the text, if there is anything to write. -/
def makeCache (identity : Text) (palette : P) (stamp : Text) (previous : List (Entry P)) :
    Option (List (Entry P)) :=
  if identity = [] ∨ stamp = [] then none
  else
    let older := (cacheEntries previous).filter fun entry => entry.identity ≠ identity
    some (⟨identity, stamp, palette⟩ :: older.take (CACHE_LIMIT - 1))

/-- The entry whose palette `readCache` gives. -/
def readCache (parsed : List (Entry P)) (identity : Text) (stamp : Option Text) :
    Option (Entry P) :=
  match (cacheEntries parsed).find? fun entry => entry.identity = identity with
  | none => none
  | some entry =>
      match stamp with
      | none => some entry
      | some found => if entry.fingerprint ≠ found then none else some entry

theorem readCache_identity {parsed : List (Entry P)} {identity : Text} {stamp : Option Text}
    {entry : Entry P} (h : readCache parsed identity stamp = some entry) :
    entry.identity = identity := by
  unfold readCache at h
  cases hfound : (cacheEntries parsed).find? fun entry => entry.identity = identity with
  | none =>
      rw [hfound] at h
      cases h
  | some other =>
      rw [hfound] at h
      have hidentity : other.identity = identity := by
        simpa using List.find?_some hfound
      cases stamp with
      | none =>
          obtain rfl := Option.some_inj.mp h
          exact hidentity
      | some found =>
          dsimp only at h
          split_ifs at h
          obtain rfl := Option.some_inj.mp h
          exact hidentity

theorem readCache_fingerprint {parsed : List (Entry P)} {identity stamp : Text} {entry : Entry P}
    (h : readCache parsed identity (some stamp) = some entry) : entry.fingerprint = stamp := by
  unfold readCache at h
  cases hfound : (cacheEntries parsed).find? fun entry => entry.identity = identity with
  | none =>
      rw [hfound] at h
      cases h
  | some other =>
      rw [hfound] at h
      dsimp only at h
      split_ifs at h with hne
      obtain rfl := Option.some_inj.mp h
      exact not_not.mp hne

/-- `resultIsCurrent` -/
def resultIsCurrent (resultIdentity currentIdentity : Text) : Prop :=
  resultIdentity ≠ [] ∧ resultIdentity = currentIdentity

instance (resultIdentity currentIdentity : Text) :
    Decidable (resultIsCurrent resultIdentity currentIdentity) :=
  inferInstanceAs (Decidable (_ ∧ _))

end

/-! ### The palette -/

def NOT_STARTED : ℤ := -1

/-- The error of a failed generation. -/
def generationError (exitCode : ℤ) : Text :=
  if exitCode = NOT_STARTED ∨ exitCode = 127 then ascii "Matugen is not installed"
  else if exitCode = 124 then ascii "Matugen timed out"
  else ascii "Could not generate the wallpaper palette"

theorem generationError_ne_nil (exitCode : ℤ) : generationError exitCode ≠ [] := by
  unfold generationError
  split_ifs
  · decide
  · decide
  · decide

/-- The palette, with the entry that it comes from unless it was generated, every
palette that was generated for a path, the fingerprints of the selected image that
a stat started after the selection has found, and whether the running stat is one. -/
structure Palettes (P : Type) where
  /-- `Wallpaper.dir` -/
  dir : Text
  /-- `Settings.wall` -/
  wall : Text
  /-- `Settings.paletteMode` -/
  mode : Text
  /-- `cacheStore` -/
  cache : List (Entry P)
  variants : Option P
  ready : Bool
  busy : Bool
  error : Text
  queuedIdentity : Text
  activeIdentity : Text
  activeStamp : Text
  /-- `generationTimer.running` -/
  timer : Bool
  /-- `statProc.running` -/
  stat : Bool
  /-- `paletteProc.running` -/
  generation : Bool
  /-- `Qt.callLater(requestCurrent)` -/
  deferred : Bool
  used : Option (Entry P)
  generated : List (Text × P)
  stamps : List Text
  fresh : Bool

namespace Palettes

variable {P : Type}

/-- `Wallpaper.currentIdentity` -/
def wallpaperIdentity (s : Palettes P) : Text := s.dir ++ 47 :: s.wall

def usePalette (s : Palettes P) (identity : Text) (palette : P) (used : Option (Entry P)) :
    Palettes P :=
  if resultIsCurrent identity s.wallpaperIdentity then
    { s with
      variants := some palette
      ready := true
      busy := false
      error := []
      queuedIdentity := []
      used := used }
  else s

def requestCurrent (s : Palettes P) : Palettes P :=
  let identity := s.wallpaperIdentity
  if s.mode ≠ ascii "wallpaper" then
    { s with
      timer := false, variants := none, ready := false, busy := false, error := []
      queuedIdentity := [] }
  else if identity = [] ∨ s.wall = [] then
    { s with
      timer := false, variants := none, ready := false, busy := false
      error := ascii "No wallpaper is selected" }
  else
    let shown : Palettes P := match readCache s.cache identity none with
      | some entry => s.usePalette identity entry.palette (some entry)
      | none => { s with variants := none, ready := false, error := [], busy := true }
    { shown with queuedIdentity := identity, timer := true }

def startQueued (s : Palettes P) : Palettes P :=
  if s.stat ∨ s.generation ∨ s.queuedIdentity = [] then s
  else if s.queuedIdentity ≠ s.wallpaperIdentity then
    { s with queuedIdentity := s.wallpaperIdentity, timer := true }
  else
    { s with
      activeIdentity := s.queuedIdentity, queuedIdentity := [], stat := true, fresh := true }

def drainQueue (s : Palettes P) : Palettes P :=
  if s.queuedIdentity ≠ [] then { s with deferred := true } else s

def finishStat (s : Palettes P) (output : Text) : Palettes P :=
  let identity := s.activeIdentity
  if ¬resultIsCurrent identity s.wallpaperIdentity ∨ s.mode ≠ ascii "wallpaper" then
    { s with activeIdentity := [], deferred := true }
  else
    let stamp := fingerprint output
    match if stamp ≠ [] then readCache s.cache identity (some stamp) else none with
    | some entry =>
        (({ s with activeIdentity := [] } : Palettes P).usePalette identity entry.palette
          (some entry)).drainQueue
    | none =>
        { s with
          variants := none, ready := false, error := [], busy := true, activeStamp := stamp
          generation := true }

/-- With the palette that `sanitizeMatugen` makes of the output; the cache is
written unless that fails. -/
def finishGeneration (s : Palettes P) (exitCode : ℤ) (output : Option P) (writes : Bool) :
    Palettes P :=
  let completedIdentity := s.activeIdentity
  let cleared : Palettes P := { s with activeIdentity := [], activeStamp := [] }
  let current := resultIsCurrent completedIdentity s.wallpaperIdentity ∧
    s.mode = ascii "wallpaper"
  let finished : Palettes P :=
    if exitCode = 0 then
      match output with
      | some palette =>
          let stored : Palettes P := { cleared with
            cache := match makeCache completedIdentity palette s.activeStamp s.cache with
              | some entries => if writes then entries else s.cache
              | none => s.cache
            generated := s.generated ++ [(completedIdentity, palette)] }
          if current then stored.usePalette completedIdentity palette none else stored
      | none =>
          if current then
            { cleared with
              ready := false, busy := false, error := ascii "Matugen returned an invalid palette" }
          else cleared
    else if current then
      { cleared with ready := false, busy := false, error := generationError exitCode }
    else cleared
  if (¬current ∧ finished.ready = false) ∨ finished.queuedIdentity ≠ [] then
    { finished with deferred := true }
  else finished

/-- The falling edge of `statProc.running`; a stat that was started after the
selection tells a fingerprint of the selected image. -/
def statEnds (s : Palettes P) (output : Text) : Palettes P :=
  let ended : Palettes P := { s with
    stat := false
    fresh := false
    stamps := if s.fresh then s.stamps ++ [fingerprint output] else s.stamps }
  if s.stat = true ∧ s.activeIdentity ≠ [] then ended.finishStat output else ended

/-- The falling edge of `paletteProc.running`. -/
def generationEnds (s : Palettes P) (exitCode : ℤ) (output : Option P) (writes : Bool) :
    Palettes P :=
  let ended : Palettes P := { s with generation := false }
  if s.generation = true ∧ s.activeIdentity ≠ [] then
    ended.finishGeneration exitCode output writes
  else ended

/-- A new selection. -/
def selects (s : Palettes P) (dir wall : Text) : Palettes P :=
  if dir ++ 47 :: wall = s.wallpaperIdentity then { s with dir := dir, wall := wall }
  else
    ({ s with dir := dir, wall := wall, stamps := [], fresh := false } : Palettes P).requestCurrent

end Palettes

inductive PaletteEvent (P : Type) where
  | wallChanges (wall : Text)
  | dirChanges (dir : Text)
  | modeChanges (mode : Text)
  | cacheLoads (entries : List (Entry P))
  | timerFires
  | statEnds (output : Text)
  | generationEnds (exitCode : ℤ) (output : Option P) (writes : Bool)
  | runsDeferred

namespace Palettes

variable {P : Type}

def step (s : Palettes P) : PaletteEvent P → Palettes P
  | .wallChanges wall => s.selects s.dir wall
  | .dirChanges dir => s.selects dir s.wall
  | .modeChanges mode =>
      if mode = s.mode then s else ({ s with mode := mode } : Palettes P).requestCurrent
  | .cacheLoads entries => ({ s with cache := entries } : Palettes P).requestCurrent
  | .timerFires => if s.timer then ({ s with timer := false } : Palettes P).startQueued else s
  | .statEnds output => if s.stat then s.statEnds output else s
  | .generationEnds exitCode output writes =>
      if s.generation then s.generationEnds exitCode output writes else s
  | .runsDeferred =>
      if s.deferred then ({ s with deferred := false } : Palettes P).requestCurrent else s

end Palettes

/-- After `Component.onCompleted`. -/
def completed {P : Type} (dir wall mode : Text) (cache : List (Entry P)) : Palettes P :=
  (⟨dir, wall, mode, cache, none, false, false, [], [], [], [], false, false, false, false, none,
    [], [], false⟩ : Palettes P).requestCurrent

end Wallpaper

end CybexOS
