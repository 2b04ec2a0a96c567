/-
Taking a recovery point: its identifier, the steps that write it, the clean-up
after a failed step, and the removal of the oldest points.
-/
import CybexOS.Decimal
import CybexOS.Retention
import CybexOS.Snapshot.Layout
import Mathlib.Logic.Function.Basic

namespace CybexOS

namespace Snapshot

namespace Create

def KEEP : ℕ := 5

/-! ### Identifiers -/

/-- `ID_PATTERN.match`, whose `$` lets one newline stand at the end. -/
def matchesPoint (id : Text) : Bool :=
  isPoint (if id.getLast? = some 10 then id.dropLast else id)

/-- A number in at least that many digits. -/
def padded (width n : ℕ) : Text :=
  List.replicate (width - (digitsOf n).length) 48 ++ digitsOf n

/-- `now()` -/
structure Clock where
  year : ℕ
  month : ℕ
  day : ℕ
  hour : ℕ
  minute : ℕ
  second : ℕ
  year_digits : 1000 ≤ year ∧ year < 10000
  month_digits : month < 100
  day_digits : day < 100
  hour_digits : hour < 100
  minute_digits : minute < 100
  second_digits : second < 100

/-- `stamp()` -/
def stamp (clock : Clock) : Text :=
  padded 4 clock.year ++ padded 2 clock.month ++ padded 2 clock.day ++ ascii "T" ++
    padded 2 clock.hour ++ padded 2 clock.minute ++ padded 2 clock.second ++ ascii "Z"

/-! ### The store -/

/-- The directories of the store, by the names of the points in them. -/
structure Store where
  /-- The directories in `root/`. -/
  roots : List Text
  /-- The points with a `.tar` in `boot/`. -/
  archives : Text → Bool
  /-- The points with a `.tar.tmp` in `boot/`. -/
  temporaries : Text → Bool
  descriptions : Text → Option Text
  kernels : Text → Option Text
  latest : Option Text

inductive Leftover where
  | temporary
  | archive
  | description
  | kernel
  | snapshot
deriving DecidableEq

def Store.remove (store : Store) (point : Text) : Leftover → Store
  | .temporary => { store with temporaries := Function.update store.temporaries point false }
  | .archive => { store with archives := Function.update store.archives point false }
  | .description => { store with descriptions := Function.update store.descriptions point none }
  | .kernel => { store with kernels := Function.update store.kernels point none }
  | .snapshot => { store with roots := store.roots.filter (· ≠ point) }

def Store.addTemporary (store : Store) (point : Text) : Store :=
  { store with temporaries := Function.update store.temporaries point true }

def Store.keepArchive (store : Store) (point : Text) : Store :=
  { store with
    temporaries := Function.update store.temporaries point false
    archives := Function.update store.archives point true }

def Store.addSnapshot (store : Store) (point : Text) : Store :=
  { store with roots := point :: store.roots }

def Store.describe (store : Store) (point text : Text) : Store :=
  { store with descriptions := Function.update store.descriptions point (some text) }

def Store.recordKernel (store : Store) (point text : Text) : Store :=
  { store with kernels := Function.update store.kernels point (some text) }

def Store.markLatest (store : Store) (text : Text) : Store := { store with latest := some text }

/-! ### What a command meets -/

inductive Refusal where
  | usage
  | recoveryBoot
  | layout (message : Text)
  | awaitsRestart
  | toolMissing (tool : Text)
  | identifier
  | store
  | pointExists (point : Text)
deriving DecidableEq

/-- The steps of the `try` body. -/
inductive Step where
  | archive
  | syncArchive
  | keepArchive
  | snapshot
  | describe
  | recordKernel
  | markLatest
  | syncLatest
deriving DecidableEq

/-- A step that fails, and what it has written by then. -/
structure Break where
  step : Step
  trace : Option Text

structure Inputs where
  arguments : List Text
  layout : Layout
  which : Text → Bool
  /-- `CYBEXOS_SNAPSHOT_ID`, empty when it is not set. -/
  requested : Text
  clock : Clock
  pid : ℕ
  opensStore : Bool
  /-- `current_kernel()` -/
  kernel : Text
  broken : Option Break
  /-- What the clean-up cannot remove. -/
  stuck : Leftover → Bool
  listsRoots : Bool
  /-- How far the removal gets that leaves so many snapshots, when it fails. -/
  prunings : ℕ → Option ℕ

namespace Inputs

variable (inputs : Inputs)

def point : Text :=
  if inputs.requested.isEmpty then stamp inputs.clock ++ ascii "-" ++ digitsOf inputs.pid
  else inputs.requested

def description : Text :=
  (List.intercalate [32]
    (splitlines ((inputs.arguments.head?).getD (ascii "manual recovery point")))).take 120

/-- The end of a command that does not get to the steps. -/
inductive Early where
  | skipped
  | refused (refusal : Refusal)

def early (store : Store) : Option Early :=
  if 1 < inputs.arguments.length then some (.refused .usage)
  else if inputs.layout.kind = .recovery then some (.refused .recoveryBoot)
  else if inputs.layout.kind = .none then some .skipped
  else if inputs.layout.kind = .unsupported then
    some (.refused (.layout inputs.layout.message))
  else if inputs.layout.pendingReboot then some (.refused .awaitsRestart)
  else
    match [ascii "btrfs", ascii "findmnt", ascii "tar"].find? (fun tool => !inputs.which tool) with
    | some tool => some (.refused (.toolMissing tool))
    | none =>
        if !matchesPoint inputs.point then some (.refused .identifier)
        else if !inputs.opensStore then some (.refused .store)
        else if inputs.point ∈ store.roots || store.archives inputs.point then
          some (.refused (.pointExists inputs.point))
        else none

def steps : List Step :=
  [.archive, .syncArchive, .keepArchive, .snapshot, .describe] ++
    (if inputs.kernel.isEmpty then [] else [.recordKernel]) ++ [.markLatest, .syncLatest]

/-- A step that succeeds. -/
def perform (store : Store) : Step → Store
  | .archive => store.addTemporary inputs.point
  | .keepArchive => store.keepArchive inputs.point
  | .snapshot => store.addSnapshot inputs.point
  | .describe => store.describe inputs.point (inputs.description ++ [10])
  | .recordKernel => store.recordKernel inputs.point (inputs.kernel ++ [10])
  | .markLatest => store.markLatest (inputs.point ++ [10])
  | .syncArchive | .syncLatest => store

/-- A step that fails when it has written this much. -/
def breakOff (store : Store) (trace : Text) : Step → Store
  | .archive => store.addTemporary inputs.point
  | .snapshot => store.addSnapshot inputs.point
  | .describe => store.describe inputs.point trace
  | .recordKernel => store.recordKernel inputs.point trace
  | .markLatest => store.markLatest trace
  | .keepArchive | .syncArchive | .syncLatest => store

/-- The steps up to one that fails. -/
def runSteps : List Step → Store → Option Step × Store
  | [], store => (none, store)
  | step :: rest, store =>
      match inputs.broken with
      | some broken =>
          if broken.step = step then
            (some step, (broken.trace.map (inputs.breakOff store · step)).getD store)
          else runSteps rest (inputs.perform store step)
      | none => runSteps rest (inputs.perform store step)

def cleanUp (store : Store) : Store :=
  [Leftover.temporary, .archive, .description, .kernel, .snapshot].foldl
    (fun store leftover =>
      if inputs.stuck leftover then store else store.remove inputs.point leftover) store

end Inputs

/-! ### Retention -/

def removals : List Leftover := [.snapshot, .archive, .description, .kernel]

def Store.removePoint (store : Store) (point : Text) : Store :=
  removals.foldl (fun store leftover => store.remove point leftover) store

/-- The `while` loop over the sorted names, and whether it came to its end. -/
def Inputs.prune (inputs : Inputs) : List Text → Store → Bool × Store
  | [], store => (true, store)
  | oldest :: snapshots, store =>
      if snapshots.length < KEEP then (true, store)
      else if !matchesPoint oldest then (false, store)
      else
        match inputs.prunings snapshots.length with
        | some reached =>
            (false, (removals.take reached).foldl (fun store leftover =>
              store.remove oldest leftover) store)
        | none => inputs.prune snapshots (store.removePoint oldest)

/-! ### The command -/

inductive Outcome where
  | early (why : Inputs.Early)
  | failed (step : Step)
  | unpruned
  | created (point : Text)

def commandCreate (inputs : Inputs) (store : Store) : Outcome × Store :=
  match inputs.early store with
  | some why => (.early why, store)
  | none =>
      match inputs.runSteps inputs.steps store with
      | (some step, half) => (.failed step, inputs.cleanUp half)
      | (none, whole) =>
          if !inputs.listsRoots then (.unpruned, whole)
          else
            match inputs.prune (whole.roots.insertionSort (· ≤ ·)) whole with
            | (false, left) => (.unpruned, left)
            | (true, left) => (.created inputs.point, left)

end Create

end Snapshot

end CybexOS
