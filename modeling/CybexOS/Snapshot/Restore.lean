/-
Restoring a recovery point: the copy, the exchange of system roots, the files
of /boot, and the repair of a restore that was stopped part-way.
-/
import CybexOS.Programs
import CybexOS.Text
import Mathlib.Data.List.Sort

namespace CybexOS

namespace Snapshot

/-! ### The file systems -/

/-- The second that names a set-aside root, `YYYYMMDDTHHMMSSZ`. -/
abbrev Stamp := ℕ

/-- The names of system roots at the top level. -/
inductive RootName where
  | root
  | incoming (stamp : Stamp)
  | replaced (stamp : Stamp)
deriving DecidableEq

/-- What a subvolume holds at a path where a subvolume can be nested. -/
inductive Place where
  | emptyDirectory
  | occupied
  | subvolume (uuid : ℕ)

structure Subvolume where
  uuid : ℕ
  /-- The versions whose modules and image it holds, oldest first. -/
  kernels : List Text
  places : List (Text × Place)

/-- A file of /boot; `version` is what the lines of a boot entry give. -/
structure BootFile where
  version : Text
  content : Text
deriving DecidableEq

abbrev Files := List (Text × BootFile)

/-- A recovery point: its read-only snapshot, the archive of /boot and the
recorded kernel. -/
structure Point where
  snapshot : Subvolume
  archive : Option Files
  kernel : Option Text

inductive RestoreState where
  | prepared
  | swapped
  | complete
deriving DecidableEq

/-- The record of a restore; a uuid that could not be read is `none`. -/
structure Record where
  point : Text
  kernel : Text
  state : RestoreState
  staged : List Text
  oldRoot : Option ℕ
  newRoot : Option ℕ
deriving DecidableEq

structure System where
  roots : RootName → Option Subvolume
  points : List (Text × Point)
  records : List (Stamp × Record)
  boot : Files
  /-- `/boot/.cybexos-restore-NAME` -/
  staging : List (Stamp × Files)
  /-- `replaced/NAME.boot` -/
  backups : List (Stamp × Files)
  savedEntry : Option Text
  nextEntry : Option Text
  nextUuid : ℕ

inductive Failure where
  | pointNotFound (point : Text)
  | rootMissing
  | noKernel (point : Text)
  | startedAlready
  | noArchive (point : Text)
  | notBootable (kernel point : Text)
  | kernelMissing (kernel : Text)
  | noEntry (kernel : Text)
  | osError
  | interrupted

/-! ### What the run meets -/

/-- The places where a uuid is read. -/
inductive Probe where
  | recordOld
  | recordNew
  | exchangedIncoming
  | exchangedRoot
  | unusedIncoming
  | unusedRoot

/-- The places where a step of the restore proper can raise. -/
inductive Raise where
  | record
  | extract (path : Text)
  | place (path : Text)
  | staged
  | exchange
  | exchanged

/-- Which uuids can be read, which deletions work, what raises, and whether
there is a `/boot/grub2`. -/
structure Env where
  readable : Stamp → Probe → Bool
  deletes : Stamp → Bool
  raises : Raise → Bool
  grub : Bool

/-! ### Entries of a directory -/

section

variable {κ α : Type} [DecidableEq κ]

def remove (entries : List (κ × α)) (name : κ) : List (κ × α) :=
  entries.filter (·.1 ≠ name)

def put (entries : List (κ × α)) (name : κ) (value : α) : List (κ × α) :=
  (name, value) :: remove entries name

end

def exists? (files : Files) (path : Text) : Bool := path ∈ files.map Prod.fst

/-! ### Boot entries -/

def KERNEL_FILES (version : Text) : List Text :=
  [ascii "vmlinuz-" ++ version, ascii "initramfs-" ++ version ++ ascii ".img",
    ascii "System.map-" ++ version, ascii "config-" ++ version,
    ascii "symvers-" ++ version ++ ascii ".xz",
    ascii ".vmlinuz-" ++ version ++ ascii ".hmac"]

def isRescue (version : Text) : Bool := (ascii "0-rescue").isPrefixOf version

/-- `loader/entries/` -/
def ENTRIES : Text := ascii "loader/entries/"

/-- `*.conf` in `loader/entries` -/
def isEntry (path : Text) : Bool :=
  ENTRIES.isPrefixOf path && (ascii ".conf").isSuffixOf path &&
    47 ∉ path.drop ENTRIES.length

/-- The stem of an entry's path. -/
def entryId (path : Text) : Text :=
  (path.drop ENTRIES.length).take (path.length - ENTRIES.length - 5)

/-- `[A-Za-z0-9][A-Za-z0-9._+-]{0,127}` -/
def kernelPattern (version : Text) : Bool :=
  version.head?.any isAlnum && version.length ≤ 128 &&
    version.all fun c => isAlnum c || c ∈ ascii "._+-"

/-- The path of the first entry of each version, in the order of the paths. -/
def bootEntries (boot : Files) : List (Text × Text) :=
  ((boot.filter (isEntry ·.1)).insertionSort (·.1 ≤ ·.1)).foldl
    (fun entries file =>
      if kernelPattern file.2.version && file.2.version ∉ entries.map Prod.fst then
        entries ++ [(file.2.version, file.1)]
      else entries) []

def pointKernel (point : Point) (entries : List (Text × Text)) : Option Text :=
  point.kernel <|>
    (point.snapshot.kernels.filter (· ∈ entries.map Prod.fst)).getLast?

/-! ### Effects -/

abbrev Run := Program System Failure

namespace System

def hasRoot (s : System) (name : RootName) : Bool := (s.roots name).isSome

def uuidOf (s : System) (name : RootName) : Option ℕ := (s.roots name).map Subvolume.uuid

def setRoot (s : System) (name : RootName) (root : Option Subvolume) : System :=
  { s with roots := Function.update s.roots name root }

def setPlaces (s : System) (name : RootName)
    (change : List (Text × Place) → List (Text × Place)) : System :=
  s.setRoot name ((s.roots name).map fun root => { root with places := change root.places })

def writeRecord (s : System) (stamp : Stamp) (record : Record) : System :=
  { s with records := put s.records stamp record }

/-- A writable copy: nested subvolumes are empty directories in it. -/
def snapshotTo (s : System) (name : RootName) (source : Subvolume) : System :=
  { s.setRoot name (some
      { source with
        uuid := s.nextUuid
        places := source.places.map fun place => match place.2 with
          | .subvolume _ => (place.1, .emptyDirectory)
          | _ => place }) with
    nextUuid := s.nextUuid + 1 }

/-- `mv --exchange` -/
def exchange (s : System) (first second : RootName) : System :=
  (s.setRoot first (s.roots second)).setRoot second (s.roots first)

end System

open Program

/-- `subvolume_uuid`: `none` where btrfs fails. -/
def subvolumeUuid (env : Env) (stamp : Stamp) (probe : Probe) (name : RootName) :
    Run (Option ℕ) :=
  look fun s => if env.readable stamp probe then s.uuidOf name else none

def writeRecord (stamp : Stamp) (record : Record) : Run Unit :=
  effect fun s => s.writeRecord stamp record

/-- `os.rename(incoming, top / name)` -/
def renameIncoming (stamp : Stamp) : Run Unit := do
  if ← look (·.hasRoot (.replaced stamp)) then fail .osError
  else
    effect fun s =>
      (s.setRoot (.replaced stamp) (s.roots (.incoming stamp))).setRoot (.incoming stamp) none

/-- An exception between two steps of the restore proper. -/
def mayRaise (env : Env) (point : Raise) : Run Unit :=
  if env.raises point then fail .interrupted else pure ()

/-! ### Files of /boot -/

/-- What /boot lacks: a kernel's file, or an entry for a version. -/
inductive Wanted where
  | file (path : Text)
  | entry (version : Text)

def wantedFiles (kernels : List Text) (boot : Files) : List Wanted :=
  kernels.flatMap fun version =>
    ((KERNEL_FILES version).filter (!exists? boot ·)).map .file ++
      if version ∈ (bootEntries boot).map Prod.fst then [] else [.entry version]

def selectedMembers (members : List Text) (wanted : List Wanted) : List Text :=
  (wanted.flatMap fun
    | .entry version => members.filter fun member =>
        ENTRIES.isPrefixOf member && (ascii "-" ++ version ++ ascii ".conf").isSuffixOf member
    | .file path => if path ∈ members then [path] else []).insertionSort (· ≤ ·)

def extract (env : Env) (stamp : Stamp) (archive : Files) (path : Text) : Run Unit := do
  mayRaise env (.extract path)
  effect fun s =>
    { s with staging := match archive.lookup path, s.staging.lookup stamp with
      | some file, some files => put s.staging stamp (put files path file)
      | _, _ => s.staging }

/-- Rename one staged file into /boot, unless something is there. -/
def placeFile (env : Env) (stamp : Stamp) (path : Text) : Run Bool := do
  mayRaise env (.place path)
  let source ← look fun s => (s.staging.lookup stamp).bind (·.lookup path)
  let taken ← look (exists? ·.boot path)
  match source, taken with
  | some file, false => do
      effect fun s =>
        { s with
          boot := put s.boot path file
          staging := put s.staging stamp
            (remove ((s.staging.lookup stamp).getD []) path) }
      pure true
  | _, _ => pure false

def placeFiles (env : Env) (stamp : Stamp) : List Text → Run (List Text)
  | [] => pure []
  | path :: paths => do
      let placed ← placeFile env stamp path
      let others ← placeFiles env stamp paths
      pure (if placed then path :: others else others)

/-- `shutil.rmtree(staging)` -/
def removeStaging (stamp : Stamp) : Run Unit :=
  effect fun s => { s with staging := remove s.staging stamp }

def stageBootFiles (env : Env) (point : Text) (archive : Option Files) (candidate : RootName)
    (stamp : Stamp) : Run (List Text) := do
  let kernels ← look fun s => ((s.roots candidate).map Subvolume.kernels).getD []
  let wanted ← look fun s => wantedFiles kernels s.boot
  match wanted, archive with
  | [], _ => pure []
  | _, none => fail (.noArchive point)
  | wanted, some archive =>
      match selectedMembers (archive.map Prod.fst) wanted with
      | [] => pure []
      | selected => do
          removeStaging stamp
          effect fun s => { s with staging := put s.staging stamp [] }
          let placed ← (do
            forEach selected (extract env stamp archive)
            placeFiles env stamp selected).catching fun error => do
              removeStaging stamp
              fail error
          removeStaging stamp
          pure placed

/-- `shutil.move` to the backup on another file system: a copy, then the
removal. -/
def retireFile (stamp : Stamp) (path : Text) : Run Unit := do
  match ← look (·.boot.lookup path) with
  | none => pure ()
  | some file => do
      effect fun s => { s with
        backups := put s.backups stamp (put ((s.backups.lookup stamp).getD []) path file) }
      effect fun s => { s with boot := remove s.boot path }

def reconcileBoot (env : Env) (stamp : Stamp) (record : Record) : Run Unit := do
  let kept ← look fun s => ((s.roots .root).map Subvolume.kernels).getD []
  if record.kernel ∉ kept then fail (.kernelMissing record.kernel)
  else do
    let entries ← look fun s => bootEntries s.boot
    forEach entries fun entry =>
      if isRescue entry.1 || entry.1 ∈ kept then pure ()
      else forEach (entry.2 :: KERNEL_FILES entry.1) (retireFile stamp)
    match ← look fun s => (bootEntries s.boot).lookup record.kernel with
    | none => fail (.noEntry record.kernel)
    | some path =>
        if env.grub then do
          effect fun s => { s with savedEntry := some (entryId path) }
          effect fun s => { s with nextEntry := none }
        else pure ()

/-! ### Nested subvolumes -/

def nestedOf (root : Subvolume) : List Text :=
  root.places.filterMap fun
    | (relative, .subvolume _) => some relative
    | _ => none

/-- Move one nested subvolume to the empty directory it left in the root. -/
def moveNested (stamp : Stamp) (relative : Text) : Run Unit := do
  match ← look fun s => (s.roots .root).bind (·.places.lookup relative) with
  | some .emptyDirectory => do
      effect fun s => s.setPlaces .root (remove · relative)
      effect fun s =>
        let nested := (s.roots (.replaced stamp)).bind (·.places.lookup relative)
        (s.setPlaces (.replaced stamp) (remove · relative)).setPlaces .root
          (put · relative (nested.getD .occupied))
  | _ => pure ()

def moveNestedSubvolumes (stamp : Stamp) : Run Unit := do
  let listing ← look fun s => ((s.roots (.replaced stamp)).map nestedOf).getD []
  forEach listing (moveNested stamp)

/-! ### Finishing and undoing -/

def finishRestore (env : Env) (stamp : Stamp) (record : Record) : Run Unit :=
  if record.state = .swapped then do
    reconcileBoot env stamp record
    writeRecord stamp { record with state := .complete }
  else pure ()

/-- Unlink one staged file. -/
def unstage (path : Text) : Run Unit := do
  if ← look (exists? ·.boot path) then effect fun s => { s with boot := remove s.boot path }
  else pure ()

/-- Whether `incoming` is the unused copy of this restore. -/
def isUnused (env : Env) (stamp : Stamp) (record : Record) : Run Bool := do
  let incomingUuid ← subvolumeUuid env stamp .unusedIncoming (.incoming stamp)
  if incomingUuid = none ∨ incomingUuid ≠ record.newRoot then pure false
  else do
    let rootUuid ← subvolumeUuid env stamp .unusedRoot .root
    pure (rootUuid == record.oldRoot)

/-- `btrfs subvolume delete` on the unused copy, whether or not it works. -/
def deleteIncoming (env : Env) (stamp : Stamp) : Run Unit :=
  if env.deletes stamp then effect (·.setRoot (.incoming stamp) none) else pure ()

/-- Staged kernels were absent before; the record goes last. -/
def forgetRestore (stamp : Stamp) (record : Record) : Run Unit := do
  forEach record.staged unstage
  effect fun s => { s with records := remove s.records stamp }

/-- Discard a restore that never exchanged roots. Refuses anything ambiguous. -/
def undoPrepared (env : Env) (stamp : Stamp) (record : Record) : Run Bool := do
  if ← look (·.hasRoot (.incoming stamp)) then
    if ← isUnused env stamp record then do
      deleteIncoming env stamp
      forgetRestore stamp record
      pure true
    else pure false
  else do
    forgetRestore stamp record
    pure true

/-- Whether the exchange of this restore happened. -/
def looksExchanged (env : Env) (stamp : Stamp) (record : Record) : Run Bool := do
  if ← look (·.hasRoot (.incoming stamp)) then do
    let incomingUuid ← subvolumeUuid env stamp .exchangedIncoming (.incoming stamp)
    if incomingUuid = record.oldRoot then do
      let rootUuid ← subvolumeUuid env stamp .exchangedRoot .root
      pure (rootUuid == record.newRoot)
    else pure false
  else pure false

/-- `finish_restore` with its refusals only reported. -/
def finishOrWarn (env : Env) (stamp : Stamp) (record : Record) : Run Unit :=
  (finishRestore env stamp record).catching fun _ => pure ()

def completeSwap (env : Env) (stamp : Stamp) (record : Record) : Run Unit := do
  let record := { record with state := .swapped }
  writeRecord stamp record
  moveNestedSubvolumes stamp
  finishOrWarn env stamp record

def completeOne (env : Env) (stamp : Stamp) : Run Unit := do
  match ← look (·.records.lookup stamp) with
  | none => pure ()
  | some record =>
      match record.state with
      | .complete => pure ()
      | .swapped => finishOrWarn env stamp record
      | .prepared => do
          if ← looksExchanged env stamp record then do
            renameIncoming stamp
            completeSwap env stamp record
          else if ← look (·.hasRoot (.replaced stamp)) then completeSwap env stamp record
          else do
            let _ ← undoPrepared env stamp record
            pure ()

/-- Finish or roll back every restore that stopped part-way. -/
def completeInterrupted (env : Env) : Run Unit := do
  let stamps ← look fun s => (s.records.map Prod.fst).insertionSort (· ≤ ·)
  forEach stamps (completeOne env)

/-! ### Commands -/

/-- Undo what an exception stopped, and pass the exception on. -/
def orUndo {α : Type} (env : Env) (stamp : Stamp) (record : Record) (program : Run α) : Run α :=
  program.catching fun error => do
    let _ ← undoPrepared env stamp record
    fail error

/-- The record and the staged files; `record["staged"]` is still empty. -/
def prepareRestore (env : Env) (name : Text) (point : Point) (stamp : Stamp)
    (record : Record) : Run (List Text) := do
  mayRaise env .record
  writeRecord stamp record
  stageBootFiles env name point.archive (.incoming stamp) stamp

/-- The staged files recorded, and the exchange: `root` is the restored copy
from here on. -/
def exchangeRoots (env : Env) (stamp : Stamp) (record : Record) : Run Unit := do
  mayRaise env .staged
  writeRecord stamp record
  if ← look fun s => decide (record.kernel ∉ (bootEntries s.boot).map Prod.fst) then
    fail (.notBootable record.kernel record.point)
  else do
    mayRaise env .exchange
    effect fun s => s.exchange (.incoming stamp) .root
    mayRaise env .exchanged

/-- The restore of a recovery point once it was found, from the writable copy
on. -/
def restorePoint (env : Env) (name : Text) (point : Point) (kernel : Text) (stamp : Stamp) :
    Run Unit := do
  effect fun s => s.snapshotTo (.incoming stamp) point.snapshot
  let oldRoot ← subvolumeUuid env stamp .recordOld .root
  let newRoot ← subvolumeUuid env stamp .recordNew (.incoming stamp)
  let record : Record :=
    { point := name
      kernel := kernel
      state := .prepared
      staged := []
      oldRoot := oldRoot
      newRoot := newRoot }
  let placed ← orUndo env stamp record (prepareRestore env name point stamp record)
  let record := { record with staged := placed }
  orUndo env stamp record (exchangeRoots env stamp record)
  renameIncoming stamp
  let record := { record with state := .swapped }
  writeRecord stamp record
  moveNestedSubvolumes stamp
  finishRestore env stamp record

def commandRestore (repairing env : Env) (name : Text) (stamp : Stamp) : Run Unit := do
  completeInterrupted repairing
  match ← look (·.points.lookup name) with
  | none => fail (.pointNotFound name)
  | some point => do
      if ← look (!·.hasRoot .root) then fail .rootMissing
      else do
        let entries ← look fun s => bootEntries s.boot
        match pointKernel point entries <|> point.snapshot.kernels.getLast? with
        | none => fail (.noKernel name)
        | some kernel => do
            if ← look fun s => s.hasRoot (.replaced stamp) || s.hasRoot (.incoming stamp) then
              fail .startedAlready
            else restorePoint env name point kernel stamp

def commandRefresh (env : Env) : Run Unit := completeInterrupted env

end Snapshot

end CybexOS
