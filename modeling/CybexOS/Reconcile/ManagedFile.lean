/-
Vendor defaults that are kept only while their bytes are those of the last write
(`cybexos_managed_file.py`): the ledger, the backups and the call that maintains them.
-/
import CybexOS.Programs
import CybexOS.Runs
import CybexOS.Text

namespace CybexOS

namespace Reconcile

/-- What is at a path; `other` is a link, something below a link, or no regular file. -/
inductive Entry where
  | absent
  | file (bytes : Text)
  | other
deriving DecidableEq

def Entry.bytes : Entry → Option Text
  | .file bytes => some bytes
  | _ => none

/-- The entry that has these bytes, or none. -/
def Entry.holding : Option Text → Entry
  | some bytes => .file bytes
  | none => .absent

/-- The files, the digests that the ledger has of each path, and the backups by the
digest of a path and of a content. -/
structure Disk (D : Type) where
  entries : Text → Entry
  ledger : Text → List D
  backups : D → D → Option Text

/-- What a call reports. -/
structure Report where
  changed : Bool
  preserved : Bool
deriving DecidableEq

section

variable {D : Type} [DecidableEq D]

namespace Disk

def put (s : Disk D) (path : Text) (entry : Entry) : Disk D :=
  { s with entries := Function.update s.entries path entry }

def own (s : Disk D) (path : Text) (digests : List D) : Disk D :=
  { s with ledger := Function.update s.ledger path digests }

def backUp (s : Disk D) (path digest : D) (bytes : Text) : Disk D :=
  { s with
    backups := Function.update s.backups path
      (Function.update (s.backups path) digest (some bytes)) }

/-- What is at the path was not written by the last call: other bytes, or nothing
where there was something. -/
def custom (s : Disk D) (sha256 : Text → D) (destination : Text) (requested : Option Text) : Bool :=
  match s.entries destination with
  | .other => true
  | .absent => s.ledger destination ≠ []
  | .file bytes =>
      requested.map sha256 ≠ some (sha256 bytes) && sha256 bytes ∉ s.ledger destination

end Disk

/-- The bytes that are replaced are kept, once. -/
def keepBackup (sha256 : Text → D) (destination : Text) (replaced : Option Text) :
    Program (Disk D) Unit Unit :=
  match replaced with
  | none => pure ()
  | some bytes => do
      let kept ← Program.look fun s => s.backups (sha256 destination) (sha256 bytes)
      if kept.isSome then pure ()
      else Program.effect fun s => s.backUp (sha256 destination) (sha256 bytes) bytes

/-- Write the content, or remove the file. -/
def publish (destination : Text) (requested : Option Text) (changed : Bool) :
    Program (Disk D) Unit Unit :=
  if changed then Program.effect fun s => s.put destination (.holding requested) else pure ()

/-- `manage`, with no content requested for an absent file. -/
def manage (sha256 : Text → D) (destination : Text) (requested : Option Text) (check : Bool) :
    Program (Disk D) Unit Report := do
  let s ← Program.look id
  let current := (s.entries destination).bytes
  let changed : Bool := current ≠ requested
  if s.custom sha256 destination requested then pure ⟨false, true⟩
  else if check then pure ⟨changed, false⟩
  else do
    keepBackup sha256 destination (if changed then current else none)
    Program.effect fun s => s.own destination
      ((current.map sha256).toList ++ (requested.map sha256).toList).eraseDups
    publish destination requested changed
    Program.effect fun s => s.own destination (requested.map sha256).toList
    pure ⟨changed, false⟩

end

/-! ### Sequences of calls -/

/-- A call, killed after some of its effects or never, or what somebody else puts at a path. -/
inductive ManageEvent where
  | calls (destination : Text) (requested : Option Text) (check : Bool) (killed : Option ℕ)
  | edits (path : Text) (entry : Entry)

/-- The disk, and the digests of what calls have asked to write at each path. -/
structure Past (D : Type) where
  disk : Disk D
  asked : Text → List D

section

variable {D : Type} [DecidableEq D]

def Past.step (sha256 : Text → D) (p : Past D) : ManageEvent → Past D
  | .calls destination requested check killed =>
      { disk := (manage sha256 destination requested check).leaves killed p.disk
        asked := if check then p.asked else Function.update p.asked destination
          ((requested.map sha256).toList ++ p.asked destination) }
  | .edits path entry => { p with disk := p.disk.put path entry }

/-- Before the first call. -/
def Past.fresh (entries : Text → Entry) : Past D where
  disk := ⟨entries, fun _ => [], fun _ _ => none⟩
  asked := fun _ => []

end

end Reconcile

end CybexOS
