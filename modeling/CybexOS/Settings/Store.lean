/-
The settings file (`Settings.qml`): loading it, saving the running settings over
it, and what keeps a file that could not be used from being overwritten.
-/
import CybexOS.Json.Js
import CybexOS.JsString

namespace CybexOS

namespace Settings

open Json (JsValue jsonParse)

/-! ### The file's text -/

def VERSION : Nat := 26

inductive Parsed where
  | empty
  | ok (value : JsValue)
  | corrupt

def isObject : JsValue → Bool
  | .obj _ => true
  | _ => false

/-- `parse` -/
def parse (text : Text) : Parsed :=
  if jsTrim text = [] then .empty
  else
    match (jsonParse text).filter isObject with
    | some value => .ok value
    | none => .corrupt

def Parsed.value : Parsed → Option JsValue
  | .ok value => some value
  | _ => none

def Parsed.isOk : Parsed → Bool
  | .ok _ => true
  | _ => false

def Parsed.isEmpty : Parsed → Bool
  | .empty => true
  | _ => false

def Parsed.isCorrupt : Parsed → Bool
  | .corrupt => true
  | _ => false

def isNewerSchema (value : Option JsValue) : Bool :=
  match value.bind (·.field? (ascii "v")) with
  | some (.num (.fin version)) => VERSION < version.val
  | some (.num (.inf negative)) => !negative
  | _ => false

/-- `parsed !== null && parsed.v !== VERSION` -/
def needsMigration (value : Option JsValue) : Bool :=
  value.any fun value =>
    match value.field? (ascii "v") with
    | some (.num (.fin version)) => version.val ≠ VERSION
    | _ => true

/-- What the store uses of the settings' schema: `merge` of a parsed file with
the defaults, the weather of the environment put into it, and `serialize`. -/
structure Schema (σ : Type) where
  merge : Option JsValue → σ
  seedWeatherFromEnv : Option JsValue → σ → σ
  serialize : σ → Text

/-! ### State -/

/-- What the last read came to.  A corrupt text is being moved aside, or not. -/
inductive Seen where
  | usable
  | corrupt (movingAside : Bool)
  | newer
  | failed
deriving DecidableEq

/-- A call of `setText`, with what the last read had come to. -/
structure SetText where
  text : Text
  seen : Seen
deriving DecidableEq

structure Store (σ : Type) where
  settings : σ
  loaded : Bool
  ready : Bool
  loadError : Bool
  saveError : Bool
  recheckPending : Bool
  corruptBackupPending : Bool
  migrationPending : Bool
  writeInFlight : Bool
  reloadAfterWrite : Bool
  writeSnapshot : Text
  lastPersistedText : Text
  storeText : Text
  saveTimer : Bool
  reloadTimer : Bool
  /-- `corruptBackupProc.running` -/
  backupRunning : Bool
  /-- The view has been told to read the file. -/
  reading : Bool
  seen : Seen
  calls : List SetText

def Store.initial {σ : Type} (settings : σ) : Store σ where
  settings := settings
  loaded := false
  ready := false
  loadError := false
  saveError := false
  recheckPending := false
  corruptBackupPending := false
  migrationPending := false
  writeInFlight := false
  reloadAfterWrite := false
  writeSnapshot := []
  lastPersistedText := []
  storeText := []
  saveTimer := false
  reloadTimer := false
  backupRunning := false
  reading := true
  seen := .usable
  calls := []

section

variable {σ : Type} [DecidableEq σ] (schema : Schema σ)

/-! ### Loading -/

def Store.backUpCorruptFile (s : Store σ) : Store σ :=
  if s.corruptBackupPending then s
  else { s with corruptBackupPending := true, backupRunning := true, seen := .corrupt true }

def Store.protectNewerFile (s : Store σ) : Store σ :=
  { s with loadError := true, saveTimer := false }

/-- What a text that has just been read comes to. -/
def seenIn (parsed : Parsed) : Seen :=
  match parsed with
  | .corrupt => .corrupt false
  | .empty => .usable
  | .ok value => if isNewerSchema (some value) then .newer else .usable

/-- The settings of the file become the running ones. -/
def Store.adopt (s : Store σ) (value : Option JsValue) : Store σ :=
  { s with
    settings := schema.seedWeatherFromEnv value (schema.merge value)
    ready := true
    loaded := true
    migrationPending := needsMigration value
    saveTimer := false }

def Store.applyLoaded (s : Store σ) (rawText : Text) : Store σ :=
  let parsed := parse rawText
  let s := { s with storeText := rawText, seen := seenIn parsed }
  -- an empty or partial file may be one that is just being written
  if s.loaded && !parsed.isOk && !s.recheckPending then
    { s with recheckPending := true, reloadTimer := true }
  else
    let s := { s with recheckPending := false, loadError := false }
    let s := if parsed.isCorrupt then s.backUpCorruptFile else s
    if s.loaded && parsed.isEmpty then { s with ready := true }
    else
      let s := if isNewerSchema parsed.value then s.protectNewerFile else s
      let previousText := s.lastPersistedText
      let s := if parsed.isCorrupt then s else { s with lastPersistedText := rawText }
      if s.loaded && ((parsed.isOk && rawText = previousText) ||
          schema.serialize (schema.merge parsed.value) = schema.serialize s.settings) then
        { s with ready := true }
      else s.adopt schema parsed.value

inductive Reading where
  | text (rawText : Text)
  | notFound
  | failed

def Store.read (s : Store σ) (reading : Reading) : Store σ :=
  let s := { s with reading := false }
  match reading with
  | .text rawText => s.applyLoaded schema rawText
  | .notFound => Store.applyLoaded schema { s with loadError := false } []
  | .failed =>
      { s with
        storeText := []
        recheckPending := false
        ready := false
        loadError := true
        saveTimer := false
        seen := .failed }

def Store.reloadStore (s : Store σ) : Store σ :=
  if s.writeInFlight then { s with reloadAfterWrite := true } else { s with reading := true }

/-! ### Saving -/

/-- A retried write may carry one extra trailing newline. -/
def sameContent (text written : Text) : Bool := text = written || text ++ [10] = written

def Store.releaseWriteGuard (s : Store σ) : Store σ :=
  { s with
    writeInFlight := false
    writeSnapshot := []
    reloadAfterWrite := false
    reloadTimer := s.reloadTimer || s.reloadAfterWrite }

def Store.handleSaveFailure (s : Store σ) : Store σ :=
  Store.releaseWriteGuard { s with storeText := s.writeSnapshot, saveError := true }

def Store.handleSaveSucceeded (s : Store σ) : Store σ :=
  let completedSnapshot := s.writeSnapshot
  let s := Store.releaseWriteGuard { s with
    lastPersistedText := completedSnapshot, storeText := completedSnapshot, saveError := false }
  if sameContent (schema.serialize s.settings) completedSnapshot then s
  else { s with saveTimer := true }

/-- What `saveNow` checks first. -/
def Store.maySave (s : Store σ) : Bool :=
  s.ready && !s.migrationPending && !s.corruptBackupPending && !s.loadError && !s.writeInFlight

/-- `saveNow` writes the settings. -/
def Store.writes (s : Store σ) : Bool :=
  s.maySave && !sameContent (schema.serialize s.settings) s.lastPersistedText

/-- `throws` says whether `setText` does. -/
def Store.saveNow (s : Store σ) (throws : Bool) : Store σ :=
  if !s.maySave then s
  else
    let next := schema.serialize s.settings
    if sameContent next s.lastPersistedText then { s with saveError := false }
    else
      let writeSnapshot := if next = s.storeText then next ++ [10] else next
      let s := { s with
        writeSnapshot := writeSnapshot
        writeInFlight := true
        calls := s.calls ++ [⟨writeSnapshot, s.seen⟩] }
      if throws then s.handleSaveFailure else s

def Store.scheduleSave (s : Store σ) : Store σ :=
  if !s.ready || s.migrationPending || s.corruptBackupPending || s.loadError then s
  else { s with saveTimer := true }

/-- A writer: most clear `migrationPending`, and an assignment may notify even
though the value is the same. -/
def Store.change (s : Store σ) (settings : σ) (clears notifies : Bool) : Store σ :=
  let next := { s with
    settings := settings, migrationPending := s.migrationPending && !clears }
  if notifies ∨ settings ≠ s.settings then next.scheduleSave else next

def Store.retrySave (s : Store σ) (throws : Bool) : Store σ :=
  if s.loadError then { s with reading := true } else s.saveNow schema throws

/-- `corruptBackupProc.onExited` -/
def Store.backupExited (s : Store σ) (exitCode : ℤ) : Store σ :=
  if !s.backupRunning then s
  else if exitCode = 0 then
    { s with
      backupRunning := false
      corruptBackupPending := false
      seen := if s.seen = .corrupt true then .usable else s.seen }
  else { s with backupRunning := false }

/-- `store.onFileChanged` -/
def Store.fileChanged (s : Store σ) : Store σ :=
  if s.loaded then { s with reloadTimer := true } else { s with reading := true }

/-! ### Events -/

inductive Event (σ : Type) where
  | read (reading : Reading)
  | change (settings : σ) (clears notifies : Bool)
  | saveTimeout (throws : Bool)
  | reloadTimeout
  | retrySave (throws : Bool)
  | saved
  | saveFailed
  | backupExited (exitCode : ℤ)
  | fileChanged

def Store.step (s : Store σ) : Event σ → Store σ
  | .read reading => s.read schema reading
  | .change settings clears notifies => s.change settings clears notifies
  | .saveTimeout throws =>
      if s.saveTimer then Store.saveNow schema { s with saveTimer := false } throws else s
  | .reloadTimeout =>
      if s.reloadTimer then Store.reloadStore { s with reloadTimer := false } else s
  | .retrySave throws => s.retrySave schema throws
  | .saved => if s.writeInFlight then s.handleSaveSucceeded schema else s
  | .saveFailed => if s.writeInFlight then s.handleSaveFailure else s
  | .backupExited exitCode => s.backupExited exitCode
  | .fileChanged => s.fileChanged

end

end Settings

end CybexOS
