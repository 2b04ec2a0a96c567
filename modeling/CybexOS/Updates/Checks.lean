/-
Update checks (`Updates.qml`, `UpdatesHelpers.js`): what the sources answer, the
cached dnf answer, queued and deferred checks, and the recount after a run.
-/
import CybexOS.Decimal
import CybexOS.JsString
import Mathlib.Data.List.Sort
import Mathlib.Logic.Function.Basic

namespace CybexOS

namespace Updates

/-! ### Helpers -/

/-- `CHECK_SOURCES` -/
inductive Source where
  | dnf
  | flatpak
  | firmware
  | project
deriving DecidableEq

/-- The sources that a check covers. -/
abbrev Parts := Source → Bool

def allParts : Parts := fun _ => true

/-- `postRunRetryNeeded` -/
def postRunRetryNeeded (complete done : Bool) (dnfCount flatpakCount : ℕ)
    (includedFlatpak : Bool) : Bool :=
  if complete = false then true
  else if done = false then false
  else 0 < dnfCount || (includedFlatpak && 0 < flatpakCount)

def checkIsFresh (lastChecked now maxAgeMs : ℤ) : Bool :=
  0 < lastChecked && 0 ≤ now - lastChecked && now - lastChecked < maxAgeMs

/-- `/\/rpmdb\.sqlite /` -/
def namesRpmdb (line : Text) : Bool := line.tails.any (ascii "/rpmdb.sqlite ").isPrefixOf

def dnfSignature (text : Text) : Text :=
  let lines := ((text.splitOn 10).map jsTrim).filter fun line => line ≠ []
  if lines.any namesRpmdb then
    [10].intercalate (lines.mergeSort fun first second => first ≤ second)
  else []

def DNF_ANSWER_MAX_AGE_MS : ℤ := 6 * 3600 * 1000

def dnfAnswerReusable (signature cachedSignature : Text) (cachedAt now : ℤ) : Bool :=
  signature ≠ [] && signature = cachedSignature &&
    checkIsFresh cachedAt now DNF_ANSWER_MAX_AGE_MS

def NOT_STARTED : ℤ := -1

/-- `lastLine`, of at most 160 units. -/
def lastLine (text : Text) : Text :=
  match ((text.splitOn 10).reverse.map jsTrim).find? fun line => line ≠ [] with
  | none => []
  | some line => if 160 < line.length then line.take 159 ++ [0x2026] else line

/-- `ProcHelpers.commandError`, with what exit code 124 means. -/
def commandError (label : Text) (exitCode : ℤ) (stderrText timedOut : Text) : Text :=
  let said := lastLine stderrText
  if said ≠ [] then said
  else if exitCode = NOT_STARTED then label ++ ascii " could not be started"
  else if exitCode = 124 then timedOut
  else label ++ ascii " exited with status " ++ integerText exitCode

/-- `/curl:.*(?:error:|returned error:) <status>/` -/
def curlStatus (message status : Text) : Bool :=
  (message.splitOn 10).any fun line => line.tails.any fun rest =>
    (ascii "curl:").isPrefixOf rest &&
      (rest.drop 5).tails.any (ascii "error: " ++ status).isPrefixOf

def projectCheckError (message : Text) : Text :=
  let reason := match afterPrefix (ascii "update:") message with
    | some rest => rest.dropWhile isJsSpace
    | none => message
  if curlStatus reason (ascii "403") then
    ascii ("CybexOS: GitHub refused the release check (HTTP 403). " ++
      "Its API may be rate limited; try again later.")
  else if curlStatus reason (ascii "404") then
    ascii ("CybexOS: GitHub found no published release (HTTP 404), " ++
      "or the repository is inaccessible.")
  else ascii "CybexOS: " ++ reason

theorem commandError_ne_nil {label : Text} {exitCode : ℤ} {stderrText timedOut : Text}
    (h : timedOut ≠ []) : commandError label exitCode stderrText timedOut ≠ [] := by
  unfold commandError
  dsimp only
  split_ifs with hsaid
  · exact hsaid
  · exact List.append_ne_nil_of_right_ne_nil _ (by decide)
  · exact h
  · exact List.append_ne_nil_of_left_ne_nil (List.append_ne_nil_of_right_ne_nil _ (by decide)) _

theorem projectCheckError_ne_nil (message : Text) : projectCheckError message ≠ [] := by
  unfold projectCheckError
  dsimp only
  split_ifs
  · decide
  · decide
  · exact List.append_ne_nil_of_left_ne_nil (by decide) _

/-! ### Answers -/

structure Security where
  count : ℕ
  severe : Bool
deriving DecidableEq

/-- What the package and the advisory list tell. -/
structure DnfAnswer where
  names : List Text
  kernel : Text
  security : Security
deriving DecidableEq

structure Project where
  available : Bool
  version : Text
  applyNote : Text
  status : Text
deriving DecidableEq

def noSecurity : Security := ⟨0, false⟩

def noPackages : DnfAnswer := ⟨[], [], noSecurity⟩

def noProject : Project := ⟨false, [], [], []⟩

/-- The project as it is published. -/
def Project.published (project : Project) : Project :=
  { project with applyNote := if project.available then project.applyNote else [] }

/-- A source: what is published, the result and the error of the running check,
and the last answer. -/
structure Channel (α : Type) where
  shown : α
  next : α
  error : Text
  done : Bool
  answer : Option α

namespace Channel

variable {α : Type}

/-- Nothing is known and nothing runs. -/
def idle (initial : α) : Channel α := ⟨initial, initial, [], true, none⟩

def start (c : Channel α) (initial : α) : Channel α :=
  { c with next := initial, error := [], done := false }

/-- A source that is off has nothing to tell. -/
def skip (c : Channel α) (initial : α) : Channel α :=
  { c with next := initial, error := [], done := true, answer := some initial }

def succeed (c : Channel α) (answer : α) : Channel α :=
  { c with next := answer, done := true, answer := some answer }

def fail (c : Channel α) (error : Text) : Channel α := { c with error := error, done := true }

/-- The published answer is replaced if the check covers the source and it answered. -/
def publish (c : Channel α) (part : Bool) : Channel α :=
  if part = true ∧ c.error = [] then { c with shown := c.next } else c

end Channel

/-! ### The checks -/

/-- `dnfSignatureProc`, `dnfProc` or `dnfSecurityProc`. -/
inductive DnfProcess where
  | signature
  | packages
  | security
deriving DecidableEq

inductive RunState where
  | idle
  | running
  | done
  | failed
deriving DecidableEq

/-- The checks, with the last names that were read of Flatpak, the signature whose
cached answer the running check reuses and the one whose answer is published, if its
advisory list was read, whether a check is owed since the last run has finished, and
whether the running check was started since then and covers everything. -/
structure Checks (D : Type) where
  dnf : Channel DnfAnswer
  flatpak : Channel (List Text)
  firmware : Channel (List D)
  project : Channel Project
  dnfProcess : Option DnfProcess
  /-- `dnfProc.signature` -/
  signature : Text
  dnfForced : Bool
  dnfCacheSignature : Text
  dnfCache : DnfAnswer
  dnfCacheAt : ℤ
  checkParts : Parts
  checkAgain : Bool
  checkAgainForced : Bool
  checkFailureCount : ℕ
  online : Bool
  flatpakEnabled : Bool
  runState : RunState
  runIncludedFlatpak : Bool
  postRunCheck : ℕ
  /-- `recheck.running` -/
  recheck : Bool
  /-- `Qt.callLater(root.check)` -/
  deferredCheck : Bool
  /-- `Qt.callLater(root.startCheck, allParts, forced)`; a later call replaces the argument. -/
  deferredStart : Option Bool
  flatpakRead : Option (List Text)
  cacheWhole : Bool
  reuses : Option Text
  reused : Option Text
  owed : Bool
  recount : Bool

namespace Checks

variable {D : Type}

def busy (s : Checks D) : Bool :=
  !(s.dnf.done && s.flatpak.done && s.firmware.done && s.project.done)

def runActive (s : Checks D) : Bool := s.runState = .running

def error (s : Checks D) : Source → Text
  | .dnf => s.dnf.error
  | .flatpak => s.flatpak.error
  | .firmware => s.firmware.error
  | .project => s.project.error

def failedParts (s : Checks D) : Parts := fun source => s.error source ≠ []

/-- What the check's end publishes. -/
def publish (s : Checks D) : Checks D :=
  { s with
    dnf := s.dnf.publish (s.checkParts .dnf)
    flatpak := s.flatpak.publish (s.checkParts .flatpak)
    firmware := s.firmware.publish (s.checkParts .firmware)
    project := s.project.publish (s.checkParts .project)
    reused := if s.checkParts .dnf = true ∧ s.dnf.error = [] then s.reuses else s.reused }

/-- The failures are counted, and the recount after a run is repeated once. -/
def settle (s : Checks D) : Checks D :=
  let complete : Bool := s.dnf.error = [] && s.flatpak.error = [] && s.firmware.error = [] &&
    s.project.error = []
  let again : Bool := s.postRunCheck = 1 && postRunRetryNeeded complete (s.runState = .done)
    s.dnf.shown.names.length s.flatpak.shown.length s.runIncludedFlatpak
  { s with
    checkFailureCount := if complete then 0 else s.checkFailureCount + 1
    postRunCheck := if again then 2 else 0
    recheck := if again then true else s.recheck
    deferredStart := if s.checkAgain then some s.checkAgainForced else s.deferredStart }

def finishCheck (s : Checks D) : Checks D := if s.busy then s else s.publish.settle

/-- The sources of a new check. -/
def begin (s : Checks D) (parts : Parts) (forced : Bool) : Checks D :=
  { s with
    checkAgain := false
    checkAgainForced := false
    checkParts := parts
    recount := s.owed && parts .dnf && parts .flatpak && parts .firmware && parts .project
    dnf := if parts .dnf then s.dnf.start noPackages else s.dnf
    dnfProcess := if parts .dnf then some .signature else s.dnfProcess
    dnfForced := if parts .dnf then forced else s.dnfForced
    reuses := if parts .dnf then none else s.reuses
    flatpak :=
      if parts .flatpak then
        if s.flatpakEnabled then s.flatpak.start [] else s.flatpak.skip []
      else s.flatpak
    project := if parts .project then s.project.start noProject else s.project
    firmware := if parts .firmware then s.firmware.start [] else s.firmware }

def startCheck (s : Checks D) (parts : Parts) (forced : Bool) : Checks D :=
  if s.runActive then s
  else if s.busy then
    { s with checkAgain := true, checkAgainForced := s.checkAgainForced || forced }
  else (s.begin parts forced).finishCheck

def check (s : Checks D) : Checks D :=
  ({ s with checkFailureCount := 0 } : Checks D).startCheck allParts true

def automaticCheck (s : Checks D) (resetRetries failedOnly : Bool) : Checks D :=
  if s.online = false then s
  else
    let counted : Checks D := if resetRetries then { s with checkFailureCount := 0 } else s
    counted.startCheck (if failedOnly then s.failedParts else allParts) false

/-! ### Answers -/

def readDnf (s : Checks D) (signature : Text) (now : ℤ) : Checks D :=
  if s.dnfForced = false ∧
      dnfAnswerReusable signature s.dnfCacheSignature s.dnfCacheAt now = true then
    ({ s with
      dnf := { s.dnf with next := s.dnfCache, done := true }
      dnfProcess := none
      reuses := if s.cacheWhole then some signature else none } : Checks D).finishCheck
  else
    { s with
      signature := signature
      dnfProcess := some .packages
      owed := if s.recount then false else s.owed }

/-- With what `dnfNames` and `dnfKernelVersion` read of the output. -/
def finishDnf (s : Checks D) (exitCode : ℤ) (names : List Text) (kernel errText : Text)
    (now : ℤ) : Checks D :=
  if exitCode = 0 ∨ exitCode = 100 then
    let answer : DnfAnswer := ⟨names, kernel, noSecurity⟩
    let cached : Checks D := { s with
      dnfCacheSignature := s.signature
      dnfCache := answer
      dnfCacheAt := now
      cacheWhole := names = [] }
    if names ≠ [] then
      { cached with dnf := { s.dnf with next := answer }, dnfProcess := some .security }
    else
      ({ cached with dnf := s.dnf.succeed answer, dnfProcess := none } : Checks D).finishCheck
  else
    ({ s with
      dnfCacheSignature := []
      dnf := s.dnf.fail (commandError (ascii "dnf check-update") exitCode errText
        (ascii "dnf check-update timed out"))
      dnfProcess := none } : Checks D).finishCheck

/-- With what `securityAdvisories` reads of the output, unless it throws. -/
def finishDnfSecurity (s : Checks D) (exitCode : ℤ) (security : Option Security) : Checks D :=
  let read : Option Security := if exitCode = 0 then security else none
  let answer : DnfAnswer := { s.dnf.next with security := read.getD noSecurity }
  ({ s with
    dnf := s.dnf.succeed answer
    dnfCache := { s.dnfCache with security := read.getD noSecurity }
    cacheWhole := read.isSome
    dnfProcess := none } : Checks D).finishCheck

def finishFlatpak (s : Checks D) (exitCode : ℤ) (names : List Text) (errText : Text) : Checks D :=
  if exitCode = 0 then
    ({ s with flatpak := s.flatpak.succeed names, flatpakRead := some names } :
      Checks D).finishCheck
  else
    ({ s with flatpak := s.flatpak.fail (commandError (ascii "flatpak update check") exitCode
      errText (ascii "Flatpak update check timed out")) } : Checks D).finishCheck

/-- With what `firmwareDevices` reads of the output, unless it throws. -/
def finishFirmware (s : Checks D) (exitCode : ℤ) (devices : Option (List D)) (errText : Text) :
    Checks D :=
  let ended : Channel (List D) :=
    if exitCode = 2 then s.firmware.succeed []
    else if exitCode = 0 then
      match devices with
      | some found => s.firmware.succeed found
      | none => s.firmware.fail (ascii "Firmware update check returned invalid data")
    else s.firmware.fail (commandError (ascii "Firmware update check") exitCode errText
      (ascii "Firmware update check timed out"))
  ({ s with firmware := ended } : Checks D).finishCheck

/-- With the project of the output, unless that is no JSON object. -/
def finishProject (s : Checks D) (exitCode : ℤ) (project : Option Project) (errText : Text) :
    Checks D :=
  let ended : Channel Project :=
    if exitCode = 0 then
      match project with
      | some found => s.project.succeed found.published
      | none => s.project.fail (ascii "CybexOS update check returned invalid data")
    else s.project.fail (projectCheckError (commandError (ascii "CybexOS update check") exitCode
      errText (ascii "CybexOS update check timed out")))
  ({ s with project := ended } : Checks D).finishCheck

/-! ### Runs of the updater -/

/-- `resetRun`, or a status that says so. -/
def startRun (s : Checks D) (includedFlatpak : Bool) : Checks D :=
  { s with
    runState := .running
    runIncludedFlatpak := includedFlatpak
    owed := false
    recount := false }

def finishRun (s : Checks D) (done : Bool) : Checks D :=
  if s.runActive then
    { s with
      runState := if done then .done else .failed
      recheck := false
      postRunCheck := 1
      deferredCheck := true
      owed := true
      recount := false }
  else s

end Checks

inductive CheckEvent (D : Type) where
  | refreshes
  | automatic (resetRetries failedOnly : Bool)
  | connects (online : Bool)
  | togglesFlatpak (enabled checks : Bool)
  | signatureEnds (listing : Option Text) (now : ℤ)
  | dnfEnds (exitCode : ℤ) (names : List Text) (kernel errText : Text) (now : ℤ)
  | securityEnds (exitCode : ℤ) (security : Option Security)
  | flatpakEnds (exitCode : ℤ) (names : List Text) (errText : Text)
  | firmwareEnds (exitCode : ℤ) (devices : Option (List D)) (errText : Text)
  | projectEnds (exitCode : ℤ) (project : Option Project) (errText : Text)
  | runStarts (includedFlatpak : Bool)
  | runEnds (done : Bool)
  | dismisses
  | rechecks
  | runsCheck
  | runsStart

namespace Checks

variable {D : Type}

/-- A process can end now. It was started after the last check had ended, so a
start that was deferred then comes before its end. -/
def Ends (s : Checks D) (running : Prop) : Prop := running ∧ s.deferredStart = none

instance (s : Checks D) (running : Prop) [Decidable running] : Decidable (s.Ends running) :=
  inferInstanceAs (Decidable (_ ∧ _))

def step (s : Checks D) : CheckEvent D → Checks D
  | .refreshes => s.check
  | .automatic resetRetries failedOnly => s.automaticCheck resetRetries failedOnly
  | .connects online => { s with online := online }
  | .togglesFlatpak enabled checks =>
      let toggled : Checks D := { s with flatpakEnabled := enabled }
      if checks then toggled.automaticCheck true false else toggled
  | .signatureEnds listing now =>
      if s.Ends (s.dnfProcess = some .signature) then
        s.readDnf ((listing.map dnfSignature).getD []) now
      else s
  | .dnfEnds exitCode names kernel errText now =>
      if s.Ends (s.dnfProcess = some .packages) then s.finishDnf exitCode names kernel errText now
      else s
  | .securityEnds exitCode security =>
      if s.Ends (s.dnfProcess = some .security) then s.finishDnfSecurity exitCode security else s
  | .flatpakEnds exitCode names errText =>
      if s.Ends (s.flatpak.done = false) then s.finishFlatpak exitCode names errText else s
  | .firmwareEnds exitCode devices errText =>
      if s.Ends (s.firmware.done = false) then s.finishFirmware exitCode devices errText else s
  | .projectEnds exitCode project errText =>
      if s.Ends (s.project.done = false) then s.finishProject exitCode project errText else s
  | .runStarts includedFlatpak => s.startRun includedFlatpak
  | .runEnds done => s.finishRun done
  | .dismisses => { s with runState := .idle }
  | .rechecks => if s.recheck then ({ s with recheck := false } : Checks D).check else s
  | .runsCheck =>
      if s.deferredCheck then ({ s with deferredCheck := false } : Checks D).check else s
  | .runsStart =>
      match s.deferredStart with
      | some forced => ({ s with deferredStart := none } : Checks D).startCheck allParts forced
      | none => s

end Checks

/-- Before the first check. -/
def unchecked {D : Type} (flatpakEnabled : Bool) : Checks D where
  dnf := .idle noPackages
  flatpak := .idle []
  firmware := .idle []
  project := .idle noProject
  dnfProcess := none
  signature := []
  dnfForced := false
  dnfCacheSignature := []
  dnfCache := noPackages
  dnfCacheAt := 0
  checkParts := allParts
  checkAgain := false
  checkAgainForced := false
  checkFailureCount := 0
  online := false
  flatpakEnabled := flatpakEnabled
  runState := .idle
  runIncludedFlatpak := true
  postRunCheck := 0
  recheck := false
  deferredCheck := false
  deferredStart := none
  flatpakRead := none
  cacheWhole := false
  reuses := none
  reused := none
  owed := false
  recount := false

end Updates

end CybexOS
