/-
The commands of the installer's backend, each of which runs alone and may be
killed between any two of its effects.
-/
import CybexOS.Installer.Anaconda
import CybexOS.Json.Py

namespace CybexOS

namespace Installer

open Program (effect look fail ofExcept catching)

open Json (PyNumber PyValue Value)

/-! ### Requests -/

/-- The fields of a request. -/
abbrev Data := List (Text × PyValue)

/-- `data.get(key, default)` -/
def Data.get (data : Data) (key : String) (default : PyValue) : PyValue :=
  (data.lookup (ascii key)).getD default

/-- `not value` -/
def falsy : PyValue → Bool
  | .null => true
  | .bool value => !value
  | .num (.int value) => value = 0
  | .num (.float (.fin value)) => value.val = 0
  | .num (.float _) => false
  | .str text => text = []
  | .arr items => items.isEmpty
  | .obj fields => fields.isEmpty

def RESERVED : List Text :=
  ["root", "liveuser", "bin", "daemon", "adm", "mail", "ftp", "nobody", "dbus", "systemd", "gdm",
    "sddm", "sshd", "polkitd", "chrony"].map ascii

/-- `[a-z_][a-z0-9_-]{0,30}` -/
def isUsername (text : Text) : Bool :=
  match text with
  | [] => false
  | first :: rest =>
      (isLower first || first == 95) && rest.length ≤ 30 &&
        rest.all fun c => isLower c || isDigit c || c == 95 || c == 45

/-- `[a-zA-Z0-9](?:[a-zA-Z0-9-]{0,61}[a-zA-Z0-9])?` -/
def isHostname (text : Text) : Bool :=
  text.length ≤ 63 && text.all (fun c => isAlnum c || c == 45) &&
    text.head?.any isAlnum && text.getLast?.any isAlnum

def invalid {α : Type} (message : String) : Except Failure α := .error (.invalid (ascii message))

/-- A choice among texts; lists and objects cannot be looked up in a set. -/
def chosen (value : PyValue) (choices : List Text) (message : String) : Except Failure Text :=
  match value with
  | .str text => if text ∈ choices then .ok text else invalid message
  | .arr _ | .obj _ => .error .other
  | _ => invalid message

/-- A choice from a list, in which every value can be looked for. -/
def listed (value : PyValue) (choices : List Text) (message : String) : Except Failure Text :=
  match value with
  | .str text => if text ∈ choices then .ok text else invalid message
  | _ => invalid message

def flag (value : PyValue) (message : String) : Except Failure Bool :=
  match value with
  | .bool value => .ok value
  | _ => invalid message

def usernameMessage : String := "Choose a username of 1–31 lowercase letters, numbers, " ++
  "underscores or dashes, starting with a letter."

/-- `validate_account`, with the password that it accepts. -/
def validateAccount (data : Data) (choices : Choices) : Except Failure (Account × Text) := do
  let username ← match data.get "username" (.str []) with
    | .str text =>
        if isUsername text ∧ text ∉ RESERVED then .ok text
        else invalid usernameMessage
    | _ => invalid usernameMessage
  let password ← match data.get "password" (.str []) with
    | .str text =>
        if text.length < 12 ∨ 512 < text.length then invalid "Use a password of 12–512 characters."
        else if text.any fun c => c < 32 || c == 127 then
          invalid "The password cannot contain control characters."
        else .ok text
    | _ => invalid "Use a password of 12–512 characters."
  match data.get "confirm" .null with
    | .str text => if text = password then .ok () else invalid "The passwords do not match."
    | _ => invalid "The passwords do not match."
  let keyboard ← chosen (data.get "keyboard" (.str [])) choices.keyboards
    "Choose an available keyboard layout."
  let locale ← listed (data.get "locale" (.str [])) choices.locales
    "Choose an available system language."
  let timezone ← listed (data.get "timezone" (.str [])) choices.timezones
    "Choose a timezone from the list."
  let hostname ←
    if falsy (data.get "hostname" .null) then .ok (ascii "cybexos")
    else match data.get "hostname" .null with
      | .str text =>
          if isHostname text then .ok text
          else invalid "The computer name must contain 1–63 letters, numbers or dashes."
      | _ => invalid "The computer name must contain 1–63 letters, numbers or dashes."
  let encrypted ← flag (data.get "encrypted" (.bool true)) "The encryption choice is invalid."
  let passwordless ← flag (data.get "passwordless_wheel" (.bool false))
    "The sudo password choice is invalid."
  .ok (⟨username, keyboard, locale, timezone, hostname, encrypted, passwordless⟩, password)

/-! ### Fingerprints -/

/-- What is hashed of a disk. -/
structure Identity where
  name : Text
  path : Text
  size : ℕ
  serial : Text
  wwn : Text
  deviceId : Text
  partitions : List Partition
deriving DecidableEq

def Disk.identity (disk : Disk) : Identity where
  name := disk.name
  path := disk.path
  size := disk.size
  serial := disk.serial
  wwn := disk.wwn
  deviceId := disk.deviceId
  partitions := disk.partitions.insertionSort (·.path ≤ ·.path)

/-! ### Commands -/

def Saved.isOver : Saved → Bool
  | .installing _ | .complete _ | .failedInstall .. => true
  | _ => false

/-- `require_idle` -/
def requireIdle : Command Unit := do
  let file ← look System.file
  demand (file.isOver = false)
    "Installation has already started. Check its status before leaving this window."

section

variable (digest : Identity → Text) (env : Env)

/-- `fingerprint` -/
def fingerprint (disk : Disk) : Text := digest disk.identity

def rescan : Command Choices := do
  requireIdle
  write (.setup none)
  rescanAnaconda env
  inventory env

def keyboard (data : Data) : Command Unit := do
  requireIdle
  let choices ← inventory env
  let layout ← ofExcept (chosen (data.get "keyboard" (.str [])) choices.keyboards
    "Choose an available keyboard layout.")
  keyboardAnaconda env layout
  write (.setup (some layout))

/-- The smallest disk that is installed to. -/
def required (choices : Choices) : ℕ := max (64 * 1024 ^ 3) choices.requiredBytes

/-- The disk that a request names. -/
def findDisk (disks : List Disk) (name : PyValue) : Option Disk :=
  disks.find? fun disk => match name with
    | .str text => disk.name = text
    | _ => false

/-- The part of `plan` that makes the review. -/
def makeReview (data : Data) : Command Review := do
  let choices ← inventory env
  let (account, password) ← ofExcept (validateAccount data choices)
  match findDisk choices.disks (data.get "disk" .null) with
  | none =>
      fail (.invalid (ascii
        "Select an available installation disk. The live medium cannot be selected."))
  | some disk =>
      if disk.size < required choices then
        fail (.invalid (ascii "CybexOS needs a disk with at least " ++
          digitsOf ((required choices + 1024 ^ 3 - 1) / 1024 ^ 3) ++
          ascii " GiB for its included applications."))
      else
        let planned ← planAnaconda env account password disk
        if planned.errors ≠ [] then
          fail (.invalid (ascii
            "Anaconda rejected the storage layout. Open Advanced storage to review the disk."))
        else
          pure ⟨env.now, disk, fingerprint digest disk, account, planned.partitioning,
            planned.actions, planned.warnings, planned.bootKeyboard⟩

/-- `plan`, which remembers the settings that it leaves. -/
def plan (data : Data) : Command Review := do
  requireIdle
  write .planning
  let body : Command Review := do
    let review ← makeReview digest env data
    effect fun s => note (.reviewed env.token review s.settings)
      { s with file := .review env.token review }
    pure review
  body.catching fun error => do
    write .failedPlan
    fail error

/-- `str(data.get('token', ''))` -/
def tokenText (data : Data) : Text :=
  match data.get "token" (.str []) with
  | .str text => text
  | _ => env.unusualToken

/-- What `install` asks of a request before it looks at the disk. -/
def checkRequest (data : Data) (token : Text) (review : Review) : Except Failure Unit :=
  if (tokenText env data).any (128 ≤ ·) then .error .other
  else if tokenText env data ≠ token then
    invalid "This review has expired. Review the disk again."
  else
    let named := match data.get "confirmed_disk" .null with
      | .str text => decide (text = review.disk.name)
      | _ => false
    let confirmed := match data.get "erase_confirmed" .null with
      | .bool value => value
      | _ => false
    if named = false ∨ confirmed = false then
      invalid "Confirm erasing the selected disk before installing."
    else if env.now - review.created > 1800 then
      invalid "This review has expired. Review the disk again."
    else .ok ()

def notStarted : Text := ascii
  "The installation worker could not start. Review its status before restarting the installer."

def install (data : Data) : Command Unit := do
  let file ← look System.file
  match file with
  | .review token review =>
      ofExcept (checkRequest env data token review)
      let choices ← inventory env
      if (findDisk choices.disks (.str review.disk.name)).map (fingerprint digest) =
          some review.fingerprint then
        checkPlan env review
        let job : Job := ⟨review, env.now, none, none⟩
        effect fun s => note (.queued job) { s with file := .installing job }
        (startInstall env token review).catching fun error => do
          write (.failedInstall job notStarted)
          fail error
      else
        write .failedPlan
        fail (.invalid (ascii "The selected disk changed. Review the available disks again."))
  | _ => fail (.invalid (ascii "Review a new installation plan before installing."))

def notFinished : Text := ascii ("Installation did not finish. Keep this session open and " ++
  "review Anaconda diagnostics before retrying.")

/-- The state that the worker holds is the one it wrote last. -/
def ended (file : Job → Saved) : Command Unit := do
  let last ← look System.file
  match last with
  | .installing job => write (file job)
  | _ => pure ()

def worker : Command Unit := do
  let file ← look System.file
  match file with
  | .installing job =>
      if job.task.isSome then
        fail (.invalid (ascii "No new confirmed installation is queued."))
      else
        (runInstall env job).catching fun error => do
          ended fun job => .failedInstall job notFinished
          fail error
        ended .complete
  | _ => fail (.invalid (ascii "No new confirmed installation is queued."))

def reset : Command Unit := do
  requireIdle
  resetAnaconda env
  write (.setup none)

end

/-! ### Status -/

structure PublicStatus where
  phase : Text
  message : Text
  step : Option ℕ
  total : Option ℕ
deriving DecidableEq

/-- A status with the progress that is in bounds. -/
def Job.status (job : Job) (phase message : Text) : PublicStatus where
  phase := phase
  message := message
  step := (job.progress.map Prod.fst).filter (· ≤ 100000)
  total := (job.progress.map Prod.snd).filter (· ≤ 100000)

/-- `public_status` -/
def publicStatus : Saved → PublicStatus
  | .setup _ => ⟨ascii "setup", [], none, none⟩
  | .planning => ⟨ascii "planning", [], none, none⟩
  | .failedPlan => ⟨ascii "failed-plan", [], none, none⟩
  | .review .. => ⟨ascii "review", [], none, none⟩
  | .installing job =>
      job.status (ascii "installing")
        (ascii "Anaconda is installing CybexOS. Keep this session open.")
  | .complete job =>
      job.status (ascii "complete")
        (ascii "CybexOS is installed. Restart and remove the installation medium.")
  | .failedInstall job _ =>
      job.status (ascii "failed-install") (ascii ("Installation did not finish. " ++
        "Save diagnostics and check the installer logs before restarting."))

/-- `installation_status`, with the state of the worker's service. -/
def installationStatus (now : ℤ) (active : Bool) : Saved → PublicStatus
  | .installing job =>
      if now - job.queuedAt > 30 ∧ active = false then
        publicStatus (.failedInstall job (ascii ("The installation monitor stopped unexpectedly. " ++
          "Anaconda may still be writing the disk. Keep this session open and inspect the " ++
          "installer diagnostics before restarting.")))
      else publicStatus (.installing job)
  | file => publicStatus file

def status (env : Env) (active : Bool) : Command PublicStatus :=
  look fun s => installationStatus env.now active s.file

/-! ### Runs -/

/-- The commands, `reset` also under its name `advanced`. -/
inductive Name where
  | inventory
  | rescan
  | keyboard (data : Data)
  | plan (data : Data)
  | install (data : Data)
  | worker
  | reset
  | status (active : Bool)

/-- A command, and the number of effects after which it is killed. -/
structure Move where
  name : Name
  env : Env
  killed : Option ℕ

section

variable (digest : Identity → Text)

def Move.step (s : System) (move : Move) : System :=
  match move.name with
  | .inventory => (inventory move.env).leaves move.killed s
  | .rescan => (rescan move.env).leaves move.killed s
  | .keyboard data => (keyboard move.env data).leaves move.killed s
  | .plan data => (plan digest move.env data).leaves move.killed s
  | .install data => (install digest move.env data).leaves move.killed s
  | .worker => (worker move.env).leaves move.killed s
  | .reset => (reset move.env).leaves move.killed s
  | .status active => (status move.env active).leaves move.killed s

end

end Installer

end CybexOS
