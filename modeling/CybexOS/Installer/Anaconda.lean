/-
The installer's backend (`cybexos-installer-backend`): Anaconda's settings and
storage, the saved state, and what the calls to Anaconda may do and how they end.
-/
import CybexOS.Displays.PyValidate
import CybexOS.Programs
import CybexOS.Text
import Mathlib.Data.Int.Notation
import Mathlib.Data.List.Sort

namespace CybexOS

namespace Installer

open Program (effect look fail forEach)

/-! ### Data -/

structure Partition where
  path : Text
  size : ℕ
  filesystem : Text
deriving DecidableEq

structure Disk where
  name : Text
  path : Text
  size : ℕ
  model : Text
  serial : Text
  wwn : Text
  deviceId : Text
  removable : Bool
  partitions : List Partition
deriving DecidableEq

/-- What the inventory offers, the disks and the space apart. -/
structure Offers where
  keyboards : List Text
  locales : List Text
  timezones : List Text
deriving DecidableEq

/-- The part of the inventory that requests are checked against. -/
structure Choices extends Offers where
  disks : List Disk
  requiredBytes : ℕ
deriving DecidableEq

structure Account where
  username : Text
  keyboard : Text
  locale : Text
  timezone : Text
  hostname : Text
  encrypted : Bool
  passwordlessWheel : Bool
deriving DecidableEq

structure User where
  name : Text
  password : Text
  isCrypted : Bool
  groups : List Text
deriving DecidableEq

/-- The settings of Anaconda that only the installer changes. -/
structure Settings where
  users : List User
  rootLocked : Bool
  layouts : List Text
  consoleKeymap : Text
  language : Text
  timezone : Text
  hostname : Text
deriving DecidableEq

structure Request where
  scheme : ℕ
  encrypted : Bool
  luksVersion : Text
  passphrase : Option Text
deriving DecidableEq

/-- Anaconda's storage, which other programs change too. -/
structure Storage where
  disks : List Disk
  requiredBytes : ℕ
  selected : List Text
  initializationMode : ℕ
  drivesToClear : List Text
  devicesToClear : List Text
  initializeLabels : Bool
  bootDrive : Text
  partitionings : List (Text × Request)
  applied : Text
  actions : List Text
deriving DecidableEq

/-! ### The saved state -/

structure Review where
  created : ℤ
  disk : Disk
  fingerprint : Text
  account : Account
  partitioning : Text
  actions : List Text
  warnings : List Text
  bootKeyboard : Text
deriving DecidableEq

/-- A confirmed installation. -/
structure Job where
  review : Review
  queuedAt : ℤ
  task : Option Text
  progress : Option (ℕ × ℕ)
deriving DecidableEq

/-- `state.json` -/
inductive Saved where
  | setup (keyboard : Option Text)
  | planning
  | failedPlan
  | review (token : Text) (review : Review)
  | installing (job : Job)
  | complete (job : Job)
  | failedInstall (job : Job) (message : Text)
deriving DecidableEq

/-- What is to be remembered of a run. -/
inductive Event where
  | reviewed (token : Text) (review : Review) (settings : Settings)
  | queued (job : Job)
  | started (token : Text) (review : Review) (settings : Settings) (storage : Storage)
  | ran (job : Job)
deriving DecidableEq

structure System where
  file : Saved
  settings : Settings
  storage : Storage
  log : List Event
deriving DecidableEq

/-! ### Calls -/

/-- A message that is shown, or any other exception. -/
inductive Failure where
  | invalid (message : Text)
  | other
deriving DecidableEq

/-- The calls of a command, each of which it makes once. -/
inductive Call where
  | inventory
  | rescan
  | resetPartitioning
  | clearUsers
  | unselect
  | keepPartitions
  | clearDrives
  | clearDevices
  | users
  | clearRootPassword
  | lockRoot
  | language
  | layouts
  | clearKeymap
  | populate
  | live
  | timezone
  | hostname
  | select
  | clearMode
  | drives
  | devices
  | labels
  | createPartitioning
  | request
  | passphrase
  | bootDrive
  | configure
  | apply
  | validate
  | actions
  | applied
  | selected
  | service
  | installTasks
  | startTask
  | finishTask
deriving DecidableEq

/-- A call that raises may have taken effect. -/
inductive Fate where
  | done
  | raises (tookEffect : Bool)
deriving DecidableEq

def Fate.takesEffect : Fate → Bool
  | .done => true
  | .raises tookEffect => tookEffect

/-- What a command meets: how each call ends, what other programs made of the
storage before it, and the answers. -/
structure Env where
  fate : Call → Fate
  others : Call → Option Storage
  offers : Offers
  now : ℤ
  /-- `secrets.token_hex(24)` -/
  token : Text
  /-- `crypt_password` -/
  crypted : Text
  /-- The console keymap of the layout, if Anaconda knows one. -/
  keymap : Text
  /-- The compositors of the live user, and whether the layout was taken. -/
  instances : List Text
  evaluated : Bool
  /-- The new partitioning and its request. -/
  partitioning : Text
  newRequest : Request
  plannedActions : List Text
  errors : List Text
  warnings : List Text
  tasks : List Text
  progress : List (ℕ × ℕ)
  /-- `str` of a value that is no string -/
  unusualToken : Text

abbrev Command := Program System Failure

def note (event : Event) (s : System) : System := { s with log := s.log ++ [event] }

def write (file : Saved) : Command Unit := effect fun s => { s with file := file }

section

variable (env : Env)

/-- Other programs may have changed the storage before a call. -/
def Env.disturb (call : Call) (s : System) : System :=
  match env.others call with
  | none => s
  | some storage => { s with storage := storage }

def Env.ends (site : Call) : Command Unit :=
  match env.fate site with
  | .done => pure ()
  | .raises _ => fail .other

/-- A call to Anaconda that changes something. -/
def Env.call (site : Call) (change : System → System) : Command Unit := do
  effect fun s =>
    if (env.fate site).takesEffect then change (env.disturb site s) else env.disturb site s
  env.ends site

def Env.set (site : Call) (change : Settings → Settings) : Command Unit :=
  env.call site fun s => { s with settings := change s.settings }

def Env.store (site : Call) (change : Storage → Storage) : Command Unit :=
  env.call site fun s => { s with storage := change s.storage }

/-! ### Anaconda -/

/-- `Anaconda.inventory`, of which requests use this much. -/
def inventory : Command Choices := do
  env.call .inventory id
  look fun s => ⟨env.offers, s.storage.disks, s.storage.requiredBytes⟩

/-- `Anaconda.reset` -/
def resetAnaconda : Command Unit := do
  env.store .resetPartitioning fun storage => { storage with applied := [], actions := [] }
  env.set .clearUsers fun settings => { settings with users := [] }
  env.store .unselect fun storage => { storage with selected := [] }
  env.store .keepPartitions fun storage => { storage with initializationMode := 0 }
  env.store .clearDrives fun storage => { storage with drivesToClear := [] }
  env.store .clearDevices fun storage => { storage with devicesToClear := [] }

/-- `Anaconda.rescan`; what it finds is up to the storage. -/
def rescanAnaconda : Command Unit := env.call .rescan id

def isLayoutUnit (c : Nat) : Bool := isAlnum c || c == 95 || c == 45

/-- `([A-Za-z0-9_-]+)(?:\s*\(([A-Za-z0-9_-]+)\))?`, the whole text. -/
def matchLayout (layout : Text) : Option (Text × Option Text) :=
  let name := layout.takeWhile isLayoutUnit
  if name = [] then none
  else
    match layout.dropWhile isLayoutUnit with
    | [] => some (name, none)
    | rest =>
        match rest.dropWhile Displays.Py.isSpace with
        | 40 :: rest =>
            let variant := rest.takeWhile isLayoutUnit
            if variant ≠ [] ∧ rest.dropWhile isLayoutUnit = [41] then some (name, some variant)
            else none
        | _ => none

/-- `apply_live_keyboard`; the compositor is not part of the model. -/
def applyLiveKeyboard (layout : Text) : Command Unit :=
  match matchLayout layout with
  | none => fail (.invalid (ascii "This keyboard layout needs the full installer."))
  | some _ => do
      env.call .live id
      match env.instances with
      | [signature] =>
          if signature = [] ∨ ¬ signature.all fun c => isLayoutUnit c || c == 46 then
            fail (.invalid (ascii "The live desktop instance is invalid."))
          else if env.evaluated then pure ()
          else
            fail (.invalid
              (ascii "The live keyboard could not be applied. Choose another layout."))
      | _ =>
          fail (.invalid
            (ascii "The live keyboard could not be applied to a unique desktop session."))

/-- Set the layout, and let Anaconda find its console keymap. -/
def setLayout (layout : Text) : Command Text := do
  env.set .layouts fun settings => { settings with layouts := [layout] }
  env.set .clearKeymap fun settings => { settings with consoleKeymap := [] }
  env.set .populate fun settings => { settings with consoleKeymap := env.keymap }
  look fun s => s.settings.consoleKeymap

/-- `Anaconda.keyboard` -/
def keyboardAnaconda (layout : Text) : Command Unit := do
  let keymap ← setLayout env layout
  if keymap = [] then
    fail (.invalid (ascii "This layout cannot be used at the boot unlock screen."))
  else applyLiveKeyboard env layout

structure Planned where
  partitioning : Text
  actions : List Text
  errors : List Text
  warnings : List Text
  bootKeyboard : Text

def setRequest (path : Text) (change : Request → Request) (storage : Storage) : Storage :=
  { storage with
    partitionings := storage.partitionings.map fun item =>
      if item.1 = path then (path, change item.2) else item }

/-- The user of an account. -/
def Account.user (account : Account) (password : Text) : User :=
  ⟨account.username, password, true, [ascii "wheel"]⟩

/-- The part of `Anaconda.plan` before the storage. -/
def planSettings (account : Account) : Command Text := do
  env.set .users fun settings => { settings with users := [account.user env.crypted] }
  env.call .clearRootPassword id
  env.set .lockRoot fun settings => { settings with rootLocked := true }
  env.set .language fun settings => { settings with language := account.locale }
  let keymap ← setLayout env account.keyboard
  if keymap = [] then
    fail (.invalid (ascii
      "Anaconda could not map this keyboard to the boot unlock screen. Choose another layout."))
  else
    env.set .timezone fun settings => { settings with timezone := account.timezone }
    env.set .hostname fun settings => { settings with hostname := account.hostname }
    pure keymap

def setPassphrase (account : Account) (password : Text) : Command Unit :=
  if account.encrypted then
    env.store .passphrase (setRequest env.partitioning fun request =>
      { request with passphrase := some password })
  else pure ()

/-- The storage part of `Anaconda.plan`. -/
def planStorage (account : Account) (password : Text) (disk : Disk) : Command (List Text) := do
  env.store .select fun storage => { storage with selected := [disk.name] }
  env.store .clearMode fun storage => { storage with initializationMode := 1 }
  env.store .drives fun storage => { storage with drivesToClear := [disk.name] }
  env.store .devices fun storage => { storage with devicesToClear := [] }
  env.store .labels fun storage => { storage with initializeLabels := true }
  env.store .createPartitioning fun storage =>
    { storage with
      partitionings := storage.partitionings ++ [(env.partitioning, env.newRequest)] }
  env.store .request (setRequest env.partitioning fun request =>
    { request with scheme := 1, encrypted := account.encrypted, luksVersion := ascii "luks2" })
  setPassphrase env account password
  env.store .bootDrive fun storage => { storage with bootDrive := [] }
  env.call .configure id
  env.store .apply fun storage =>
    { storage with applied := env.partitioning, actions := env.plannedActions }
  env.call .validate id
  env.call .actions id
  look fun s => s.storage.actions

/-- `Anaconda.plan` -/
def planAnaconda (account : Account) (password : Text) (disk : Disk) : Command Planned := do
  resetAnaconda env
  let keymap ← planSettings env account
  let actions ← planStorage env account password disk
  pure ⟨env.partitioning, actions, env.errors, env.warnings, keymap⟩

/-- `action_set`: the actions of a plan, in any order. -/
def actionSet (actions : List Text) : List Text := actions.insertionSort (· ≤ ·)

/-- Raise unless the condition holds. -/
def demand (condition : Prop) [Decidable condition] (message : String) : Command Unit :=
  if condition then pure () else fail (.invalid (ascii message))

/-- `Anaconda.check_plan` -/
def checkPlan (review : Review) : Command Unit := do
  env.call .applied id
  let applied ← look fun s => s.storage.applied
  demand (applied = review.partitioning)
    "The storage plan changed. Review the installation again."
  env.call .selected id
  let selected ← look fun s => s.storage.selected
  demand (selected = [review.disk.name])
    "The selected storage changed. Review the installation again."
  env.call .actions id
  let actions ← look fun s => s.storage.actions
  demand (actionSet actions = actionSet review.actions)
    "The planned disk changes changed. Review the installation again."
  env.call .validate id
  demand (env.errors = []) "Anaconda no longer considers this storage plan valid."

/-- `Anaconda.start_install`, with what it starts from. -/
def startInstall (token : Text) (review : Review) : Command Unit := do
  effect fun s =>
    let s := env.disturb .service s
    note (.started token review s.settings s.storage) s
  env.ends .service

/-- The part of `Anaconda.run_install` after its tasks are known. -/
def runTasks (job : Job) : Command Unit :=
  match env.tasks with
  | [task] => do
      let job := { job with task := some task }
      write (.installing job)
      env.call .startTask id
      forEach env.progress fun progress =>
        write (.installing { job with progress := some progress })
      env.call .finishTask id
  | _ =>
      fail (.invalid
        (ascii "This Anaconda version returned an unsupported installation task sequence."))

/-- `Anaconda.run_install` -/
def runInstall (job : Job) : Command Unit := do
  effect (note (.ran job))
  env.call .installTasks id
  runTasks env job

end

end Installer

end CybexOS
