/-
The login policy of one boot (`cybexos-login-prepare`): its file, the account that it
names, and the run that writes SDDM's configuration.
-/
import CybexOS.Login.Root
import CybexOS.Programs
import CybexOS.PyLines
import CybexOS.Runs

namespace CybexOS

namespace Login

open Displays.Py (isSpace)
open Json (PyValue)
open Words (words)

/-- What `lstat` or `fstat` says of a path. -/
structure Stat where
  regular : Bool
  directory : Bool
  uid : ℕ
  mode : ℕ

/-- A file as a run meets it: its `lstat`, and then its text. -/
structure File where
  lstat : Except Exc Stat
  text : Except Exc Text

/-- A write that may fail. -/
inductive Stage where
  | disable
  | select
  | publish

/-- The state of SDDM's remembered session. -/
inductive Session where
  | file (text : Text)
  | other

/-- What `seed_session` meets: the account of the service, the parents of its directory,
the directory, and what SDDM itself writes before the link. -/
structure Sddm where
  account : Except Exc ℕ
  parents : List (Except Exc Stat)
  directory : Except Exc Stat
  temporary : Except Exc Unit
  update : Option Session

/-- What a run meets, each thing at its own moment. -/
structure Met where
  runtime : Except Exc Stat
  lock : Except Exc Unit
  sddm : Sddm
  login : File
  passwd : Except Exc Text
  live : File
  cmdline : Except Exc Text
  devices : Devices
  marker : Except Exc Unit
  writes : Stage → Except Exc Unit

/-- `login.json` -/
structure Policy where
  user : Text
  autologin : Bool
  live : Bool

inductive Reason where
  | passwordLogin
  | liveSession
  | unverifiedLiveSession
  | encryptedRoot
  | unencryptedOrUnknownRoot
  | autologinAlreadyUsed
  | invalidOrMissingPolicy
deriving DecidableEq

/-- `status.json` -/
structure Prepared where
  autologin : Bool
  user : Text
  reason : Reason

/-- `sddm.conf`, SDDM's session, whether the boot's autologin is used, and the status. -/
structure Boot where
  sddm : Option Text
  session : Option Session
  used : Bool
  status : Option Prepared

/-! ### The policy -/

/-- `mode & 0o022`, or any other bits. -/
def has (mode bits : ℕ) : Bool := mode &&& bits ≠ 0

def WRITABLE : ℕ := 0o022

/-- `trusted_file` -/
def trustedFile (file : File) (uid : ℕ) : Except Exc Text := do
  let info ← file.lstat
  if info.regular = false ∨ info.uid ≠ uid ∨ has info.mode WRITABLE = true then .error .value
  else file.text

def isOwnerStart (c : ℕ) : Bool := isLower c || c == 95

def isOwnerUnit (c : ℕ) : Bool := isLower c || isDigit c || c == 95 || c == 45

/-- `[a-z_][a-z0-9_-]{0,30}` -/
def validOwner : Text → Bool
  | [] => false
  | c :: rest => isOwnerStart c && rest.length ≤ 30 && rest.all isOwnerUnit

/-- `type(value) is bool` -/
def flagOf (value : Option PyValue) : Except Exc Bool :=
  match value with
  | some (.bool flag) => .ok flag
  | _ => .error .value

def ownerOf (value : Option PyValue) : Except Exc Text :=
  match value with
  | some (.str user) => if validOwner user then .ok user else .error .value
  | _ => .error .value

def isFirstVersion (value : Option PyValue) : Bool :=
  match value with
  | some (.num (.int version)) => version == 1
  | _ => false

/-- Some row of `passwd` is a regular account of this name. -/
def installed (python : Python) (user : Text) : List (List Text) → Except Exc Bool
  | [] => .ok false
  | [name, password, number, group, gecos, home, shell] :: rows =>
      if name = user then
        match python.int number with
        | none => .error .value
        | some uid => if 1000 ≤ uid ∧ uid < 65534 then .ok true else installed python user rows
      else installed python user rows
  | _ :: rows => installed python user rows

def rowsOf (passwd : Text) : List (List Text) := (PyLines.splitlines passwd).map (·.splitOn 58)

/-- `policy` -/
def policy (python : Python) (uid : ℕ) (met : Met) : Except Exc Policy := do
  let text ← trustedFile met.login uid
  let value ← parse python text
  match value with
  | .obj fields =>
      if isFirstVersion (fields.lookup (ascii "version")) = false then .error .value
      else do
        let user ← ownerOf (fields.lookup (ascii "user"))
        let autologin ← flagOf (fields.lookup (ascii "autologin"))
        let live ← flagOf (some ((fields.lookup (ascii "live")).getD (.bool false)))
        let passwd ← met.passwd
        let regular ← installed python user (rowsOf passwd)
        if regular then .ok ⟨user, autologin, live⟩ else .error .value
  | _ => .error .value

/-! ### Eligibility -/

def LIVE : List Text := [ascii "rd.live.image", ascii "rd.live.image=1"]

/-- `live == settings['user'] == 'liveuser' and any(...)` -/
def verifiedLive (uid : ℕ) (met : Met) (user : Text) : Except Exc Bool := do
  let text ← trustedFile met.live uid
  let cmdline ← met.cmdline
  pure (trimWith isSpace text = user && user = ascii "liveuser" &&
    (words isSpace cmdline).any fun part => part ∈ LIVE)

/-- Whether the policy's user may be logged in, and why. -/
def eligibility (python : Python) (uid : ℕ) (met : Met) (settings : Policy) :
    Except Exc (Bool × Reason) :=
  if settings.live then
    match verifiedLive uid met settings.user with
    | .ok verified =>
        if settings.autologin && verified then .ok (true, .liveSession)
        else .ok (false, .unverifiedLiveSession)
    | .error .os => .ok (false, .unverifiedLiveSession)
    | .error .value => .ok (false, .unverifiedLiveSession)
    | .error error => .error error
  else if settings.autologin then do
    let encrypted ← encryptedRoot python met.devices
    if encrypted then pure (true, .encryptedRoot) else pure (false, .unencryptedOrUnknownRoot)
  else .ok (false, .passwordLogin)

/-! ### A run -/

/-- `config` -/
def config (user : Text) : Text :=
  ascii ("# Managed by cybexos-login-prepare; configure /etc/cybexos/login.json.\n" ++
      "[General]\nDisplayServer=wayland\n[Theme]\nCurrent=\n[Autologin]\nUser=") ++ user ++
    ascii ("\nSession=hyprland-quickshell.desktop\nRelogin=false\n" ++
      "[Users]\nRememberLastUser=true\nRememberLastSession=true\n" ++
      "[Wayland]\nSessionDir=/usr/share/wayland-sessions\n")

def SESSION : Text := ascii "[Last]\nSession=hyprland-quickshell.desktop\n"

/-- `atomic_write` of the configuration. -/
def writeConfig (met : Met) (stage : Stage) (user : Text) : Program Boot Exc Unit := do
  Program.ofExcept (met.writes stage)
  Program.effect fun s => { s with sddm := some (config user) }

/-- A directory of this owner that nobody else may write. -/
def safeParent (uid : ℕ) (parent : Except Exc Stat) : Except Exc Unit := do
  let info ← parent
  if info.directory = false ∨ info.uid ≠ uid ∨ has info.mode WRITABLE = true then .error .value
  else .ok ()

/-- `seed_session` -/
def seedSession (uid : ℕ) (met : Sddm) : Program Boot Exc Unit := do
  let account ← Program.ofExcept met.account
  Program.forEach met.parents fun parent => Program.ofExcept (safeParent uid parent)
  let info ← Program.ofExcept met.directory
  if (info.uid ≠ uid ∧ info.uid ≠ account) ∨ has info.mode 0o007 = true then Program.fail .value
  else do
    let session ← Program.look Boot.session
    match session with
    | some .other => Program.fail .value
    | some (.file _) => pure ()
    | none => do
        Program.ofExcept met.temporary
        match met.update with
        | some own => Program.effect fun s => { s with session := some own }
        | none => Program.effect fun s => { s with session := some (.file SESSION) }

/-- Use the boot's autologin, unless it is used. -/
def takeMarker (met : Met) : Program Boot Exc Bool := do
  let used ← Program.look Boot.used
  if used then pure false
  else do
    Program.ofExcept met.marker
    Program.effect fun s => { s with used := true }
    pure true

/-- The user that is logged in, or none, and why. -/
def select (python : Python) (uid : ℕ) (met : Met) : Program Boot Exc (Text × Reason) := do
  let settings ← Program.ofExcept (policy python uid met)
  let (eligible, reason) ← Program.ofExcept (eligibility python uid met settings)
  if eligible then do
    let taken ← takeMarker met
    if taken then pure (settings.user, reason) else pure ([], .autologinAlreadyUsed)
  else pure ([], reason)

/-- `except (OSError, ValueError, KeyError, TypeError)` -/
def invalid (error : Exc) : Program Boot Exc (Text × Reason) :=
  match error with
  | .os => pure ([], .invalidOrMissingPolicy)
  | .value => pure ([], .invalidOrMissingPolicy)
  | .key => pure ([], .invalidOrMissingPolicy)
  | .type => pure ([], .invalidOrMissingPolicy)
  | .subprocess => Program.fail .subprocess
  | .attribute => Program.fail .attribute

/-- The runtime directory is its owner's alone. -/
def safeRuntime (uid : ℕ) (met : Met) : Except Exc Unit := do
  let info ← met.runtime
  if info.directory = false ∨ info.uid ≠ uid ∨ has info.mode 0o077 = true then .error .value
  else .ok ()

/-- `prepare` -/
def prepare (python : Python) (uid : ℕ) (met : Met) : Program Boot Exc Prepared := do
  Program.ofExcept (safeRuntime uid met)
  Program.ofExcept met.lock
  writeConfig met .disable []
  seedSession uid met.sddm
  let (selected, reason) ← (select python uid met).catching invalid
  writeConfig met .select selected
  let result : Prepared := ⟨selected ≠ [], selected, reason⟩
  Program.ofExcept (met.writes .publish)
  Program.effect fun s => { s with status := some result }
  pure result

/-- A run, killed after some of its effects or never. -/
structure Run where
  met : Met
  killed : Option ℕ

/-- The moments that a run reaches. -/
def Run.passed (python : Python) (uid : ℕ) (run : Run) (s : Boot) : List Boot :=
  match run.killed with
  | none => (prepare python uid run.met).moments s
  | some effects => ((prepare python uid run.met).moments s).take effects

def Boot.step (python : Python) (uid : ℕ) (s : Boot) (run : Run) : Boot :=
  (run.passed python uid s).getLastD s

end Login

end CybexOS
