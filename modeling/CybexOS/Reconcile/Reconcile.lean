/-
Deferred reconciliation of the accounts (`cybexos-reconcile`): the record of each
account, its attempts, and a run that applies the ones that are not ready.
-/
import CybexOS.Dict
import CybexOS.Programs
import CybexOS.Runs
import CybexOS.Text

namespace CybexOS

namespace Reconcile

def MAX_ATTEMPTS : ℕ := 3

/-- An account as `pwd.getpwall` lists it. -/
structure Account where
  name : Text
  uid : ℕ
  gid : ℕ
  home : Text
deriving DecidableEq

inductive Condition where
  | pending
  | running
  | ready
  | error
  | blocked
deriving DecidableEq

/-- The entry of an account in the record. -/
structure AccountEntry (K : Type) where
  identity : K
  uid : ℕ
  home : Text
  version : Text
  attempts : ℕ
  state : Condition
  error : Option Text
deriving DecidableEq

/-- `status.json` -/
structure Status (K : Type) where
  version : Text
  state : Condition
  accounts : List (Text × AccountEntry K)
  lastAttempt : ℤ
  error : Option Text

/-- An `apply` that was begun, with the payload and configuration in force, and, once
it has ended well, the configuration at its end. -/
structure Applying where
  account : Account
  version : Text
  config : Text
  completed : Option Text

/-- The record, whether `pending.json` is there, the packaged version, the saved
configuration, the installed accounts, and what has been applied. -/
structure Machine (K : Type) where
  status : Option (Status K)
  pending : Bool
  version : Text
  config : Text
  users : List Account
  applied : List Applying

/-- What one `apply` does: it fails with a message or not, and meanwhile the
configuration may be saved. -/
structure ApplyOutcome where
  failure : Option Text
  config : Text

/-- What a run meets: the time, the text of an unavailable RPM lock, and the
outcome of each `apply`. -/
structure Circumstances where
  now : ℤ
  unavailable : Option Text
  outcome : ℕ → Text → ApplyOutcome

/-- A `ValueError` of the packaged version, or a missing entry. -/
inductive Failure where
  | version
  | entry
deriving DecidableEq

section

variable {K : Type} [DecidableEq K]

/-- `len(value) != 64 or any(c not in '0123456789abcdef' for c in value)` -/
def validVersion (value : Text) : Bool :=
  value.length = 64 && value.all fun c => (48 ≤ c && c ≤ 57) || (97 ≤ c && c ≤ 102)

def Machine.write (s : Machine K) (status : Status K) : Machine K :=
  { s with status := some status }

def Machine.begins (s : Machine K) (account : Account) : Machine K :=
  { s with applied := s.applied ++ [⟨account, s.version, s.config, none⟩] }

/-- `apply` has ended; the configuration may have been saved since it began. -/
def Machine.ends (s : Machine K) (outcome : ApplyOutcome) : Machine K :=
  { s with
    config := outcome.config
    applied := match s.applied.getLast? with
      | some last =>
          s.applied.dropLast ++ [{ last with
            completed := if outcome.failure = none then some outcome.config else none }]
      | none => [] }

/-- The entry of an account that is new, or whose identity has changed. -/
def freshEntry (account : Account) (release : Text) (key : K) : AccountEntry K :=
  ⟨key, account.uid, account.home, release, 0, .pending, none⟩

/-- The entry with which a run starts. -/
def startEntry (previous : List (Text × AccountEntry K)) (account : Account) (release : Text)
    (key : K) (retry : Bool) : AccountEntry K :=
  let entry := ((previous.lookup account.name).filter fun old => old.identity = key).getD
    (freshEntry account release key)
  if retry && entry.state ≠ .ready then { entry with attempts := 0, state := .pending } else entry

/-- The accounts with which a run starts. -/
def startAccounts (identity : Text → Text → Account → K) (s : Machine K) (retry : Bool) :
    List (Text × AccountEntry K) :=
  let previous := (s.status.map Status.accounts).getD []
  s.users.foldl (fun accounts account => Dict.set accounts account.name
    (startEntry previous account s.version (identity s.version s.config account) retry)) []

/-- Dictionaries are equal. -/
def sameAccounts (first second : List (Text × AccountEntry K)) : Bool :=
  (Dict.keys first ++ Dict.keys second).all fun name => first.lookup name = second.lookup name

/-- The record in which an account's entry is replaced. -/
def Status.enter (state : Status K) (account : Account) (entry : AccountEntry K) : Status K :=
  { state with accounts := Dict.set state.accounts account.name entry }

/-- The entry after an `apply`. -/
def AccountEntry.after (entry : AccountEntry K) (failure : Option Text) (key : K) :
    AccountEntry K :=
  match failure with
  | some message => { entry with state := .error, error := some message }
  | none => { entry with state := .ready, identity := key, error := none }

/-- Apply an account that is not ready and has attempts left. -/
def applyAccount (identity : Text → Text → Account → K) (outcome : ℕ → Text → ApplyOutcome)
    (release : Text) (state : Status K) (account : Account) :
    Program (Machine K) Failure (Status K) := do
  let entry ← Program.ofExcept (((state.accounts.lookup account.name).map Except.ok).getD
    (.error .entry))
  if entry.state = .ready ∨ MAX_ATTEMPTS ≤ entry.attempts then pure state
  else do
    let entry := { entry with state := .running, attempts := entry.attempts + 1 }
    let state := Status.enter { state with state := .running } account entry
    Program.effect fun s => s.write state
    Program.effect fun s => s.begins account
    let s ← Program.look id
    let result := outcome s.applied.length account.name
    Program.effect fun s => s.ends result
    let s ← Program.look id
    let state := state.enter account
      (entry.after result.failure (identity release s.config account))
    Program.effect fun s => s.write state
    pure state

def WAITING : Text := ascii "Waiting for an installed desktop account"

def INSPECT : Text :=
  ascii ("Reconciliation failed; inspect journalctl -u cybexos-reconcile and retry with sudo " ++
    "/usr/libexec/cybexos-reconcile --retry")

/-- The record at the end of a run. -/
def Status.closed (state : Status K) : Status K :=
  let unfinished := (state.accounts.map Prod.snd).filter fun entry => entry.state ≠ .ready
  if unfinished = [] then { state with state := .ready, error := none }
  else { state with
    state := if unfinished.all fun entry => MAX_ATTEMPTS ≤ entry.attempts then .blocked else .error
    error := some INSPECT }

/-- Write the record of a run that has ended. -/
def close (state : Status K) : Program (Machine K) Failure (Status K) := do
  if state.closed.state = .ready then Program.effect fun s => { s with pending := false }
  else pure ()
  Program.effect fun s => s.write state.closed
  pure state.closed

/-- `reconcile` -/
def reconcile (identity : Text → Text → Account → K) (met : Circumstances) (retry : Bool) :
    Program (Machine K) Failure (Status K) := do
  let s ← Program.look id
  if validVersion s.version = false then Program.fail .version
  else
    let accounts := startAccounts identity s retry
    let state : Status K := ⟨s.version, .pending, accounts, met.now, none⟩
    if s.users = [] then do
      let state := { state with error := some WAITING }
      Program.effect fun s => s.write state
      pure state
    else if accounts.all fun item => item.2.state = .ready then do
      let state := { state with state := .ready }
      Program.effect fun s => { s with pending := false }
      match s.status.filter fun old => old.version = s.version ∧ old.state = .ready ∧
          sameAccounts old.accounts accounts = true with
      | some previous => pure previous
      | none => do
          Program.effect fun s => s.write state
          Program.effect fun s => { s with pending := false }
          pure state
    else do
      Program.effect fun s => s.write state
      match met.unavailable with
      | some message => do
          let state := { state with error := some message }
          Program.effect fun s => s.write state
          pure state
      | none => do
          let state ← s.users.foldlM (applyAccount identity met.outcome s.version) state
          close state

end

/-- A run, killed after some of its effects or never, or what changes between runs. -/
inductive ReconcileEvent where
  | runs (met : Circumstances) (retry : Bool) (killed : Option ℕ)
  | queues
  | changes (version config : Text) (users : List Account)

def Machine.step {K : Type} [DecidableEq K] (identity : Text → Text → Account → K)
    (s : Machine K) : ReconcileEvent → Machine K
  | .runs met retry killed => (reconcile identity met retry).leaves killed s
  | .queues => { s with pending := true }
  | .changes version config users =>
      { s with version := version, config := config, users := users }

end Reconcile

end CybexOS
