/-
The four locked actions of `display-settings.py`: apply, confirm, rollback and
the timer's expire, over the saved file, the two runtime files, the armed
timers and the rules Hyprland is using.
-/
import CybexOS.Displays.PyFile

namespace CybexOS

namespace Displays

namespace Py

open Json

def TRIAL_SECONDS : Nat := 15

def WATCHDOG_SECONDS : Nat := TRIAL_SECONDS + 5

def CONFIRM_GRACE_SECONDS : Nat := 3

/-! ### Files -/

/-- `displays.json` as `read_store` finds it; `unsupported` is a link or a
directory. -/
inductive Saved where
  | absent
  | unsupported
  | file (readable : Bool) (data : Text)
deriving DecidableEq

/-- How an `atomic_write` ends.  The file is replaced before its directory is
flushed, so the call can fail with the new file in place. -/
inductive Written where
  | done
  | failed
  | thenFailed
deriving DecidableEq

/-- The target now holds the new data. -/
def Written.replaced : Written → Bool
  | .failed => false
  | _ => true

/-! ### Programs -/

/-- A program that was run; `result` is `none` when `run` raised, as it does on
a timeout, and the effect can be there all the same. -/
structure Ran where
  effect : Bool
  result : Option (ℤ × Text × Text)
deriving DecidableEq

/-- A return code of zero. -/
def Ran.succeeded (ran : Ran) : Bool :=
  match ran.result with
  | some (code, _, _) => code = 0
  | none => false

/-- What `hyprctl` answers when a request worked. -/
def Ran.accepted (ran : Ran) : Bool :=
  match ran.result with
  | some (code, output, _) => code = 0 && strip output == ascii "ok"
  | none => false

def Ran.raised (ran : Ran) : Bool := ran.result.isNone

/-- `str.splitlines` -/
def isLineBreak (c : Nat) : Bool :=
  (10 ≤ c && c ≤ 13) || (0x1c ≤ c && c ≤ 0x1e) || c == 0x85 || c == 0x2028 ||
    c == 0x2029

/-- `first_line` -/
def firstLine (text : Text) : Text :=
  (((strip text).takeWhile fun c => !isLineBreak c).map fun c =>
    if hasControl [c] then 32 else c).take 200

/-- `first_line(output) or first_line(error) or 'no reply'` -/
def Ran.reason (ran : Ran) : Text :=
  match ran.result with
  | some (_, output, error) =>
      if firstLine output ≠ [] then firstLine output
      else if firstLine error ≠ [] then firstLine error
      else ascii "no reply"
  | none => []

/-! ### What one action meets -/

/-- `[0-9a-f]` -/
def isTokenUnit (c : Nat) : Bool := isDigit c || (97 ≤ c && c ≤ 102)

/-- The clock readings, the new token and how every call of one action ends.
Of the readings, `checked` is the first that an action takes. -/
structure Circumstances where
  checked : Double
  started : Double
  token : Text
  trialWrite : Written
  recordWrite : Written
  saveWrite : Written
  arm : Ran
  eval : Ran
  stopTimer : Ran
  stopService : Ran
  reload : Ran
  /-- `secrets.token_hex(8)` -/
  tokenLength : token.length = 16
  tokenHex : token.all isTokenUnit = true
  /-- A scheduled timer is armed. -/
  arms : arm.succeeded = true → arm.effect = true
  /-- `apply_trial` makes the trial document live. -/
  shows : eval.accepted = true → eval.effect = true
  /-- A reload makes the saved file live. -/
  reloads : reload.accepted = true → reload.effect = true

/-! ### The system -/

/-- Where Hyprland's rules come from. -/
inductive Live where
  | saved
  | trial (token : Text)
deriving DecidableEq

structure System where
  store : Saved
  trial : Option Text
  record : Option Text
  timers : List Text
  live : Live
deriving DecidableEq

/-- Why an action raised. -/
inductive Failure where
  | invalid (problem : Problem)
  | unwritable
  | pending
  | changedElsewhere
  | unscheduled
  | rejected (reason : Text)
  | ended
  | expired
  | unreadable
  | changedMeanwhile
  | otherPending
  | irregular
  | reload (reason : Text)
  | crashed
deriving DecidableEq

/-- The text of a `ValueError` of the actions themselves. -/
def Failure.message (repr : Text → Text) : Failure → Option Text
  | .invalid problem => some (problem.message repr)
  | .unwritable => none
  | .pending => some (ascii "Keep or revert the current display change first.")
  | .changedElsewhere => some (ascii
      "The saved display settings changed elsewhere. Reload the page and try again.")
  | .unscheduled => some (ascii
      "Automatic restore could not be scheduled, so nothing was changed.")
  | .rejected reason => some (ascii "Hyprland rejected the display settings: " ++ reason)
  | .ended => some (ascii
      "That display change already ended, and the previous settings were restored.")
  | .expired => some (ascii
      "The display change expired, and the previous settings were restored.")
  | .unreadable => some (ascii
      "The pending display change was unreadable and has been undone.")
  | .changedMeanwhile => some (ascii
      "The saved display settings changed elsewhere; the new arrangement was undone.")
  | .otherPending => some (ascii "A different display change is pending.")
  | .irregular => some (ascii
      "displays.json is not a regular file; nothing was saved.")
  | .reload reason => some (ascii
      "Hyprland could not reload its configuration: " ++ reason)
  | .crashed => none

inductive Reply where
  | showing (token : Text) (expires : Number)
  | saved
  | inEffect
  | restored
  | finished
deriving DecidableEq

/-- How an action ends; `wrote` is what it put in the saved file. -/
structure Result where
  system : System
  reply : Except Failure Reply
  wrote : Option Text

def System.reply (s : System) (reply : Except Failure Reply) : Result :=
  ⟨s, reply, none⟩

@[simp]
theorem System.reply_eq (s : System) (reply : Except Failure Reply) :
    (s.reply reply).system = s ∧ (s.reply reply).reply = reply ∧
      (s.reply reply).wrote = none := ⟨rfl, rfl, rfl⟩

/-! ### The trial record -/

/-- The pattern `TOKEN`, whose `$` also matches before a final line break. -/
def matchesToken (s : Text) : Bool :=
  let name := if s.getLast? = some 10 then s.dropLast else s
  name.length = 16 && name.all isTokenUnit

/-- `str(...)` of a token; of the values that are no strings, only an integer's
text can match the pattern. -/
def tokenText : PyValue → Text
  | .str s => s
  | .num (.int z) => (if z < 0 then [45] else []) ++ digitsOf z.natAbs
  | _ => []

/-- The fields of a usable record. -/
structure TrialState where
  token : PyValue
  expires : PyNumber
  baseDigest : PyValue

def PyNumber.val : PyNumber → ℚ
  | .int z => z
  | .float (.fin d) => d.val
  | .float _ => 0

/-- `state['expires'] + seconds` -/
def PyNumber.after (number : PyNumber) (seconds : Nat) : ℚ :=
  match number with
  | .int z => z + seconds
  | number => Binary64.nearest (PyNumber.val number + seconds)

/-- `read_trial_state` -/
def readTrialState (record : Option Text) : Option TrialState :=
  (readJsonFile record).bind fun state =>
    if isDict state && matchesToken (tokenText (getNone state "token")) then
      match getNone state "expires" with
      | .num expires =>
          if within expires 0 (10 ^ 12) then
            some ⟨getNone state "token", expires, getNone state "baseDigest"⟩
          else none
      | _ => none
    else none

def isStr (value : PyValue) (s : Text) : Bool :=
  match value with
  | .str t => t == s
  | _ => false

theorem isStr_iff {value : PyValue} {s : Text} :
    isStr value s = true ↔ value = .str s := by
  cases value <;> simp [isStr]

/-- The trial of the token is pending. -/
def Pending (s : System) (token : Text) : Prop :=
  ∃ state, readTrialState s.record = some state ∧ state.token = .str token

/-- The digest of `read_store`. -/
def digestOf (sha256 : Text → Text) : Saved → Text
  | .absent => ascii "absent"
  | .unsupported => ascii "unsupported"
  | .file false _ => ascii "unreadable"
  | .file true data => ascii "sha256:" ++ sha256 data

/-- The record `apply` writes. -/
def recordOf (token : Text) (expires : Number) (baseDigest : Text) : PyValue :=
  .obj [(ascii "token", .str token), (ascii "expires", .num (.float expires)),
    (ascii "baseDigest", .str baseDigest)]

/-! ### Steps the actions share -/

/-- `clear_trial` -/
def System.clearTrial (s : System) : System :=
  { s with trial := none, record := none }

def System.writeTrial (s : System) (outcome : Written) (data : Text) : System :=
  if outcome.replaced then { s with trial := some data } else s

def System.writeRecord (s : System) (outcome : Written) (data : Text) : System :=
  if outcome.replaced then { s with record := some data } else s

def System.arm (s : System) (ran : Ran) (token : Text) : System :=
  if ran.effect then { s with timers := token :: s.timers } else s

def System.stop (s : System) (ran : Ran) (token : Text) : System :=
  if ran.effect then { s with timers := s.timers.filter (· ≠ token) } else s

def System.show (s : System) (ran : Ran) (token : Text) : System :=
  if ran.effect then { s with live := .trial token } else s

def System.reload (s : System) (ran : Ran) : System :=
  if ran.effect then { s with live := .saved } else s

theorem System.writeTrial_frame (s : System) (outcome : Written) (data : Text) :
    (s.writeTrial outcome data).store = s.store ∧
      (s.writeTrial outcome data).record = s.record ∧
      (s.writeTrial outcome data).live = s.live := by
  unfold System.writeTrial
  split <;> exact ⟨rfl, rfl, rfl⟩

theorem System.writeRecord_frame (s : System) (outcome : Written) (data : Text) :
    (s.writeRecord outcome data).store = s.store ∧
      (s.writeRecord outcome data).trial = s.trial ∧
      (s.writeRecord outcome data).live = s.live := by
  unfold System.writeRecord
  split <;> exact ⟨rfl, rfl, rfl⟩

theorem System.arm_frame (s : System) (ran : Ran) (token : Text) :
    (s.arm ran token).store = s.store ∧ (s.arm ran token).trial = s.trial ∧
      (s.arm ran token).record = s.record ∧ (s.arm ran token).live = s.live := by
  unfold System.arm
  split <;> exact ⟨rfl, rfl, rfl, rfl⟩

theorem System.stop_frame (s : System) (ran : Ran) (token : Text) :
    (s.stop ran token).store = s.store ∧ (s.stop ran token).trial = s.trial ∧
      (s.stop ran token).record = s.record ∧ (s.stop ran token).live = s.live := by
  unfold System.stop
  split <;> exact ⟨rfl, rfl, rfl, rfl⟩

theorem System.show_frame (s : System) (ran : Ran) (token : Text) :
    (s.show ran token).store = s.store ∧ (s.show ran token).trial = s.trial ∧
      (s.show ran token).record = s.record ∧
      (s.show ran token).timers = s.timers := by
  unfold System.show
  split <;> exact ⟨rfl, rfl, rfl, rfl⟩

theorem System.reload_frame (s : System) (ran : Ran) :
    (s.reload ran).store = s.store ∧ (s.reload ran).trial = s.trial ∧
      (s.reload ran).record = s.record ∧ (s.reload ran).timers = s.timers := by
  unfold System.reload
  split <;> exact ⟨rfl, rfl, rfl, rfl⟩

attribute [simp] System.writeTrial_frame System.writeRecord_frame System.arm_frame
  System.stop_frame System.show_frame System.reload_frame

/-- `disarm_watchdog` raised: the second call is only made after the first. -/
def Circumstances.disarmRaised (env : Circumstances) : Bool :=
  env.stopTimer.raised || env.stopService.raised

/-- `clear_trial`, then `reload_hyprland`, which raises unless it worked. -/
def System.restore (s : System) (env : Circumstances)
    (reply : Except Failure Reply) : Result :=
  (s.clearTrial.reload env.reload).reply <|
    if env.reload.raised then .error .crashed
    else if env.reload.accepted then reply
    else .error (.reload env.reload.reason)

/-! ### The actions -/

section

variable (sha256 : Text → Text)

/-- The last part of `apply`: Hyprland evaluates the candidate. -/
def showTrial (s : System) (env : Circumstances) (expires : Number) : Result :=
  let shown := s.show env.eval env.token
  if env.eval.raised then shown.reply (.error .crashed)
  else if env.eval.accepted then shown.reply (.ok (.showing env.token expires))
  else
    let stopped := shown.stop env.stopTimer env.token
    if env.disarmRaised then stopped.reply (.error .crashed)
    else
      (stopped.clearTrial.reload env.reload).reply <| .error <|
        if env.reload.raised then .crashed else .rejected env.eval.reason

/-- The middle part of `apply`: the two files and the timer. -/
def armTrial (s : System) (env : Circumstances) (data : Text) : Result :=
  let expires := Number.ofRat (env.started.val + TRIAL_SECONDS)
  let candidate := s.writeTrial env.trialWrite data
  if env.trialWrite ≠ .done then candidate.reply (.error .crashed)
  else
    match encode (recordOf env.token expires (digestOf sha256 s.store)) with
    | none => candidate.reply (.error .unwritable)
    | some record =>
        let recorded := candidate.writeRecord env.recordWrite record
        if env.recordWrite ≠ .done then recorded.reply (.error .crashed)
        else
          let armed := recorded.arm env.arm env.token
          if env.arm.raised then armed.reply (.error .crashed)
          else if env.arm.succeeded then showTrial armed env expires
          else armed.clearTrial.reply (.error .unscheduled)

/-- A change was applied so recently that its timer may not have run. -/
def isPending (state : TrialState) (now : Double) : Bool :=
  now.val < PyNumber.after state.expires WATCHDOG_SECONDS

/-- `request.get('baseDigest') in (None, store['digest'])` -/
def baseMatches (request : PyValue) (store : Saved) : Bool :=
  match getNone request "baseDigest" with
  | .null => true
  | base => isStr base (digestOf sha256 store)

def apply (s : System) (env : Circumstances) (request : PyValue) : Result :=
  match validateDocument (getNone request "document") with
  | .error problem => s.reply (.error (.invalid problem))
  | .ok document =>
      match encode document with
      | none => s.reply (.error .unwritable)
      | some data =>
          let state := readTrialState s.record
          if state.any fun state => isPending state env.checked then
            s.reply (.error .pending)
          else
            let clean := if state.isSome then s.clearTrial else s
            if baseMatches sha256 request s.store then armTrial sha256 clean env data
            else clean.reply (.error .changedElsewhere)

/-- The end of `confirm`: `atomic_write` of the saved file. -/
def save (s : System) (env : Circumstances) (token data : Text) : Result :=
  if s.store = .unsupported then s.reply (.error .irregular)
  else
    match env.saveWrite with
    | .failed => s.reply (.error .crashed)
    | .thenFailed =>
        ⟨{ s with store := .file true data }, .error .crashed, some data⟩
    | .done =>
        -- the trial is confirmed: what is live is what is saved
        ⟨{ s.clearTrial with
            store := .file true data
            live := if s.live = .trial token then .saved else s.live },
          .ok .saved, some data⟩

/-- The candidate as `confirm` reads it back and checks it. -/
def readTrial (trial : Option Text) : Option (Except Problem PyValue) :=
  ((trial.bind readText).bind loads).map validateDocument

def confirm (s : System) (env : Circumstances) (token : Text) : Result :=
  match readTrialState s.record with
  | none => s.reply (.error .ended)
  | some state =>
      if !isStr state.token token then s.reply (.error .ended)
      else
        let stopped := s.stop env.stopTimer token
        if env.disarmRaised then stopped.reply (.error .crashed)
        else if PyNumber.after state.expires CONFIRM_GRACE_SECONDS < env.checked.val then
          stopped.restore env (.error .expired)
        else
          match readTrial s.trial with
          | some (.ok document) =>
              if !isStr state.baseDigest (digestOf sha256 s.store) then
                stopped.restore env (.error .changedMeanwhile)
              else
                match encode document with
                | none => stopped.reply (.error .unwritable)
                | some data => save stopped env token data
          | some (.error .overflow) => stopped.reply (.error .crashed)
          | _ => stopped.restore env (.error .unreadable)

def rollback (s : System) (env : Circumstances) (token : Text) : Result :=
  match readTrialState s.record with
  | none => s.reply (.ok .inEffect)
  | some state =>
      if token ≠ [] ∧ !isStr state.token token then
        s.reply (.error .otherPending)
      else
        match state.token with
        | .str own =>
            let stopped := s.stop env.stopTimer own
            if env.disarmRaised then stopped.reply (.error .crashed)
            else stopped.restore env (.ok .restored)
        -- the unit's name cannot be formed
        | _ => s.reply (.error .crashed)

/-- `expire`, run by the timer of that token, which is spent by it. -/
def expire (s : System) (env : Circumstances) (token : Text) : Result :=
  let fired := { s with timers := s.timers.filter (· ≠ token) }
  if !matchesToken token then fired.reply (.ok .finished)
  else
    match readTrialState s.record with
    | none => fired.reply (.ok .finished)
    | some state =>
        if isStr state.token token then fired.restore env (.ok .finished)
        else fired.reply (.ok .finished)

/-- What can happen next, the last being another writer of `displays.json`. -/
inductive Action where
  | apply (env : Circumstances) (request : PyValue)
  | confirm (env : Circumstances) (token : Text)
  | rollback (env : Circumstances) (token : Text)
  | expire (env : Circumstances) (token : Text)
  | edit (store : Saved)

def Action.run (s : System) : Action → Result
  | .apply env request => Py.apply sha256 s env request
  | .confirm env token => Py.confirm sha256 s env token
  | .rollback env token => Py.rollback s env token
  | .expire env token => Py.expire s env token
  | .edit store => ({ s with store := store } : System).reply (.ok .finished)

end

end Py

end Displays

end CybexOS
