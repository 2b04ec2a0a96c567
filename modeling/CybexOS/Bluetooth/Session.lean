/-
The drawer's session with BlueZ (`bluetooth-tool.py`): commands of the drawer,
calls of the pairing agent, and replies on the bus, one callback at a time.
-/
import CybexOS.Decimal
import CybexOS.Json.Py

namespace CybexOS

namespace Bluetooth

open Json (PyValue)

/-! ### Messages -/

inductive Kind where
  | requestPinCode
  | requestPasskey
  | requestConfirmation
  | requestAuthorization
  | authorizeService
  | displayPinCode
  | displayPasskey
deriving DecidableEq

/-- A call of the agent, with its arguments. -/
inductive AgentCall where
  | release
  | cancel
  | requestPinCode (path : Text)
  | requestPasskey (path : Text)
  | requestConfirmation (path : Text) (passkey : ℕ)
  | requestAuthorization (path : Text)
  | authorizeService (path uuid : Text)
  | displayPinCode (path pinCode : Text)
  | displayPasskey (path : Text) (passkey entered : ℕ)
deriving DecidableEq

structure Prompt where
  kind : Kind
  code : Text
  entered : ℕ
  service : Text
deriving DecidableEq

/-- `f'{passkey:06d}'` -/
def sixDigits (passkey : ℕ) : Text :=
  List.replicate (6 - (digitsOf passkey).length) 48 ++ digitsOf passkey

/-- The device that a call is about and what is shown of it; none for `Release`
and `Cancel`. -/
def AgentCall.prompt : AgentCall → Option (Text × Prompt)
  | .release | .cancel => none
  | .requestPinCode path => some (path, ⟨.requestPinCode, [], 0, []⟩)
  | .requestPasskey path => some (path, ⟨.requestPasskey, [], 0, []⟩)
  | .requestConfirmation path passkey =>
      some (path, ⟨.requestConfirmation, sixDigits passkey, 0, []⟩)
  | .requestAuthorization path => some (path, ⟨.requestAuthorization, [], 0, []⟩)
  | .authorizeService path uuid => some (path, ⟨.authorizeService, [], 0, uuid⟩)
  | .displayPinCode path pinCode => some (path, ⟨.displayPinCode, pinCode, 0, []⟩)
  | .displayPasskey path passkey entered =>
      some (path, ⟨.displayPasskey, sixDigits passkey, entered, []⟩)

/-- Nothing is asked of the user. -/
def Kind.isDisplay : Kind → Bool
  | .displayPinCode | .displayPasskey => true
  | _ => false

inductive Operation where
  | pair
  | connect
  | disconnect
deriving DecidableEq

/-- What follows the reply to a call. -/
inductive Done where
  | paired
  | trusted (device : Text)
  | finish
  | complete (enabled : Bool)
  | nothing
deriving DecidableEq

inductive Method where
  | pair
  | connect
  | disconnect
  | cancelPairing
  | setTrusted
  | startDiscovery
  | stopDiscovery
deriving DecidableEq

/-- A call on the bus that is not answered yet. -/
structure BusCall where
  path : Text
  method : Method
  done : Done
deriving DecidableEq

/-- A line on standard output. The prompt of a request that waits comes with the
number of the request. -/
inductive Event where
  | ready
  | prompt (prompt : Option (Prompt × Option ℕ)) (cleared : Bool)
  | busy (device error : Text)
  | scanBusy
  | scanned (scanning : Bool) (error : Text)
  | error (text : Text)
deriving DecidableEq

/-- What a request is answered with. -/
inductive Value where
  | pinCode (text : Text)
  | passkey (value : ℕ)
  | nothing
deriving DecidableEq

/-- A line of the drawer, which had received the prompts of these requests. -/
structure Sent where
  message : PyValue
  seen : List ℕ

/-- The answer to an invocation. A value is given for a line of the drawer. -/
inductive Answer where
  | rejected
  | canceled
  | returned
  | accepted (value : Value) (line : Sent)

/-- What becomes of operations, the latest first. -/
inductive Happening where
  | accepted (operation : Operation) (device : Text)
  | canceled
  | trusting
  | connecting
  | ended
deriving DecidableEq

structure Session where
  adapter : Text
  owner : Text
  pending : Option ℕ
  promptKind : Option Kind
  device : Text
  operation : Option Operation
  canceled : Bool
  scan : Bool
  scanBusy : Bool
  scanTimer : Bool
  closed : Bool
  /-- Nobody reads standard output. -/
  broken : Bool
  calls : List BusCall
  /-- The lines that are not read yet, and the events. -/
  input : List Sent
  output : List Event
  /-- The requests whose prompts the drawer has received. -/
  seen : List ℕ
  /-- How many calls the agent has had, and which of them have waited. -/
  requests : ℕ
  waited : List ℕ
  answers : List (ℕ × Answer)
  log : List Happening

namespace Session

/-! ### Callbacks -/

def answer (number : ℕ) (answer : Answer) (s : Session) : Session :=
  { s with answers := (number, answer) :: s.answers }

def note (happening : Happening) (s : Session) : Session :=
  { s with log := happening :: s.log }

/-- The request that waits is answered with an error. -/
def dropPending (s : Session) : Session :=
  match s.pending with
  | some number =>
      { s with
        pending := none, promptKind := none, answers := (number, .canceled) :: s.answers }
  | none => { s with promptKind := none }

/-- Nothing is printed any more, and the calls of the connection end with it. -/
def close (s : Session) : Session :=
  if s.closed then s else { s with closed := true }.dropPending

/-- A broken pipe closes the session. -/
def emit (event : Event) (s : Session) : Session :=
  if s.closed then s
  else if s.broken then s.close
  else { s with output := s.output ++ [event] }

def call (path : Text) (method : Method) (done : Done) (s : Session) : Session :=
  if s.closed then s else { s with calls := s.calls ++ [⟨path, method, done⟩] }

def clearPrompt (s : Session) : Session := s.dropPending.emit (.prompt none false)

/-- `busy=''` ends the operation. -/
def printEnd (error : Text) (s : Session) : Session :=
  if s.closed ∨ s.broken then s.emit (.busy [] error)
  else (s.emit (.busy [] error)).note .ended

def free (s : Session) : Session := { s with device := [], operation := none }

def finish (error : Text) (s : Session) : Session := (s.clearPrompt.free).printEnd error

def markCanceled (s : Session) : Session := { s with canceled := true }.note .canceled

def cancel (s : Session) : Session :=
  let s := s.markCanceled.clearPrompt
  if s.device = [] then s
  else
    match s.operation with
    | some .pair => s.call s.device .cancelPairing .nothing
    | some .connect => s.call s.device .disconnect .nothing
    | _ => s

def setScanBusy (busy : Bool) (s : Session) : Session := { s with scanBusy := busy }

def discovery (enabled : Bool) (s : Session) : Session :=
  if s.scanBusy ∨ enabled = s.scan then s
  else
    ((s.setScanBusy true).emit .scanBusy).call s.adapter
      (if enabled then .startDiscovery else .stopDiscovery) (.complete enabled)

def setScan (enabled : Bool) (s : Session) : Session :=
  { s with scan := enabled, scanTimer := enabled }

/-- `complete` of `discovery` -/
def complete (enabled : Bool) (error : Text) (s : Session) : Session :=
  let s := s.setScanBusy false
  let s := if error = [] then s.setScan enabled else s
  s.emit (.scanned s.scan error)

def stopTimer (s : Session) : Session := { s with scanTimer := false }

def scanExpired (s : Session) : Session :=
  if s.scanTimer then s.stopTimer.discovery false else s

/-- `paired` -/
def paired (error : Text) (s : Session) : Session :=
  if s.canceled then s.finish (ascii "Pairing canceled")
  else if error ≠ [] then (s.call s.device .cancelPairing .nothing).finish error
  else (s.clearPrompt.call s.device .setTrusted (.trusted s.device)).note .trusting

def setOperation (operation : Operation) (s : Session) : Session :=
  { s with operation := some operation }

/-- `trusted` of `paired` -/
def trusted (device error : Text) (s : Session) : Session :=
  if s.canceled then s.finish (ascii "Pairing canceled")
  else if error ≠ [] then s.finish error
  else ((s.setOperation .connect).call device .connect .finish).note .connecting

/-- The reply to a call, unless the session is closed. -/
def replied (done : Done) (error : Text) (s : Session) : Session :=
  match done with
  | .paired => s.paired error
  | .trusted device => s.trusted device error
  | .finish => s.finish error
  | .complete enabled => s.complete enabled error
  | .nothing => s

/-! ### The agent -/

/-- The request waits for the user. -/
def wait (number : ℕ) (kind : Kind) (s : Session) : Session :=
  { s with pending := some number, promptKind := some kind, waited := number :: s.waited }

/-- `agent`; the call has this number. -/
def agent (number : ℕ) (sender : Text) (agentCall : AgentCall) (s : Session) : Session :=
  if sender ≠ s.owner then s.answer number .rejected
  else
    match agentCall.prompt with
    | none =>
        let s := s.clearPrompt.answer number .returned
        if agentCall = .release then s.close else s
    | some (path, prompt) =>
        if s.device = [] ∨ path ≠ s.device then s.answer number .rejected
        else if prompt.kind.isDisplay = false ∧ s.pending.isSome then s.answer number .rejected
        else if prompt.kind.isDisplay then
          (s.answer number .returned).emit (.prompt (some (prompt, none)) false)
        else (s.wait number prompt.kind).emit (.prompt (some (prompt, some number)) false)

/-! ### Commands -/

def isHex (c : ℕ) : Bool := isDigit c || (65 ≤ c && c ≤ 70)

/-- `(?:[0-9A-F]{2}_){5}[0-9A-F]{2}` -/
def isAddress (text : Text) : Bool :=
  text.length == 17 && (text.zipIdx.all fun unit =>
    if unit.2 % 3 = 2 then unit.1 == 95 else isHex unit.1)

/-- The path of a device of the adapter. -/
def isDevice (adapter path : Text) : Bool :=
  (adapter ++ ascii "/dev_").isPrefixOf path &&
    isAddress (path.drop (adapter ++ ascii "/dev_").length)

/-- `message.get(key)` -/
def field (message : PyValue) (key : String) : Option PyValue :=
  match message with
  | .obj fields => fields.lookup (ascii key)
  | _ => none

def isStr (value : Option PyValue) (text : String) : Bool :=
  match value with
  | some (.str held) => held == ascii text
  | _ => false

def isTrue (value : Option PyValue) : Bool :=
  match value with
  | some (.bool held) => held
  | _ => false

/-- `type(value).__name__` -/
def typeName : PyValue → Text
  | .null => ascii "NoneType"
  | .bool _ => ascii "bool"
  | .num (.int _) => ascii "int"
  | .num (.float _) => ascii "float"
  | .str _ => ascii "str"
  | .arr _ => ascii "list"
  | .obj _ => ascii "dict"

/-- `reply_value` -/
def replyValue (kind : Option Kind) (value : Option PyValue) : Except Text Value :=
  match kind with
  | some .requestPinCode =>
      match value.getD (.str []) with
      | .str text =>
          if 1 ≤ text.length ∧ text.length ≤ 16 then .ok (.pinCode text)
          else .error (ascii "Enter a PIN of 1–16 characters.")
      | _ => .error (ascii "Enter a PIN of 1–16 characters.")
  | some .requestPasskey =>
      match value.getD (.str []) with
      | .str text =>
          if 1 ≤ text.length ∧ text.length ≤ 6 ∧ text.all isDigit then .ok (.passkey (decimal text))
          else .error (ascii "Enter a numeric passkey of up to six digits.")
      | _ => .error (ascii "Enter a numeric passkey of up to six digits.")
  | _ => .ok .nothing

/-- The request is answered with a value. -/
def giveValue (number : ℕ) (value : Value) (line : Sent) (s : Session) : Session :=
  { s with
    pending := none, promptKind := none, answers := (number, .accepted value line) :: s.answers }

def reply (line : Sent) (s : Session) : Except Text Session :=
  match s.pending with
  | none => .ok s
  | some number =>
      if isTrue (field line.message "accept") = false then .ok s.cancel
      else
        match replyValue s.promptKind (field line.message "value") with
        | .error text => .error text
        | .ok value => .ok ((s.giveValue number value line).emit (.prompt none true))

/-- The device and the operation of the session. -/
def accept (operation : Operation) (device : Text) (s : Session) : Session :=
  { s with canceled := false, device := device, operation := some operation }.note
    (.accepted operation device)

def begin (operation : Operation) (message : PyValue) (s : Session) : Except Text Session :=
  if s.device ≠ [] then .error (ascii "Wait for the current Bluetooth action to finish.")
  else
    match field message "device" with
    | some (.str device) =>
        if isDevice s.adapter device then
          let s := (s.accept operation device).emit (.busy device [])
          match operation with
          | .pair => .ok (s.call device .pair .paired)
          | .connect => .ok (s.call device .connect .finish)
          | .disconnect => .ok (s.call device .disconnect .finish)
        else .error (ascii "Invalid Bluetooth device.")
    | none => .error (ascii "Invalid Bluetooth device.")
    | some value =>
        .error (ascii "expected string or bytes-like object, got '" ++ typeName value ++ ascii "'")

def command (line : Sent) (s : Session) : Except Text Session :=
  let message := line.message
  let action := field message "action"
  if isStr action "scan" then .ok (s.discovery (isTrue (field message "enabled")))
  else if isStr action "cancel" then .ok s.cancel
  else if isStr action "reply" then s.reply line
  else if isStr action "pair" then s.begin .pair message
  else if isStr action "connect" then s.begin .connect message
  else if isStr action "disconnect" then s.begin .disconnect message
  else .error (ascii "Unknown Bluetooth action.")

/-- One line of `read`. -/
def readLine (line : Sent) (s : Session) : Session :=
  match line.message with
  | .obj _ =>
      match s.command line with
      | .ok next => next
      | .error text => s.emit (.error text)
  | _ => s.emit (.error (ascii "Invalid Bluetooth request."))

/-! ### Steps -/

inductive Move where
  /-- The drawer writes a line. -/
  | send (message : PyValue)
  /-- The drawer receives an event. -/
  | receive
  /-- The next line is read. -/
  | read
  /-- The end of input, too long a line, or a signal. -/
  | hangUp
  | agent (sender : Text) (agentCall : AgentCall)
  /-- A call is answered, by its place among them, or times out; no text is no error. -/
  | reply (index : ℕ) (error : Text)
  | scanExpired
  | breakPipe

/-- The drawer learns of a request when it receives its prompt. -/
def received (event : Event) (seen : List ℕ) : List ℕ :=
  match event with
  | .prompt (some (_, some number)) _ => number :: seen
  | _ => seen

def countCall (s : Session) : Session := { s with requests := s.requests + 1 }

def takeLine (rest : List Sent) (s : Session) : Session := { s with input := rest }

def takeCall (index : ℕ) (s : Session) : Session := { s with calls := s.calls.eraseIdx index }

def step (s : Session) (move : Move) : Session :=
  match move with
  | .send message => { s with input := s.input ++ [⟨message, s.seen⟩] }
  | .receive =>
      match s.output with
      | [] => s
      | event :: rest => { s with output := rest, seen := received event s.seen }
  | .read =>
      if s.closed then s
      else
        match s.input with
        | [] => s
        | line :: rest => (s.takeLine rest).readLine line
  | .hangUp => s.close
  | .agent sender agentCall =>
      if s.closed then s else s.countCall.agent s.requests sender agentCall
  | .reply index error =>
      if s.closed then s
      else
        match s.calls[index]? with
        | none => s
        | some busCall => (s.takeCall index).replied busCall.done error
  | .scanExpired => if s.closed then s else s.scanExpired
  | .breakPipe => { s with broken := true }

/-- The agent is registered, and the drawer is told so. -/
def opened (adapter owner : Text) : Session :=
  { adapter := adapter, owner := owner, pending := none, promptKind := none, device := []
    operation := none, canceled := false, scan := false, scanBusy := false, scanTimer := false
    closed := false, broken := false, calls := [], input := [], output := [.ready], seen := []
    requests := 0, waited := [], answers := [], log := [] }

end Session

end Bluetooth

end CybexOS
