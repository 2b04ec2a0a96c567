/-
Action batches over the T3 link (`T3Rpc.qml`): requests in flight, the state of
each action, and what answers, deadlines and dropped links make of them.
-/
import CybexOS.Dict
import CybexOS.Json.Js

namespace CybexOS

namespace T3

open Json (JsValue)

/-! ### State -/

structure ActionState where
  pending : Bool
  error : Text
  commandId : Text
  awaitResolution : Bool
  startedAt : ℤ
  timeoutMs : Option ℤ := none
deriving DecidableEq

structure Command where
  commandId : Option Text
  body : JsValue

structure BatchOptions where
  awaitResolution : Bool := false
  holdAfterSuccess : Bool := false

/-- What the functions inside `dispatchBatch` hold on to. -/
structure Batch where
  key : Text
  commands : List Command
  options : BatchOptions

/-- The handler of a request: the batch it is of and the command it sent. -/
structure Handler where
  deadline : ℤ
  actionKey : Text
  batch : Nat
  index : Nat

/-- How a request ends, or that its action expired before it. -/
inductive Ending where
  | succeeded
  | rejected
  | timedOut
  | cancelled
  | dropped
deriving DecidableEq

structure Ended where
  batch : Nat
  index : Nat
  ending : Ending
deriving DecidableEq

structure Sent where
  batch : Nat
  index : Nat
  command : Command

/-- The RPC layer, with the batches accepted so far and what has been sent and
ended. -/
structure Rpc where
  connected : Bool
  canOperate : Bool
  actionStates : List (Text × ActionState)
  rpcHandlers : List (Nat × Handler)
  nextReqId : Nat
  generated : Nat
  batches : List Batch
  sent : List Sent
  ended : List Ended

/-- Two readings of the clock. -/
structure Times where
  startedAt : ℤ
  requestedAt : ℤ

def actionTimeoutMs : ℤ := 15000

def Rpc.initial : Rpc where
  connected := false
  canOperate := false
  actionStates := []
  rpcHandlers := []
  nextReqId := 2
  generated := 0
  batches := []
  sent := []
  ended := []

/-! ### Action states -/

def canBeginAction (states : List (Text × ActionState)) (key : Text) : Bool :=
  !(states.lookup key).any (·.pending)

def Rpc.putActionState (r : Rpc) (key : Text) (state : ActionState) : Rpc :=
  { r with actionStates := Dict.set r.actionStates key state }

def Rpc.clearAction (r : Rpc) (key : Text) : Rpc :=
  { r with actionStates := Dict.pop r.actionStates key }

def Rpc.beginAction (r : Rpc) (key commandId : Text) (awaitResolution : Bool) (now : ℤ) : Rpc :=
  r.putActionState key ⟨true, [], commandId, awaitResolution, now, none⟩

def Rpc.failAction (r : Rpc) (key message : Text) : Rpc :=
  match r.actionStates.lookup key with
  | none => r
  | some current =>
      r.putActionState key { current with
        pending := false
        error := if message = [] then ascii "Action failed" else message }

def Rpc.rejectAction (r : Rpc) (key message : Text) (awaitResolution : Bool) (now : ℤ) : Rpc :=
  r.putActionState key ⟨false, message, [], awaitResolution, now, none⟩

def failPending (message : Text) (state : ActionState) : ActionState :=
  if state.pending then { state with pending := false, error := message } else state

def Rpc.failAllPendingActions (r : Rpc) (message : Text) : Rpc :=
  { r with actionStates := r.actionStates.map fun item => (item.1, failPending message item.2) }

/-- The action has been pending for its time. -/
def ActionState.expired (state : ActionState) (now : ℤ) : Bool :=
  state.pending && state.timeoutMs.getD actionTimeoutMs ≤ now - state.startedAt

def expireActionStates (states : List (Text × ActionState)) (now : ℤ) :
    List (Text × ActionState) :=
  states.map fun item =>
    (item.1, if item.2.expired now then
      { item.2 with pending := false, error := ascii "Action timed out" } else item.2)

/-! ### Requests -/

def Rpc.dropRpcHandler (r : Rpc) (id : Nat) : Rpc :=
  { r with rpcHandlers := Dict.pop r.rpcHandlers id }

def Rpc.note (r : Rpc) (batch index : Nat) (ending : Ending) : Rpc :=
  { r with ended := r.ended ++ [⟨batch, index, ending⟩] }

/-- `requestOnce` for a command of a batch. -/
def Rpc.requestOnce (r : Rpc) (key : Text) (batch index : Nat) (command : Command) (now : ℤ) :
    Rpc :=
  if r.connected then
    { r with
      rpcHandlers := r.rpcHandlers ++ [(r.nextReqId, ⟨now + actionTimeoutMs, key, batch, index⟩)]
      nextReqId := r.nextReqId + 1
      sent := r.sent ++ [⟨batch, index, command⟩] }
  else (r.note batch index .dropped).failAction key (ascii "Not connected")

section

variable (genId : Nat → Text)

/-- The command with an id, and whether one had to be made for it. -/
def Command.identified (command : Command) (generated : Nat) : Command × Nat :=
  match command.commandId.filter (· ≠ []) with
  | some _ => (command, generated)
  | none => ({ command with commandId := some (genId generated) }, generated + 1)

/-- `sendAt` of a batch. -/
def Rpc.sendAt (r : Rpc) (batch index : Nat) (times : Times) : Rpc :=
  match r.batches[batch]? with
  | none => r
  | some accepted =>
      match (r.actionStates.lookup accepted.key).filter (·.pending) with
      | none => r
      | some current =>
          match accepted.commands[index]? with
          | none =>
              if !accepted.options.awaitResolution && !accepted.options.holdAfterSuccess then
                r.clearAction accepted.key
              else r
          | some command =>
              let (command, generated) := command.identified genId r.generated
              let r := Rpc.putActionState { r with generated := generated } accepted.key
                { current with
                  commandId := command.commandId.getD [], startedAt := times.startedAt }
              r.requestOnce accepted.key batch index command times.requestedAt

def Rpc.accepts (r : Rpc) (commands : List Command) (key : Text) : Bool :=
  canBeginAction r.actionStates key && r.canOperate && r.connected && !commands.isEmpty

/-- The id that is returned is empty when nothing is sent. -/
def Rpc.dispatchBatch (r : Rpc) (commands : List Command) (key : Text) (options : BatchOptions)
    (times : Times) : Rpc × Text :=
  let reject := fun message =>
    r.rejectAction key (ascii message) options.awaitResolution times.startedAt
  if !canBeginAction r.actionStates key then (r, [])
  else if !r.canOperate then (reject "This pairing is read-only", [])
  else if !r.connected then (reject "Not connected", [])
  else
    match commands with
    | [] => (reject "Nothing to send", [])
    | first :: rest =>
        let firstId := first.commandId.getD (genId r.generated)
        let generated := if first.commandId.isSome then r.generated else r.generated + 1
        let commands := { first with commandId := some firstId } :: rest
        let next := Rpc.beginAction
          { r with generated := generated, batches := r.batches ++ [⟨key, commands, options⟩] }
          key firstId options.awaitResolution times.startedAt
        (next.sendAt genId r.batches.length 0 times, firstId)

/-- What the handler of a request does when the request ends so. -/
def Rpc.finish (r : Rpc) (handler : Handler) (ending : Ending) (message : Text) (times : Times) :
    Rpc :=
  let r := r.note handler.batch handler.index ending
  match ending with
  | .succeeded => r.sendAt genId handler.batch (handler.index + 1) times
  | .rejected =>
      r.failAction handler.actionKey (if message = [] then ascii "Command rejected" else message)
  | .timedOut => r.failAction handler.actionKey (ascii "Request timed out")
  | .dropped => r.failAction handler.actionKey (ascii "Disconnected before confirmation")
  | .cancelled => r

/-- The server's `Exit` for a request. -/
def Rpc.answer (r : Rpc) (id : Nat) (succeeded : Bool) (message : Text) (times : Times) : Rpc :=
  match r.rpcHandlers.lookup id with
  | none => r
  | some handler =>
      (r.finish genId handler (if succeeded then .succeeded else .rejected) message
        times).dropRpcHandler id

/-- One request past its deadline. -/
def Rpc.timeout (r : Rpc) (item : Nat × Handler) : Rpc :=
  (r.dropRpcHandler item.1).finish genId item.2 .timedOut [] ⟨0, 0⟩

/-- The requests whose action expires although they go on. -/
def Rpc.overtaken (r : Rpc) (now : ℤ) : List (Nat × Handler) :=
  r.rpcHandlers.filter fun item => (r.actionStates.lookup item.2.actionKey).any (·.expired now)

/-- The deadline timer. -/
def Rpc.sweep (r : Rpc) (now : ℤ) : Rpc :=
  if !r.connected then r
  else
    let r := (r.rpcHandlers.filter fun item => item.2.deadline ≤ now).foldl
      (Rpc.timeout genId) r
    { r with
      actionStates := expireActionStates r.actionStates now
      ended := r.ended ++ (r.overtaken now).map fun item =>
        ⟨item.2.batch, item.2.index, .timedOut⟩ }

def Rpc.cancelActionRequests (r : Rpc) (key : Text) : Rpc :=
  Rpc.clearAction { r with
    rpcHandlers := r.rpcHandlers.filter fun item => item.2.actionKey ≠ key
    ended := r.ended ++ (r.rpcHandlers.filter fun item => item.2.actionKey = key).map fun item =>
      ⟨item.2.batch, item.2.index, .cancelled⟩ } key

def Rpc.disconnect (r : Rpc) (item : Nat × Handler) : Rpc :=
  r.finish genId item.2 .dropped [] ⟨0, 0⟩

def Rpc.abortPendingRpcs (r : Rpc) : Rpc :=
  r.rpcHandlers.foldl (Rpc.disconnect genId) { r with rpcHandlers := [] }

/-- The link leaves `connected`. -/
def Rpc.drop (r : Rpc) : Rpc :=
  (Rpc.abortPendingRpcs genId { r with connected := false }).failAllPendingActions
    (ascii "Disconnected before confirmation")

/-! ### Events -/

inductive Event where
  | dispatchBatch (commands : List Command) (key : Text) (options : BatchOptions) (times : Times)
  | rejectAction (key message : Text) (awaitResolution : Bool) (now : ℤ)
  | answer (id : Nat) (succeeded : Bool) (message : Text) (times : Times)
  | sweep (now : ℤ)
  | cancelActionRequests (key : Text)
  | drop
  | opened (canOperate : Bool)

def Rpc.step (r : Rpc) : Event → Rpc
  | .dispatchBatch commands key options times =>
      (r.dispatchBatch genId commands key options times).1
  | .rejectAction key message awaitResolution now => r.rejectAction key message awaitResolution now
  | .answer id succeeded message times => r.answer genId id succeeded message times
  | .sweep now => r.sweep genId now
  | .cancelActionRequests key => r.cancelActionRequests key
  | .drop => r.drop genId
  | .opened canOperate => { r with connected := true, canOperate := canOperate }

end

end T3

end CybexOS
