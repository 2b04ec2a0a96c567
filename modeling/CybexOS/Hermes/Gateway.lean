/-
Requests of the Hermes bridge to its local gateway (`hermes_bridge.py`): how a
request is queued, written and answered while the connection comes and goes.
-/
import CybexOS.Text
import CybexOS.Runs
import Mathlib.Logic.Function.Basic
import Mathlib.Data.Int.Notation

namespace CybexOS

namespace Hermes

/-- `RpcFault`, with its two kinds about delivery. -/
inductive Fault where
  | rpc (code : ℤ) (message : Text)
  | upstreamUnavailable
  | ambiguousDelivery (method : Text)
deriving DecidableEq

def Fault.code : Fault → ℤ
  | .rpc code _ => code
  | .upstreamUnavailable => -32010
  | .ambiguousDelivery _ => -32011

def Fault.message : Fault → Text
  | .rpc _ message => message
  | .upstreamUnavailable => ascii "Hermes is offline"
  | .ambiguousDelivery method => ascii "Hermes disconnected while " ++ method ++
      ascii " was in flight; its outcome is unknown and the bridge did not retry it"

def promptSubmit : Text := ascii "prompt.submit"

/-- Where the coroutine of a request stands; `sending` holds the connection it
took. -/
inductive Phase where
  | idle
  | queued
  | sending (connection : Nat)
  | waiting
  | done (outcome : Except Fault Unit)
  | cancelled
deriving DecidableEq

/-- A request with its `PendingUpstream`. What is known outside the bridge are
`handed`, whether the socket has the bytes, and `verdict`, whether Hermes
accepted the request. -/
structure Call where
  method : Text
  phase : Phase
  pending : Bool
  written : Bool
  future : Option (Except Fault Unit)
  handed : Bool
  verdict : Option Bool
deriving DecidableEq

/-- The gateway; `opened` counts its connections, `lock` is the call that sends. -/
structure Gateway where
  connected : Bool
  websocket : Option Nat
  opened : Nat
  lock : Option Nat
  calls : Nat → Call

/-- What Hermes answers a request, `false` with an error frame. -/
inductive Answer where
  | result
  | error (code : ℤ) (message : Text)
deriving DecidableEq

def Answer.accepts : Answer → Bool
  | .result => true
  | .error .. => false

def Answer.outcome : Answer → Except Fault Unit
  | .result => .ok ()
  | .error code message => .error (.rpc code message)

/-- What happens to the gateway, in any order. -/
inductive Event where
  | opens
  | ready
  | disconnects
  | request (call : Nat) (method : Text)
  | acquires (call : Nat)
  | hands (call : Nat)
  | sent (call : Nat)
  | sendFails (call : Nat)
  | decides (call : Nat) (accepted : Bool)
  | answers (call : Nat) (answer : Answer)
  | resumes (call : Nat)
  | timesOut (call : Nat) (seconds : Text)
  | cancels (call : Nat)

namespace Gateway

def put (g : Gateway) (call : Nat) (row : Call) : Gateway :=
  { g with calls := Function.update g.calls call row }

/-- The end of `request`: the call leaves `_pending`. -/
def finish (g : Gateway) (call : Nat) (outcome : Except Fault Unit) : Gateway :=
  g.put call { g.calls call with phase := .done outcome, pending := false }

def release (g : Gateway) (call : Nat) : Gateway :=
  { g with lock := if g.lock = some call then none else g.lock }

/-- The fault of a lost connection. -/
def lost (row : Call) : Fault :=
  if row.written then .ambiguousDelivery row.method else .upstreamUnavailable

/-- `_reject_pending`, for one request. -/
def reject (row : Call) : Call :=
  if row.pending ∧ row.future = none then { row with future := some (.error (lost row)) } else row

/-- `request`, up to the lock. -/
def request (g : Gateway) (call : Nat) (method : Text) : Gateway :=
  let row := { g.calls call with method := method }
  if g.connected = false ∨ g.websocket = none then
    g.put call { row with phase := .done (.error .upstreamUnavailable) }
  else g.put call { row with phase := .queued, pending := true }

/-- The lock is taken and the connection looked at again. -/
def acquire (g : Gateway) (call : Nat) : Gateway :=
  match g.websocket with
  | none => g.finish call (.error .upstreamUnavailable)
  | some connection =>
      { g.put call { g.calls call with phase := .sending connection } with lock := some call }

/-- `wait_for` gives up. -/
def timeout (g : Gateway) (call : Nat) (seconds : Text) : Gateway :=
  let row := g.calls call
  if row.method = promptSubmit ∧ row.written then
    g.finish call (.error (.ambiguousDelivery row.method))
  else
    g.finish call (.error (.rpc (-32012) (ascii "Hermes did not answer " ++ row.method ++
      ascii " within " ++ seconds ++ ascii " seconds")))

/-- One event; an event that cannot happen changes nothing. -/
def step (g : Gateway) : Event → Gateway
  | .opens => if g.websocket = none then
      { g with websocket := some g.opened, opened := g.opened + 1 } else g
  | .ready => if g.websocket = none then g else { g with connected := true }
  | .disconnects =>
      { g with connected := false, websocket := none, calls := fun call => reject (g.calls call) }
  | .request call method => if (g.calls call).phase = .idle then g.request call method else g
  | .acquires call =>
      if (g.calls call).phase = .queued ∧ g.lock = none then g.acquire call else g
  | .hands call =>
      match (g.calls call).phase with
      -- only an open connection takes the bytes
      | .sending connection => if g.websocket = some connection then
          g.put call { g.calls call with handed := true } else g
      | _ => g
  | .sent call =>
      match (g.calls call).phase with
      | .sending _ => if (g.calls call).handed then
          (g.put call { g.calls call with phase := .waiting, written := true }).release call else g
      | _ => g
  | .sendFails call =>
      match (g.calls call).phase with
      | .sending _ => (g.finish call (.error (lost (g.calls call)))).release call
      | _ => g
  | .decides call accepted =>
      if (g.calls call).handed ∧ (g.calls call).verdict = none then
        g.put call { g.calls call with verdict := some accepted } else g
  | .answers call answer =>
      if (g.calls call).verdict = some answer.accepts ∧ (g.calls call).pending ∧
          (g.calls call).future = none then
        g.put call { g.calls call with future := some answer.outcome } else g
  | .resumes call =>
      match (g.calls call).phase, (g.calls call).future with
      | .waiting, some outcome => g.finish call outcome
      | _, _ => g
  | .timesOut call seconds =>
      if (g.calls call).phase = .waiting ∧ (g.calls call).future = none then
        g.timeout call seconds else g
  | .cancels call =>
      match (g.calls call).phase with
      | .idle | .done _ | .cancelled => g
      | _ => (g.put call { g.calls call with phase := .cancelled, pending := false }).release call

end Gateway

/-- A call before its request. -/
def Call.fresh : Call := ⟨[], .idle, false, false, none, false, none⟩

/-- The gateway when the bridge starts. -/
def Gateway.start : Gateway := ⟨false, none, 0, none, fun _ => .fresh⟩

/-- What a prompt's end tells the client, with the conversation's `has_messages`. -/
structure Report where
  result : Except Fault Unit
  hasMessages : Bool
deriving DecidableEq

/-- The end of `prompt.submit` in `dispatch`; `previous` is the flag before it. -/
def submitReport (previous : Bool) : Except Fault Unit → Report
  | .ok () => ⟨.ok (), true⟩
  | .error (.ambiguousDelivery method) => ⟨.error (.ambiguousDelivery method), true⟩
  | .error fault => ⟨.error fault, previous⟩

/-- The prompt is called definitely not delivered. -/
def Report.denies (report : Report) : Bool :=
  match report.result with
  | .ok () => false
  | .error fault => fault = .upstreamUnavailable || !report.hasMessages

end Hermes

end CybexOS
