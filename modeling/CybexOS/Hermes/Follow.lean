/-
A remote run as the Hermes bridge follows it (`hermes_bridge.py`): the lines of
its connections, the cursor they move, and the events that are handled.
-/
import CybexOS.Displays.PyValidate
import CybexOS.Hermes.Sse
import CybexOS.Hermes.Streams
import CybexOS.Plugins.Package

namespace CybexOS

namespace Hermes

open Json (PyValue)
open Plugins (truthy)

/-- An event as `_handle_remote_sse_event` receives it. -/
structure SseEvent where
  name : Text
  id : Text
  data : PyValue

/-- `parsed if isinstance(parsed, dict) else {"value": parsed}` -/
def eventData : PyValue → PyValue
  | .obj fields => .obj fields
  | value => .obj [(ascii "value", value)]

/-- `event_name.strip().lower().replace("-", "_")` -/
def normalized (name : Text) : Text :=
  (Displays.Py.strip name).map fun c => if isUpper c then c + 32 else if c = 45 then 95 else c

section

variable (str : PyValue → Text)

/-- `str(data.get(first) or data.get(second) or "")` -/
def chunkOf (data : PyValue) (first second : String) : Text :=
  match ([data.field? (ascii first), data.field? (ascii second)].filterMap id).find? truthy with
  | some value => str value
  | none => []

/-- `isinstance(data.get("session"), dict)` -/
def hasSession (data : PyValue) : Bool :=
  match data.field? (ascii "session") with
  | some (.obj _) => true
  | _ => false

/-- The event catalog of `_handle_remote_sse_event`. -/
def streamEvent (event : SseEvent) : StreamEvent :=
  let named (names : List String) : Bool := (names.map ascii).contains (normalized event.name)
  if named ["token", "text", "assistant_delta"] then .token (chunkOf str event.data "text" "token")
  else if named ["interim_assistant"] then
    .interimAssistant
      (match event.data.field? (ascii "already_streamed") with
        | some (.bool true) => true
        | _ => false)
      (chunkOf str event.data "text" "content")
  else if named ["reasoning"] then .reasoning
  else if named ["tool", "tool_start"] then .tool
  else if named ["tool_complete", "tool_completed", "tool_end"] then .toolComplete
  else if named ["approval", "approval_request"] then .approval
  else if named ["clarify", "clarify_request"] then .clarify
  else if named ["compressing", "compression_start"] then .compressing
  else if named ["compressed", "compression_complete"] then .compressed
  else if named ["done"] then .done (hasSession event.data)
  else if named ["cancel", "cancelled"] then .cancel (hasSession event.data)
  else if named ["apperror", "error"] then .error
  else if named ["stream_end"] then .streamEnd
  else if named ["warning", "context_status", "todo_state", "goal", "goal_continue",
      "pending_steer_leftover", "usage", "metering", "title", "title_status", "state_saved"] then
    .metadata
  else .other

/-- What is left of a connection, and the event gathered from it so far. -/
structure Connection where
  rest : List (List Nat)
  pending : Pending

/-- The streams with the connections of their readers; `sent` is the cursor that
a reader connects with. -/
structure Follower where
  streams : Streams
  sent : Nat → Text
  connections : Nat → Connection
  handled : List (Text × SseEvent)

/-- What happens to the follower: the moves of the streams, a line that is read,
and a connection that ends within its next line. -/
inductive FollowMove where
  | streams (move : StreamMove)
  | reads (reader : Nat)
  | cuts (reader : Nat) (taken : Nat)

/-- What the server sends after a cursor. -/
def after (journal : List Entry) (cursor : Text) : List Entry :=
  if cursor = [] then journal else (journal.dropWhile fun entry => entry.id ≠ cursor).tail

variable (loads : Text → Option PyValue) (journal : Text → List Entry)

namespace Follower

def stage (f : Follower) (reader : Nat) : Stage := f.streams.stage reader

def stream (f : Follower) (reader : Nat) : Text := f.streams.stream reader

def move (f : Follower) (move : StreamMove) : Follower := { f with streams := f.streams.step move }

def connect (f : Follower) (reader : Nat) (connection : Connection) : Follower :=
  { f with connections := Function.update f.connections reader connection }

/-- The cursor moves before the event is handled. -/
def advance (f : Follower) (id : Text) : Follower :=
  if id = [] then f else { f with streams := { f.streams with cursor := id } }

/-- `dispatch_event` -/
def dispatch (f : Follower) (reader : Nat) (pending : Pending) (rest : List (List Nat)) :
    Follower :=
  if pending.data = [] then
    ((f.connect reader ⟨rest, .fresh⟩).advance pending.id).move (.idles reader)
  else
    match loads ([10].intercalate pending.data) with
    | none => f.move (.breaks reader)
    | some parsed =>
        let event := ⟨pending.name, pending.id, eventData parsed⟩
        { ((f.connect reader ⟨rest, .fresh⟩).advance pending.id).move
            (.handles reader (streamEvent str event)) with
          handled := f.handled ++ [(f.stream reader, event)] }

/-- The end of a connection also dispatches what was gathered. -/
def finish (f : Follower) (reader : Nat) (pending : Pending) : Follower :=
  (f.dispatch str loads reader pending []).move (.breaks reader)

/-- The outer loop of a reader takes the cursor that it will connect with. -/
def loop (f : Follower) (reader : Nat) (move : StreamMove) : Follower :=
  { f.move move with
    sent := if f.stage reader = .connecting then f.sent
      else Function.update f.sent reader f.streams.cursor }

/-- One move; a move that cannot happen changes nothing. -/
def step (f : Follower) : FollowMove → Follower
  -- these come from the lines of a connection
  | .streams (.handles ..) | .streams (.idles _) => f
  | .streams (.opens reader) =>
      if f.stage reader = .connecting then
        (f.connect reader
          ⟨(after (journal (f.stream reader)) (f.sent reader)).flatMap Entry.wire, .fresh⟩).move
          (.opens reader)
      else f
  | .streams (.begins reader known) => f.loop reader (.begins reader known)
  | .streams (.wakes reader known) => f.loop reader (.wakes reader known)
  | .streams move => f.move move
  | .reads reader =>
      if f.stage reader = .reading then
        match (f.connections reader).rest with
        | [] => f
        | raw :: rest =>
            match (f.connections reader).pending.read raw with
            | .fault => f.move (.breaks reader)
            | .blank => f.dispatch str loads reader (f.connections reader).pending rest
            | .more pending => (f.connect reader ⟨rest, pending⟩).move (.idles reader)
      else f
  | .cuts reader taken =>
      if f.stage reader = .reading then
        let raw := ((f.connections reader).rest.headD []).take taken
        if raw = [] then f.finish str loads reader (f.connections reader).pending
        else
          match (f.connections reader).pending.read raw with
          | .fault => f.move (.breaks reader)
          | .blank => f.finish str loads reader (f.connections reader).pending
          | .more pending => f.finish str loads reader pending
      else f

/-- A bridge that followed nothing yet. -/
def start : Follower := ⟨.quiet, fun _ => [], fun _ => ⟨[], .fresh⟩, []⟩

/-- The events that were handled for a stream. -/
def handledOf (f : Follower) (stream : Text) : List SseEvent :=
  (f.handled.filter fun event => event.1 = stream).map Prod.snd

end Follower

end

end Hermes

end CybexOS
