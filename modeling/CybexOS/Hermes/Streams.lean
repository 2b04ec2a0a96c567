/-
The response streams of one remote conversation of the Hermes bridge
(`hermes_bridge.py`): which reader follows which run, and what is broadcast
for a run while starts, stops and readers interleave.
-/
import CybexOS.Text
import CybexOS.Runs
import Mathlib.Logic.Function.Basic

namespace CybexOS

namespace Hermes

/-- `MAX_REMOTE_STREAM_EVENT` -/
def maxRemoteStreamEvent : Nat := 4 * 1024 * 1024

inductive Status where
  | working
  | reconnecting
  | waiting
  | idle
  | done
  | error
deriving DecidableEq

/-- What the bridge says of a run: its messages, the status it asks for the
conversation, and the activity that its other events report. -/
inductive Frame where
  | delta (stream chunk : Text)
  | complete (stream text : Text)
  | status (stream : Text) (status : Status)
  | info (stream : Text) (working : Bool)
deriving DecidableEq

/-- An event of the run's journal, by the names that `_handle_remote_sse_event`
accepts for it; `snapshot` tells that `done` or `cancel` carries the session. -/
inductive StreamEvent where
  | token (chunk : Text)
  | interimAssistant (alreadyStreamed : Bool) (chunk : Text)
  | reasoning
  | tool
  | toolComplete
  | approval
  | clarify
  | compressing
  | compressed
  | done (snapshot : Bool)
  | cancel (snapshot : Bool)
  | error
  | streamEnd
  | metadata
  | other
deriving DecidableEq

/-- What made a reader complete its run. -/
inductive Ending where
  | done
  | cancel
  | streamEnd
  | inactive
deriving DecidableEq

/-- Where `_remote_stream_loop` stands. -/
inductive Stage where
  | created
  | connecting
  | reading
  | settling (ending : Ending)
  | closing (terminal : Bool)
  | asking
  | sleeping
  | cancelled
  | ended
deriving DecidableEq

structure Reader where
  stream : Text
  stage : Stage
deriving DecidableEq

/-- A call of `start_remote_stream` or `stop_remote_stream` that waits for the
reader it stopped; `status` is what `session.status` sets afterwards. -/
structure Start where
  next : Option Text
  stopped : Option Nat
  status : Option Status
deriving DecidableEq

/-- The answer to the stream status request of a reader. -/
inductive StreamStatus where
  | signIn
  | inactive
  | reattach
  | gaveUp
deriving DecidableEq

/-- The streams of one conversation; `cursor` is the id of the last event, from
`remote_stream_event_ids`. `away` tells that the conversation is
unread or not selected. -/
structure Streams where
  current : Option Text
  task : Option Nat
  completed : Option Text
  text : Text
  cursor : Text
  readers : Nat → Reader
  made : Nat
  starts : List Start
  away : Bool
  log : List Frame

/-- What happens to the streams, in any order. -/
inductive StreamMove where
  | names (stream : Text)
  | attaches (stream : Text)
  | asks (stream : Text)
  | interrupts (stream : Text)
  | stops
  | startEnds (index : Nat)
  | looks (away : Bool)
  | begins (reader : Nat) (known : Bool)
  | opens (reader : Nat)
  | refused (reader : Nat)
  | unopened (reader : Nat)
  | handles (reader : Nat) (event : StreamEvent)
  | idles (reader : Nat)
  | breaks (reader : Nat)
  | closed (reader : Nat)
  | answers (reader : Nat) (answer : StreamStatus)
  | settles (reader : Nat)
  | wakes (reader : Nat) (known : Bool)
  | unwinds (reader : Nat)
deriving DecidableEq

namespace Streams

def stream (b : Streams) (reader : Nat) : Text := (b.readers reader).stream

def stage (b : Streams) (reader : Nat) : Stage := (b.readers reader).stage

/-- `broadcast_event` and `set_conversation_status`, which never wait. -/
def say (b : Streams) (frame : Frame) : Streams := { b with log := b.log ++ [frame] }

def turn (b : Streams) (reader : Nat) (stage : Stage) : Streams :=
  { b with readers := Function.update b.readers reader ⟨b.stream reader, stage⟩ }

/-- The `finally` of `_remote_stream_loop`. -/
def leave (b : Streams) (reader : Nat) : Streams :=
  let ended := { b.turn reader .ended with task := if b.task = some reader then none else b.task }
  if b.current = some (b.stream reader) then
    { ended with current := none, cursor := [], text := [], completed := none }
  else ended

/-- The condition of the reader's outer loop. -/
def loop (b : Streams) (reader : Nat) (known : Bool) : Streams :=
  if b.current = some (b.stream reader) ∧ known then b.turn reader .connecting else b.leave reader

/-- The condition of the loop of `_consume_remote_sse`. -/
def readOn (b : Streams) (reader : Nat) : Streams :=
  b.turn reader (if b.current = some (b.stream reader) then .reading else .closing false)

/-- `_append_remote_stream_text`, and the delta it is broadcast with. -/
def append (b : Streams) (reader : Nat) (chunk : Text) : Streams :=
  if chunk = [] then b
  else
    { b with text := b.text ++ chunk.take (maxRemoteStreamEvent - b.text.length) }.say
      (.delta (b.stream reader) chunk)

def settledStatus (b : Streams) : Status := if b.away then .done else .idle

/-- `_complete_remote_stream`, once it has the session, and its caller after it. -/
def settle (b : Streams) (reader : Nat) : Ending → Streams
  | .done =>
      ({ b.say (.status (b.stream reader) b.settledStatus) with
        completed := some (b.stream reader) }).readOn reader
  | .cancel => (b.say (.status (b.stream reader) .idle)).turn reader (.closing true)
  | .streamEnd => (b.say (.status (b.stream reader) b.settledStatus)).turn reader (.closing true)
  | .inactive => (b.say (.status (b.stream reader) b.settledStatus)).leave reader

/-- `_complete_remote_stream`; without a snapshot it waits for the session. -/
def complete (b : Streams) (reader : Nat) (ending : Ending) (snapshot : Bool) : Streams :=
  let told := b.say (.complete (b.stream reader) b.text)
  if snapshot then told.settle reader ending else told.turn reader (.settling ending)

/-- `_handle_remote_sse_event`, and what the loops do after it. -/
def handle (b : Streams) (reader : Nat) : StreamEvent → Streams
  | .token chunk => (b.append reader chunk).readOn reader
  | .interimAssistant alreadyStreamed chunk =>
      (if alreadyStreamed then b else b.append reader chunk).readOn reader
  | .reasoning => (b.say (.info (b.stream reader) true)).readOn reader
  | .tool | .toolComplete => (b.say (.status (b.stream reader) .working)).readOn reader
  | .approval | .clarify => (b.say (.status (b.stream reader) .waiting)).readOn reader
  | .compressing | .compressed =>
      ((b.say (.status (b.stream reader) .working)).say (.info (b.stream reader) true)).readOn reader
  -- `done` does not end the journal
  | .done snapshot =>
      if b.completed = some (b.stream reader) then b.readOn reader
      else b.complete reader .done snapshot
  | .cancel snapshot => b.complete reader .cancel snapshot
  | .error =>
      ((b.say (.complete (b.stream reader) b.text)).say
        (.status (b.stream reader) .error)).turn reader (.closing true)
  | .streamEnd =>
      if b.completed = some (b.stream reader) then b.turn reader (.closing true)
      else b.complete reader .streamEnd false
  | .metadata => (b.say (.info (b.stream reader) false)).readOn reader
  | .other =>
      (b.say (.info (b.stream reader)
        (decide (b.completed ≠ some (b.stream reader))))).readOn reader

/-- The reader acts on the answer to its stream status request. -/
def answer (b : Streams) (reader : Nat) : StreamStatus → Streams
  | .signIn => (b.say (.status (b.stream reader) .error)).leave reader
  | .inactive =>
      if b.completed = some (b.stream reader) then b.leave reader
      else b.complete reader .inactive false
  | .reattach =>
      (if b.completed = some (b.stream reader) then b
        else b.say (.status (b.stream reader) .reconnecting)).turn reader .sleeping
  | .gaveUp => (b.say (.status (b.stream reader) .error)).leave reader

/-- The task of the conversation is not done. -/
def Busy (b : Streams) : Prop := ∃ reader ∈ b.task, b.stage reader ≠ .ended

instance (b : Streams) : Decidable b.Busy :=
  inferInstanceAs (Decidable (∃ reader ∈ b.task, _))

/-- `task.cancel()`; a task that never ran has no `finally` to run. -/
def cancel : Stage → Stage
  | .created | .ended => .ended
  | _ => .cancelled

/-- `stop_remote_stream`, up to where it waits. -/
def halt (b : Streams) : Streams :=
  let popped := { b with task := none, current := none }
  match b.task with
  | some reader => popped.turn reader (cancel (b.stage reader))
  | none => popped

/-- `start_remote_stream`, once nothing is left to stop. -/
def start (b : Streams) (stream : Text) : Streams :=
  { b with
    current := some stream, cursor := [], text := [], completed := none,
    readers := Function.update b.readers b.made ⟨stream, .created⟩,
    made := b.made + 1, task := some b.made }

def mark (b : Streams) (stream : Text) : Option Status → Streams
  | some status => b.say (.status stream status)
  | none => b

/-- `start_remote_stream`, and the status that `session.status` sets after it. -/
def attach (b : Streams) (stream : Text) (status : Option Status) : Streams :=
  if b.current = some stream ∧ b.Busy then b.mark stream status
  else if b.task = none ∧ b.current = none then (b.start stream).mark stream status
  else { b.halt with starts := b.starts ++ [⟨some stream, b.task, status⟩] }

/-- The end of `stop_remote_stream`. -/
def forget (b : Streams) : Streams :=
  if b.current = none then { b with cursor := [], text := [], completed := none } else b

/-- What a call does once the reader it stopped has ended. -/
def resume (b : Streams) (call : Start) : Streams :=
  match call.next with
  | some stream => (b.forget.start stream).mark stream call.status
  | none => b.forget

/-- One move; a move that cannot happen changes nothing. -/
def step (b : Streams) : StreamMove → Streams
  -- a list row, a conflicting prompt or an observed turn names the stream
  | .names stream => b.say (.status stream .working)
  | .attaches stream => b.attach stream none
  -- `turn_complete` is computed before the reader is attached
  | .asks stream =>
      b.attach stream (some (if b.completed = some stream then .idle else .working))
  | .interrupts stream => b.say (.status stream .idle)
  | .stops => { b.halt with starts := b.starts ++ [⟨none, b.task, none⟩] }
  | .startEnds index =>
      match b.starts[index]? with
      | some call =>
          if ∀ reader ∈ call.stopped, b.stage reader = .ended then
            { b with starts := b.starts.eraseIdx index }.resume call
          else b
      | none => b
  | .looks away => { b with away := away }
  | .begins reader known => if b.stage reader = .created then b.loop reader known else b
  | .opens reader =>
      if b.stage reader = .connecting then
        b.turn reader (if b.current = some (b.stream reader) then .reading else .closing true)
      else b
  | .refused reader =>
      if b.stage reader = .connecting then
        (b.say (.status (b.stream reader) .error)).leave reader
      else b
  | .unopened reader =>
      if b.stage reader = .connecting then
        if b.current = some (b.stream reader) then b.turn reader .asking else b.leave reader
      else b
  | .handles reader event => if b.stage reader = .reading then b.handle reader event else b
  | .idles reader => if b.stage reader = .reading then b.readOn reader else b
  | .breaks reader => if b.stage reader = .reading then b.turn reader (.closing false) else b
  | .closed reader =>
      match b.stage reader with
      | .closing terminal =>
          if terminal ∨ b.current ≠ some (b.stream reader) then b.leave reader
          else b.turn reader .asking
      | _ => b
  | .answers reader answer => if b.stage reader = .asking then b.answer reader answer else b
  | .settles reader =>
      match b.stage reader with
      | .settling ending => b.settle reader ending
      | _ => b
  | .wakes reader known => if b.stage reader = .sleeping then b.loop reader known else b
  | .unwinds reader => if b.stage reader = .cancelled then b.leave reader else b

/-- A conversation that follows no stream. -/
def quiet : Streams := ⟨none, none, none, [], [], fun _ => ⟨[], .ended⟩, 0, [], false, []⟩

end Streams

end Hermes

end CybexOS
