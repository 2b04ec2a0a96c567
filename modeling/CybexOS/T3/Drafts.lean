/-
Drafts and the prompts sent from them (`T3Drafts.qml`): the slot of the thread
being created, the message each thread waits for, and what confirms them.
-/
import CybexOS.JsString
import CybexOS.T3.Batches

namespace CybexOS

namespace T3

namespace Drafts

open Json (JsValue)

/-! ### State -/

structure NewThreadDraft where
  projectId : Text
  prompt : Text
deriving DecidableEq

structure PendingMessage where
  messageId : Text
  prompt : Text
  clearDraft : Bool
deriving DecidableEq

/-- A creation command that has been sent, with its batch. -/
structure Creation where
  threadId : Text
  text : Text
  batch : Nat

/-- A prompt given to `dispatchBatch`: the batch is `none` when it was refused,
and the turn is the command `last`. -/
structure Message where
  threadId : Text
  messageId : Text
  text : Text
  clearDraft : Bool
  batch : Option Nat
  last : Nat

/-- The drafts, with what has been sent from them and reported so far. -/
structure State where
  rpc : Rpc
  /-- The ids of `threadMap`. -/
  threads : List Text
  /-- The prompt of each thread's draft. -/
  threadDrafts : List (Text × Text)
  newThreadDraft : NewThreadDraft
  pendingDraftMessages : List (Text × PendingMessage)
  pendingNewThreadId : Text
  pendingNewThreadActionKey : Text
  /-- The `newThreadConfirmed` signals. -/
  confirmed : List Text
  creations : List Creation
  messages : List Message
  reportedThreads : List Text
  reportedMessages : List (Text × Text)

def State.initial : State where
  rpc := Rpc.initial
  threads := []
  threadDrafts := []
  newThreadDraft := ⟨[], []⟩
  pendingDraftMessages := []
  pendingNewThreadId := []
  pendingNewThreadActionKey := []
  confirmed := []
  creations := []
  messages := []
  reportedThreads := []
  reportedMessages := []

def MAX_PROMPT_CHARS : Nat := 120000

def newKey : Text := ascii "new||"

def promptKey (threadId : Text) : Text := ascii "prompt|" ++ threadId ++ ascii "|"

/-! ### Thread drafts -/

/-- The prompt of `threadDraft`. -/
def State.threadPrompt (s : State) (threadId : Text) : Text :=
  (s.threadDrafts.lookup threadId).getD []

/-- `updateThreadDraft` of the prompt. -/
def State.setThreadPrompt (s : State) (threadId prompt : Text) : State :=
  if (s.threadDrafts.lookup threadId).isSome ∨ threadId ∈ s.threads then
    { s with threadDrafts := Dict.set s.threadDrafts threadId prompt }
  else s

def State.confirmDraftMessage (s : State) (threadId messageId : Text) : State :=
  match s.pendingDraftMessages.lookup threadId with
  | none => s
  | some pending =>
      if pending.messageId ≠ messageId then s
      else
        let s :=
          if pending.clearDraft ∧ s.threadPrompt threadId = pending.prompt then
            s.setThreadPrompt threadId []
          else s
        { s with pendingDraftMessages := Dict.pop s.pendingDraftMessages threadId }

/-! ### Submissions -/

def State.rejectAction (s : State) (key message : Text) (now : ℤ) : State :=
  { s with rpc := s.rpc.rejectAction key message false now }

/-- The first check of `submitExisting` that fails; `more` is what the checks of
the thread's state and of the selection say. -/
def existingRefusal (known : Bool) (text : Text) (more : Option Text) : Option Text :=
  if !known || jsTrim text = [] then some (ascii "Write a message first")
  else if MAX_PROMPT_CHARS < text.length then
    some (ascii "Prompt exceeds T3 Code's 120,000 character limit")
  else more

/-- The same for `submitNewThread`, with the checks of provider and project first. -/
def newThreadRefusal (before : Option Text) (text : Text) (more : Option Text) : Option Text :=
  if before.isSome then before
  else if jsTrim text = [] then some (ascii "Write the first prompt")
  else if MAX_PROMPT_CHARS < text.length then
    some (ascii "Prompt exceeds T3 Code's 120,000 character limit")
  else more

section

variable (genId : Nat → Text)

/-- The settings that a turn brings along, and the turn. -/
def existingTurnCommands (generated : Nat) (settings : List JsValue) (turn : JsValue) :
    List Command :=
  (settings ++ [turn]).mapIdx fun index body => ⟨some (genId (generated + index)), body⟩

/-- `submitExisting`, once its checks have passed. -/
def State.sendExisting (s : State) (threadId text : Text) (clearDraft : Bool)
    (settings : List JsValue) (turn : JsValue) (times : Times) : State :=
  let messageId := genId s.rpc.generated
  let commands := existingTurnCommands genId (s.rpc.generated + 1) settings turn
  let rpc : Rpc := { s.rpc with generated := s.rpc.generated + 1 + commands.length }
  { s with
    rpc := (rpc.dispatchBatch genId commands (promptKey threadId) {} times).1
    pendingDraftMessages :=
      Dict.set s.pendingDraftMessages threadId ⟨messageId, text, clearDraft⟩
    messages := s.messages ++ [⟨threadId, messageId, text, clearDraft,
      if rpc.accepts commands (promptKey threadId) then some rpc.batches.length else none,
      settings.length⟩] }

def State.existingText (s : State) (threadId : Text) (overrideText : Option Text) : Text :=
  overrideText.getD (s.threadPrompt threadId)

def State.submitExisting (s : State) (threadId : Text) (overrideText : Option Text)
    (clearDraft : Bool) (more : Option Text) (settings : List JsValue) (turn : JsValue)
    (times : Times) : State :=
  let text := s.existingText threadId overrideText
  match existingRefusal (threadId ∈ s.threads) text more with
  | some message => s.rejectAction (promptKey threadId) message times.startedAt
  | none => s.sendExisting genId threadId text clearDraft settings turn times

/-- `submitNewThread`, once its checks have passed. -/
def State.sendNewThread (s : State) (body : JsValue) (times : Times) : State :=
  let threadId := genId s.rpc.generated
  let commands : List Command := [⟨some (genId (s.rpc.generated + 2)), body⟩]
  let rpc : Rpc := { s.rpc with generated := s.rpc.generated + 3 }
  let dispatched := rpc.dispatchBatch genId commands newKey { holdAfterSuccess := true } times
  { s with
    rpc := dispatched.1
    pendingNewThreadId := if dispatched.2 = [] then [] else threadId
    pendingNewThreadActionKey := if dispatched.2 = [] then [] else newKey
    creations :=
      if rpc.accepts commands newKey then
        s.creations ++ [⟨threadId, s.newThreadDraft.prompt, rpc.batches.length⟩]
      else s.creations }

def State.submitNewThread (s : State) (before more : Option Text) (body : JsValue)
    (times : Times) : State :=
  match newThreadRefusal before s.newThreadDraft.prompt more with
  | some message => s.rejectAction newKey message times.startedAt
  | none => s.sendNewThread genId body times

/-! ### Answers -/

/-- The `onSuccess` of a creation: the action goes on waiting for the shell. -/
def awaitShell (r : Rpc) (handler : Handler) (now : ℤ) : Rpc :=
  match (r.actionStates.lookup newKey).filter (·.pending) with
  | some current =>
      if handler.actionKey = newKey then r.putActionState newKey { current with startedAt := now }
      else r
  | none => r

/-- What the RPC layer does by itself. -/
def State.rpcEvent (s : State) (event : T3.Event) : State :=
  match event with
  | .answer id true message times =>
      let answered := s.rpc.answer genId id true message times
      match s.rpc.rpcHandlers.lookup id with
      | some handler => { s with rpc := awaitShell answered handler times.requestedAt }
      | none => s
  -- a new link subscribes afresh
  | .opened _ => { s with rpc := s.rpc.step genId event, threads := [] }
  | _ => { s with rpc := s.rpc.step genId event }

end

/-! ### The shell's reports -/

def State.reconcileNewThreadCreation (s : State) (candidateId : Option Text) : State :=
  if s.pendingNewThreadId = [] then s
  else if candidateId.any (· ≠ s.pendingNewThreadId) then s
  else if s.pendingNewThreadId ∉ s.threads then s
  else
    { s with
      rpc := if s.pendingNewThreadActionKey = [] then s.rpc
        else s.rpc.clearAction s.pendingNewThreadActionKey
      pendingNewThreadId := []
      pendingNewThreadActionKey := []
      newThreadDraft := ⟨[], []⟩
      confirmed := s.confirmed ++ [s.pendingNewThreadId] }

inductive ShellItem where
  | snapshot (threads : List Text)
  | threadUpserted (threadId : Text)
  | threadRemoved (threadId : Text)

def ShellItem.apply (threads : List Text) : ShellItem → List Text
  | .snapshot ids => ids
  | .threadUpserted threadId => threadId :: threads.filter (· ≠ threadId)
  | .threadRemoved threadId => threads.filter (· ≠ threadId)

/-- The threads that an item names. -/
def ShellItem.names : ShellItem → List Text
  | .snapshot ids => ids
  | .threadUpserted threadId => [threadId]
  | .threadRemoved _ => []

/-- The signal that follows an item, once the maps are settled. -/
def State.relay (s : State) : ShellItem → State
  | .snapshot _ => s.reconcileNewThreadCreation none
  | .threadUpserted threadId => s.reconcileNewThreadCreation (some threadId)
  | .threadRemoved _ => s

/-- `applyItems` -/
def State.applyItems (s : State) (items : List ShellItem) : State :=
  items.foldl State.relay { s with
    threads := items.foldl ShellItem.apply s.threads
    reportedThreads := s.reportedThreads ++
      (items.flatMap ShellItem.names).filter fun threadId =>
        threadId ∈ s.creations.map Creation.threadId }

/-! ### Events -/

inductive Event where
  | rpc (event : T3.Event)
  | setThreadPrompt (threadId prompt : Text)
  | editNewThread (draft : NewThreadDraft)
  | submitExisting (threadId : Text) (overrideText : Option Text) (clearDraft : Bool)
      (more : Option Text) (settings : List JsValue) (turn : JsValue) (times : Times)
  | submitNewThread (before more : Option Text) (body : JsValue) (times : Times)
  | shellItems (items : List ShellItem)
  | messageReported (threadId messageId : Text)

def State.step (genId : Nat → Text) (s : State) : Event → State
  | .rpc event => s.rpcEvent genId event
  | .setThreadPrompt threadId prompt => s.setThreadPrompt threadId prompt
  | .editNewThread draft => { s with newThreadDraft := draft }
  | .submitExisting threadId overrideText clearDraft more settings turn times =>
      s.submitExisting genId threadId overrideText clearDraft more settings turn times
  | .submitNewThread before more body times => s.submitNewThread genId before more body times
  | .shellItems items => s.applyItems items
  | .messageReported threadId messageId =>
      { s.confirmDraftMessage threadId messageId with
        reportedMessages := s.reportedMessages ++ [(threadId, messageId)] }

end Drafts

end T3

end CybexOS
