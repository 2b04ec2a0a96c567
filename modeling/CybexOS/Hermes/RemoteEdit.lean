/-
Edits of a remote conversation (`hermes_bridge.py`): editing a message and
branching, as sequences of requests to Hermes WebUI.
-/
import CybexOS.Dict
import CybexOS.Displays.PyValidate
import CybexOS.Firsts
import CybexOS.Programs
import CybexOS.Utf8

namespace CybexOS

namespace Hermes

namespace RemoteEdit

open Displays.Py (strip)
open Program (effect look fail)

/-! ### The server -/

/-- A session of the server; `branch` marks those made by a branch. -/
structure Session where
  title : Text
  messages : List Text
  branch : Bool
deriving DecidableEq

/-- The session list, by id. -/
abbrev Sessions := List (Text × Session)

inductive Request where
  | status (id : Text)
  | create
  | branch (id : Text) (keep : Option ℕ) (title : Option Text)
  | duplicate (id : Text)
  | truncate (id : Text) (keep : ℕ)
  | rename (id title : Text)
  | delete (id : Text)
  | read (id : Text)
  | upload (id path : Text)
  | start (id message : Text) (attachments : List Text)
deriving DecidableEq

def Sessions.update (sessions : Sessions) (id : Text) (change : Session → Session) : Sessions :=
  sessions.map fun item => if item.1 = id then (item.1, change item.2) else item

/-- The session of an id as a branch of it starts. -/
def Sessions.copy (sessions : Sessions) (id : Text) : Session :=
  { (sessions.lookup id).getD ⟨[], [], false⟩ with branch := true }

section

variable (newId : Sessions → Text)

/-- What an accepted request does. -/
def Request.exec (sessions : Sessions) : Request → Sessions
  | .status _ => sessions
  | .create => Dict.set sessions (newId sessions) ⟨[], [], false⟩
  | .branch id keep title =>
      let copy := sessions.copy id
      Dict.set sessions (newId sessions) { copy with
        messages := keep.elim copy.messages copy.messages.take
        title := title.getD copy.title }
  | .duplicate id => Dict.set sessions (newId sessions) (sessions.copy id)
  | .truncate id keep =>
      sessions.update id fun session => { session with messages := session.messages.take keep }
  | .rename id title => sessions.update id fun session => { session with title := title }
  | .delete id => Dict.pop sessions id
  | .read _ => sessions
  | .upload _ _ => sessions
  | .start id message _ =>
      sessions.update id fun session => { session with messages := session.messages ++ [message] }

/-- The id that an accepted request answers with. -/
def Request.answer (sessions : Sessions) : Request → Text
  | .create => newId sessions
  | .branch _ _ _ => newId sessions
  | .duplicate _ => newId sessions
  | _ => []

end

/-! ### The bridge -/

/-- An `RpcFault`: a request that the server rejected, or one of the bridge's
own. -/
inductive Fault where
  | rejected (status : ℕ)
  | refused (code : ℤ) (message : Text)
deriving DecidableEq

structure Contract where
  nativeBranches : Bool
  duplicateSessions : Bool
  messageEditing : Bool
  attachments : Bool
  branches : Bool
deriving DecidableEq

/-- `session` is `remote_session_id` if it is of this origin; `mapped` tells
whether it is known to be the conversation's. -/
structure Conversation where
  session : Text
  mapped : Bool
  hasMessages : Bool
  title : Text
deriving DecidableEq

structure World where
  sessions : Sessions
  contract : Contract
  conversation : Conversation
deriving DecidableEq

abbrev Bridge (α : Type) := Program World Fault α

/-- Everything the outcome depends on: whether the bridge is signed in, which
requests the server rejects and with what status, the ids that it gives, and
the names of files, or why they cannot be read. -/
structure Host where
  connected : Bool
  rejects : Request → Option ℕ
  newId : Sessions → Text
  localAttachment : Text → Except Text Text

/-- `CONVERSATION_ID_PATTERN` -/
def isConversationId : Text → Bool
  | [] => false
  | c :: rest => isAlnum c && rest.length ≤ 255 &&
      rest.all fun d => isAlnum d || d ∈ ascii "_.:-"

/-- The answers of a server that does not know a route. -/
def unsupported (status : ℕ) : Bool := status ∈ [404, 405, 410, 501]

variable (host : Host)

def remoteRequest (request : Request) : Bridge Text :=
  match host.rejects request with
  | some status => fail (.rejected status)
  | none => do
      let answer ← look fun w => request.answer host.newId w.sessions
      effect fun w => { w with sessions := request.exec host.newId w.sessions }
      pure answer

def updateContract (change : Contract → Contract) : Bridge Unit :=
  effect fun w => { w with contract := change w.contract }

/-- `downgrade_remote_action` -/
def downgrade (change : Contract → Contract) (fault : Fault) : Bridge Unit :=
  match fault with
  | .rejected status => if unsupported status then updateContract change else pure ()
  | .refused _ _ => pure ()

/-- The session that the server still knows, or none. -/
def knownSession (conversation : Conversation) : Bridge Text :=
  if conversation.session = [] then pure []
  else (do
    let _ ← remoteRequest host (.status conversation.session)
    pure conversation.session : Bridge Text).catching fun fault =>
      if fault = .rejected 404 ∧ conversation.hasMessages = false then pure [] else fail fault

def createRemoteSession : Bridge Text := do
  let id ← remoteRequest host .create
  if id = [] then fail (.refused (-32045) (ascii "Remote Hermes returned no session id"))
  else pure id

def ensureRemoteSession : Bridge Text := do
  if host.connected = false then
    fail (.refused (-32040) (ascii "Remote Hermes authentication is required"))
  else do
    let conversation ← look World.conversation
    if conversation.session ≠ [] ∧ conversation.mapped = true then pure conversation.session
    else do
      let known ← knownSession host conversation
      let id ← if known = [] then createRemoteSession host else pure known
      effect fun w => { w with conversation := { w.conversation with session := id, mapped := true } }
      pure id

/-! ### A prompt -/

def MAX_DOWNSTREAM_MESSAGE : ℕ := 2 * 1024 * 1024

def MAX_REMOTE_ATTACHMENTS : ℕ := 20

/-- The paths that are uploaded: texts, each one once. -/
def uploadPaths (attachments : List (Option Text)) : List Text :=
  unseen id [] ((attachments.map (·.getD [])).filter (· ≠ []))

def uploadAttachment (id path : Text) : Bridge Text := do
  let filename ← Program.ofExcept
    ((host.localAttachment path).mapError (Fault.refused (-32602)))
  let _ ← (remoteRequest host (.upload id path)).catching fun fault => do
    downgrade (fun contract => { contract with attachments := false }) fault
    fail fault
  pure filename

/-- `remote_upload_attachments` -/
def uploadAttachments (id : Text) (attachments : List (Option Text)) : Bridge (List Text) := do
  if MAX_REMOTE_ATTACHMENTS < attachments.length then
    fail (.refused (-32602) (ascii "A prompt can contain at most 20 attachments"))
  else do
    let names ← (uploadPaths attachments).mapM (uploadAttachment host id)
    if names = [] then pure names
    else do
      updateContract fun contract => { contract with attachments := true }
      pure names

def joinNames (names : List Text) : Text := (names.intersperse (ascii ", ")).flatten

def agentText (text : Text) (names : List Text) : Text :=
  if names = [] then strip text
  else if strip text = [] then
    ascii "I've attached " ++ digitsOf names.length ++ ascii " file(s): " ++ joinNames names
  else strip text ++ [10, 10] ++ ascii "[Attached files: " ++ joinNames names ++ ascii "]"

def promptSubmit (text : Text) (attachments : List (Option Text)) : Bridge Unit := do
  let id ← ensureRemoteSession host
  let names ← if attachments = [] then pure [] else uploadAttachments host id attachments
  let _ ← remoteRequest host (.start id (agentText text names) names)
  effect fun w => { w with conversation := { w.conversation with hasMessages := true } }

/-! ### Editing -/

/-- `text` is none unless it is a string, `source` unless `int` reads it. -/
structure EditParams where
  text : Option Text
  source : Option ℤ
  attachments : List (Option Text)

def EditParams.checkText (params : EditParams) : Except Fault Text :=
  match params.text with
  | none => .error (.refused (-32602) (ascii "Edited message text is required"))
  | some text =>
      if strip text = [] then
        .error (.refused (-32602) (ascii "Edited message text is required"))
      else if MAX_DOWNSTREAM_MESSAGE < ((Utf8.encode text).getD []).length then
        .error (.refused (-32602) (ascii "Edited message is too large"))
      else .ok text

def EditParams.checkSource (params : EditParams) : Except Fault ℕ :=
  match params.source with
  | none => .error (.refused (-32602) (ascii "Message source index is required"))
  | some source =>
      if source < 0 then .error (.refused (-32602) (ascii "Message source index is invalid"))
      else .ok source.toNat

/-- `remote_edit_message` -/
def editMessage (params : EditParams) : Bridge Unit := do
  let text ← Program.ofExcept params.checkText
  let keep ← Program.ofExcept params.checkSource
  let id ← ensureRemoteSession host
  let _ ← (remoteRequest host (.truncate id keep)).catching fun fault => do
    downgrade (fun contract => { contract with messageEditing := false }) fault
    fail fault
  updateContract fun contract => { contract with messageEditing := true }
  promptSubmit host text params.attachments

/-! ### Branching -/

/-- `keep` is none if it is not given, and inside none if `int` does not read
it; `title` is none unless it is a string. -/
structure BranchParams where
  keep : Option (Option ℤ)
  title : Option Text

def BranchParams.check (params : BranchParams) : Except Fault (Option ℕ) :=
  match params.keep with
  | none => .ok none
  | some none => .error (.refused (-32602) (ascii "keepCount must be an integer"))
  | some (some keep) =>
      if keep < 0 then .error (.refused (-32602) (ascii "keepCount must be non-negative"))
      else .ok (some keep.toNat)

def BranchParams.bodyTitle (params : BranchParams) : Option Text :=
  (params.title.filter fun title => strip title ≠ []).map fun title => (strip title).take 80

def branchTitle (title : Option Text) (conversation : Conversation) : Text :=
  (title.getD ((if conversation.title = [] then ascii "Untitled chat" else conversation.title) ++
    ascii " (fork)")).take 80

def invalidBranch : Fault := .refused (-32045) (ascii "Remote Hermes returned an invalid branch")

/-- Branch by the server's own request, if it has one. -/
def nativeBranch (id : Text) (keep : Option ℕ) (title : Option Text) : Bridge (Option Text) := do
  let contract ← look World.contract
  if contract.nativeBranches = false then pure none
  else
    (do
      let branch ← remoteRequest host (.branch id keep title)
      pure (some branch) : Bridge (Option Text)).catching fun fault =>
        match fault with
        | .rejected status =>
            if unsupported status then do
              updateContract fun contract => { contract with nativeBranches := false }
              pure none
            else fail fault
        | .refused _ _ => fail fault

/-- What is done to a duplicate, and undone when the server rejects it. -/
def shapeDuplicate (branch : Text) (keep : Option ℕ) (title : Text) : Bridge Unit :=
  (do
    match keep with
    | some keep => do
        let _ ← remoteRequest host (.truncate branch keep)
        pure ()
    | none => pure ()
    let _ ← remoteRequest host (.rename branch title)
    pure () : Bridge Unit).catching fun fault => do
      (do
        let _ ← remoteRequest host (.delete branch)
        pure () : Bridge Unit).catching fun _ => pure ()
      fail fault

/-- Branch by duplicating the session and cutting the duplicate. -/
def duplicateBranch (id : Text) (keep : Option ℕ) (title : Option Text) : Bridge Text := do
  let contract ← look World.contract
  if contract.duplicateSessions = false ∨ contract.messageEditing = false then do
    updateContract fun contract => { contract with branches := false }
    fail (.refused (-32601) (ascii "This Hermes WebUI does not support branches"))
  else do
    let branch ← (remoteRequest host (.duplicate id)).catching fun fault => do
      downgrade (fun contract => { contract with duplicateSessions := false, branches := false })
        fault
      fail fault
    if isConversationId branch = false then fail invalidBranch
    else do
      let conversation ← look World.conversation
      shapeDuplicate host branch keep (branchTitle title conversation)
      pure branch

/-- The branch that the server made, or one of a duplicate. -/
def orDuplicate (id : Text) (keep : Option ℕ) (title native : Option Text) : Bridge Text :=
  match native with
  | some branch => pure branch
  | none => duplicateBranch host id keep title

/-- `remote_branch_conversation` -/
def branchConversation (params : BranchParams) : Bridge Text := do
  let id ← ensureRemoteSession host
  let keep ← Program.ofExcept params.check
  let native ← nativeBranch host id keep params.bodyTitle
  let branch ← orDuplicate host id keep params.bodyTitle native
  if isConversationId branch = false then fail invalidBranch
  else do
    let _ ← remoteRequest host (.read branch)
    updateContract fun contract => { contract with branches := true }
    pure branch

/-! ### All or nothing -/

/-- The sessions that there were hold their messages, and no branch is new. -/
structure Unharmed (before after : Sessions) : Prop where
  messages : ∀ id session, before.lookup id = some session →
    (after.lookup id).map Session.messages = some session.messages
  branches : ∀ id session, after.lookup id = some session → session.branch = true →
    id ∈ Dict.keys before

/-- A rejection leaves the server unharmed. -/
def Whole {α : Type} (program : Bridge α) (w : World) : Prop :=
  ∀ status, program.result w = .error (.rejected status) →
    Unharmed w.sessions (program.last w).sessions

end RemoteEdit

end Hermes

end CybexOS
