/-
The Notes singleton (`Notes.qml`): its edits, its title requests and how it
saves, as what each event makes of its state.
-/
import CybexOS.Dict
import CybexOS.Notes.Store

namespace CybexOS

namespace Notes

open Json (JsValue jsonParse)

/-! ### State -/

/-- The settings that title requests use. -/
structure Options where
  titleProvider : Text
  codexModel : Text
  claudeModel : Text
  codexEffort : Text
  claudeEffort : Text
deriving DecidableEq

structure Request where
  id : Text
  title : Text
  body : Text
  provider : Text
  model : Text
  effort : Text
  token : Nat
deriving DecidableEq

structure TitleState where
  pending : Bool
  error : Text
  request : Option Request
deriving DecidableEq

inductive ErrorKind where
  | none
  | load
  | save
deriving DecidableEq

/-- A call of `setText`: its text, what the view held and whether it was
writing. -/
structure SetText where
  text : Text
  held : Text
  busy : Bool
deriving DecidableEq

/-- The view of the notes file.  `text` is what it last read or tried to write
and `stored` what the file holds, if it is there. -/
structure FileView where
  text : Text
  writing : Option Text
  stored : Option Text
  loading : Bool
  calls : List SetText
deriving DecidableEq

/-- A match with what the view holds is skipped without any event. -/
def FileView.setText (view : FileView) (text : Text) (throws : Bool) : FileView :=
  { view with
    text := text
    writing := if throws ∨ text = view.text then view.writing else some text
    calls := view.calls ++ [⟨text, view.text, view.writing.isSome⟩] }

structure Session where
  records : List Record
  ready : Bool
  dirty : Bool
  writeInFlight : Bool
  flushRequested : Bool
  writeSnapshot : Text
  persistedText : Text
  storeText : Text
  errorKind : ErrorKind
  deletedRecord : Option Record
  titleStates : List (Text × TitleState)
  titleQueue : List Request
  activeTitleRequest : Option Request
  titleRequestCounter : Nat
  saveTimer : Bool
  /-- A `saveNow` handed to `Qt.callLater`. -/
  queuedSave : Bool
  titleProcRunning : Bool
  view : FileView
  options : Options
deriving DecidableEq

/-- Before the file has been read. -/
def Session.initial (options : Options) : Session where
  records := []
  ready := false
  dirty := false
  writeInFlight := false
  flushRequested := false
  writeSnapshot := []
  persistedText := []
  storeText := []
  errorKind := .none
  deletedRecord := none
  titleStates := []
  titleQueue := []
  activeTitleRequest := none
  titleRequestCounter := 0
  saveTimer := false
  queuedSave := false
  titleProcRunning := false
  view := ⟨[], none, none, true, []⟩
  options := options

def Session.canMutate (s : Session) : Bool := s.ready && s.errorKind ≠ .load

/-! ### Title requests -/

def Options.titleModel (options : Options) (provider : Text) : Text :=
  if provider = ascii "codex" then options.codexModel else options.claudeModel

def Options.titleEffort (options : Options) (provider : Text) : Text :=
  if provider = ascii "codex" then options.codexEffort else options.claudeEffort

/-- `TITLE_EFFORTS[provider]`, for the two providers there are. -/
def titleEfforts (provider : Text) : List Text :=
  let both := ["low", "medium", "high", "xhigh", "max"].map ascii
  if provider = ascii "codex" then ascii "none" :: both
  else if provider = ascii "claude" then both
  else []

def captureTitleRequest (record : Option Record) (provider model effort : Text) (token : Nat) :
    Option Request :=
  match record.bind fun record => validRecord record.toValue with
  | none => none
  | some record =>
      if jsTrim model = [] ∨ effort ∉ titleEfforts provider then none
      else some ⟨record.id, record.title, record.body, provider, model, effort, token⟩

def titleRequestCurrent (records : List Record) (request : Request)
    (provider model effort : Text) : Bool :=
  request.provider = provider && request.model = model && request.effort = effort &&
    (findRecord records (.str request.id)).any fun record =>
      record.title = request.title && record.body = request.body

def noTitleState : TitleState := ⟨false, [], none⟩

def Session.titleState (s : Session) (id : Text) : TitleState :=
  (s.titleStates.lookup id).getD noTitleState

def Session.setTitleState (s : Session) (id : Text) (state : Option TitleState) : Session :=
  { s with
    titleStates := match state with
      | none => Dict.pop s.titleStates id
      | some state => Dict.set s.titleStates id state }

def Session.invalidateTitleRequest (s : Session) (id : Text) : Session :=
  Session.setTitleState { s with titleQueue := s.titleQueue.filter (·.id ≠ id) } id none

def Session.titleRequestIsCurrent (s : Session) (request : Request) : Bool :=
  let provider := s.options.titleProvider
  titleRequestCurrent s.records request provider (s.options.titleModel provider)
    (s.options.titleEffort provider)

def Session.titleTokenIsCurrent (s : Session) (request : Request) : Bool :=
  let state := s.titleState request.id
  state.pending && state.request.any (·.token = request.token)

/-- Drop the state of a request that is not current any more, if it is its. -/
def Session.dropTitleState (s : Session) (request : Request) : Session :=
  if s.titleTokenIsCurrent request then s.setTitleState request.id none else s

/-! ### Edits -/

def Session.markDirty (s : Session) : Session :=
  { s with dirty := true, saveTimer := s.saveTimer || s.errorKind = .none }

/-- The records of an operation that changed them. -/
def Session.put (s : Session) (outcome : Outcome) : Session :=
  Session.markDirty { s with records := outcome.records }

/-- `id` is the one that `nextId` makes. -/
def Session.add (s : Session) (body title id : Text) (now : Nat) : Session :=
  let result := addRecord s.records (.str body) (.str id) (natValue now) (.str title)
  if !s.canMutate || isBlank body || !result.changed then s else s.put result

def Session.remove (s : Session) (id : Text) : Session :=
  let result := removeRecord s.records (.str id)
  if !s.canMutate || !result.changed then s
  else { (s.invalidateTitleRequest id).put result with deletedRecord := result.deleted }

def Session.update (s : Session) (id body : Text) (now : Nat) : Session :=
  let result := updateRecord s.records (.str id) (.str body) (natValue now)
  if !s.canMutate then s
  else if isBlank body then s.remove id
  else if !result.changed then s
  else (s.invalidateTitleRequest id).put result

def Session.updateTitle (s : Session) (id title : Text) (now : Nat) : Session :=
  let result := updateTitleRecord s.records (.str id) (.str title) (natValue now)
  if !s.canMutate then s
  else if !result.changed then s.invalidateTitleRequest id
  else (s.invalidateTitleRequest id).put result

def Session.undoDelete (s : Session) : Session :=
  match s.deletedRecord with
  | none => s
  | some deleted =>
      let result := restoreDeleted s.records deleted.toValue
      if !s.canMutate || !result.changed then s
      else { s with deletedRecord := none }.put result

/-! ### Generated titles -/

def NO_PROVIDER : Text := ascii "Choose a title provider in Notes settings."

def Session.requestTitle (s : Session) (id : Text) : Session :=
  let provider := s.options.titleProvider
  if !s.canMutate || (s.titleState id).pending then s
  else if provider = ascii "off" then s.setTitleState id (some ⟨false, NO_PROVIDER, none⟩)
  else
    match captureTitleRequest (findRecord s.records (.str id)) provider
        (s.options.titleModel provider) (s.options.titleEffort provider)
        (s.titleRequestCounter + 1) with
    | none => s
    | some captured =>
        Session.setTitleState { s with
          titleRequestCounter := captured.token
          titleQueue := s.titleQueue ++ [captured] } id (some ⟨true, [], some captured⟩)

def Session.retryTitle (s : Session) (id : Text) : Session :=
  if (s.titleState id).error = [] then s else (s.setTitleState id none).requestTitle id

/-- Start the first request of the queue that is still current. -/
def Session.startTitle (s : Session) : List Request → Session
  | [] => { s with titleQueue := [] }
  | request :: rest =>
      if !s.titleTokenIsCurrent request || !s.titleRequestIsCurrent request then
        (s.dropTitleState request).startTitle rest
      else
        { s with titleQueue := rest, activeTitleRequest := some request, titleProcRunning := true }

def Session.pumpTitleQueue (s : Session) : Session :=
  if s.titleProcRunning || s.activeTitleRequest.isSome then s else s.startTitle s.titleQueue

/-- The title of a response that says it is one. -/
def responseTitle (response : Option JsValue) : Option Text :=
  response.bind fun response =>
    match response.field? (ascii "ok"), response.field? (ascii "title") with
    | some (.bool true), some (.str title) => some title
    | _, _ => none

/-- The message of a response without a title. -/
def responseError (response : Option JsValue) (exitSeen : Bool) : Text :=
  let message := ((response.bind (·.field? (ascii "error"))).bind stringOf).elim [] jsTrim
  (if message ≠ [] then message
    else if !exitSeen then ascii "The title helper could not be started."
    else ascii "Title generation failed.").take 240

def Session.settleTitleRequest (s : Session) (exitSeen : Bool) (exitCode : ℤ) (output : Text) :
    Session :=
  match s.activeTitleRequest with
  | none => s
  | some request =>
      let s := { s with activeTitleRequest := none }
      if !s.titleTokenIsCurrent request || !s.titleRequestIsCurrent request then
        s.dropTitleState request
      else
        match (responseTitle (jsonParse output)).filter fun _ => exitSeen && exitCode = 0 with
        | some title =>
            let result := applyGeneratedTitle s.records (.str request.id) (.str title)
            (if result.changed then s.put result else s).setTitleState request.id none
        | none =>
            s.setTitleState request.id
              (some ⟨false, responseError (jsonParse output) exitSeen, none⟩)

/-- The helper has stopped. -/
def Session.titleProcStopped (s : Session) (exitSeen : Bool) (exitCode : ℤ) (output : Text) :
    Session :=
  if s.titleProcRunning then
    Session.settleTitleRequest { s with titleProcRunning := false } exitSeen exitCode output
  else s

/-! ### Saving -/

/-- A retried write may carry one extra trailing newline. -/
def sameContent (text written : Text) : Bool := text = written || text ++ [10] = written

def Session.handleSaveFailure (s : Session) : Session :=
  { s with
    storeText := s.writeSnapshot
    writeSnapshot := []
    writeInFlight := false
    flushRequested := false
    dirty := true
    errorKind := .save }

/-- `throws` says whether `setText` does. -/
def Session.saveNow (s : Session) (throws : Bool) : Session :=
  if !s.ready || !s.dirty || s.writeInFlight || s.errorKind ≠ .none then s
  else
    match serializeState s.records with
    | .error _ => s
    | .ok next =>
        if sameContent next s.persistedText then { s with dirty := false, flushRequested := false }
        else
          let writeSnapshot := if next = s.storeText then next ++ [10] else next
          let s := { s with
            writeSnapshot := writeSnapshot
            writeInFlight := true
            view := s.view.setText writeSnapshot throws }
          if throws then s.handleSaveFailure else s

def Session.flush (s : Session) (throws : Bool) : Session :=
  let s := { s with saveTimer := false }
  if !s.dirty then s
  else if s.writeInFlight then { s with flushRequested := true }
  else s.saveNow throws

def Session.retrySave (s : Session) (throws : Bool) : Session :=
  let next := { s with errorKind := .none }
  if !s.ready || s.errorKind = .load then { next with view := { s.view with loading := true } }
  else next.flush throws

def Session.handleSaveSucceeded (s : Session) : Session :=
  let completed := s.writeSnapshot
  let s := { s with
    persistedText := completed
    storeText := completed
    writeSnapshot := []
    writeInFlight := false
    errorKind := .none }
  match serializeState s.records with
  | .error _ => s
  | .ok next =>
      if sameContent next completed then { s with dirty := false, flushRequested := false }
      else if s.flushRequested then
        { s with dirty := true, flushRequested := false, queuedSave := true }
      else { s with dirty := true, saveTimer := true }

/-- The view's write has ended. -/
def Session.written (s : Session) (succeeded : Bool) : Session :=
  match s.view.writing with
  | none => s
  | some text =>
      if succeeded then
        Session.handleSaveSucceeded
          { s with view := { s.view with writing := none, stored := some text } }
      else Session.handleSaveFailure { s with view := { s.view with writing := none } }

/-! ### Loading -/

def Session.applyLoaded (s : Session) (rawText : Text) : Session :=
  let s := { s with persistedText := rawText, storeText := rawText }
  match parseState rawText with
  | .error _ => { s with ready := false, dirty := false, saveTimer := false, errorKind := .load }
  | .ok parsed =>
      { s with
        records := parsed.records
        ready := true
        dirty := parsed.migrated
        errorKind := .none
        titleStates := []
        titleQueue := []
        saveTimer := s.saveTimer || parsed.migrated }

def Session.handleLoadFailure (s : Session) (notFound : Bool) : Session :=
  let s := { s with persistedText := [], storeText := [] }
  if notFound then { s with records := [], ready := true, dirty := false, errorKind := .none }
  else { s with ready := false, dirty := false, saveTimer := false, errorKind := .load }

/-- How a read of the file ends. -/
inductive Reading where
  | text (rawText : Text)
  | notFound
  | failed

/-- The view has read the file. -/
def Session.read (s : Session) (reading : Reading) : Session :=
  if !s.view.loading then s
  else
    match reading with
    | .text rawText =>
        Session.applyLoaded { s with
          view := { s.view with loading := false, text := rawText, stored := some rawText } } rawText
    | .notFound =>
        Session.handleLoadFailure
          { s with view := { s.view with loading := false, stored := none } } true
    | .failed =>
        Session.handleLoadFailure { s with view := { s.view with loading := false } } false

/-! ### Events -/

inductive Event where
  | add (body title id : Text) (now : Nat)
  | update (id body : Text) (now : Nat)
  | updateTitle (id title : Text) (now : Nat)
  | remove (id : Text)
  | undoDelete
  | undoTimeout
  | requestTitle (id : Text)
  | retryTitle (id : Text)
  | pumpTitleQueue
  | titleProcStopped (exitSeen : Bool) (exitCode : ℤ) (output : Text)
  | retrySave (throws : Bool)
  | flush (throws : Bool)
  | saveTimeout (throws : Bool)
  | queuedSave (throws : Bool)
  | written (succeeded : Bool)
  | read (reading : Reading)
  | setOptions (options : Options)

def Session.step (s : Session) : Event → Session
  | .add body title id now => s.add body title id now
  | .update id body now => s.update id body now
  | .updateTitle id title now => s.updateTitle id title now
  | .remove id => s.remove id
  | .undoDelete => s.undoDelete
  | .undoTimeout => { s with deletedRecord := none }
  | .requestTitle id => s.requestTitle id
  | .retryTitle id => s.retryTitle id
  | .pumpTitleQueue => s.pumpTitleQueue
  | .titleProcStopped exitSeen exitCode output => s.titleProcStopped exitSeen exitCode output
  | .retrySave throws => s.retrySave throws
  | .flush throws => s.flush throws
  | .saveTimeout throws =>
      if s.saveTimer then Session.saveNow { s with saveTimer := false } throws else s
  | .queuedSave throws =>
      if s.queuedSave then Session.saveNow { s with queuedSave := false } throws else s
  | .written succeeded => s.written succeeded
  | .read reading => s.read reading
  | .setOptions options => { s with options := options }

end Notes

end CybexOS
