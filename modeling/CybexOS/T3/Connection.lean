/-
The transport of the T3 client (`T3Connection.qml`): credential, ticket, socket,
and the timers that start an attempt again.
-/
import CybexOS.JsString
import Mathlib.Data.List.DropRight

namespace CybexOS

namespace T3

namespace Connection

/-! ### The credential file -/

/-- `stateData`, as far as the link depends on it. -/
structure Credential where
  httpBaseUrl : Text
  wsBaseUrl : Text
  accessToken : Text
  authMode : Text
  tokenType : Text
  cloudStatus : Text
  cloudIdentity : Text
  environmentId : Text
deriving DecidableEq

def Credential.none : Credential where
  httpBaseUrl := []
  wsBaseUrl := []
  accessToken := []
  authMode := []
  tokenType := ascii "Bearer"
  cloudStatus := ascii "signed-out"
  cloudIdentity := []
  environmentId := []

def Credential.host (data : Credential) : Text := data.httpBaseUrl.rdropWhile (· = 47)

def Credential.tokenTypeOrBearer (data : Credential) : Text :=
  if data.tokenType = [] then ascii "Bearer" else data.tokenType

def Credential.cloudStatusOrSignedOut (data : Credential) : Text :=
  if data.cloudStatus = [] then ascii "signed-out" else data.cloudStatus

/-- `host !== "" && accessToken !== ""` -/
def Credential.paired (data : Credential) : Bool := data.host ≠ [] && data.accessToken ≠ []

/-- The DPoP token that `t3-cloud.mjs` keeps fresh. -/
def Credential.helperOwned (data : Credential) : Bool :=
  data.authMode = ascii "cloud" && data.tokenTypeOrBearer = ascii "DPoP"

structure Fingerprint where
  httpBaseUrl : Text
  wsBaseUrl : Text
  token : Bool ⊕ Text
  authMode : Text
  tokenType : Text
  cloudStatus : Text
  cloudIdentity : Text
  environmentId : Text
deriving DecidableEq

def credentialFingerprint (data : Credential) : Fingerprint where
  httpBaseUrl := data.httpBaseUrl
  wsBaseUrl := data.wsBaseUrl
  token := if data.helperOwned then .inl (data.accessToken ≠ []) else .inr data.accessToken
  authMode := data.authMode
  tokenType := data.tokenTypeOrBearer
  cloudStatus := data.cloudStatusOrSignedOut
  cloudIdentity := if data.helperOwned then data.cloudIdentity else []
  environmentId := if data.helperOwned then data.environmentId else []

/-! ### Reconnect holds -/

def isSchemeUnit (c : Nat) : Bool := isAlnum c || c = 43 || c = 46 || c = 45

/-- `\[[^\]]*\]|[^\/:?#]*` at the start. -/
def hostPart (tail : Text) : Text :=
  match tail with
  | 91 :: inner =>
      if 93 ∈ inner then 91 :: inner.takeWhile (· ≠ 93) ++ [93]
      else tail.takeWhile fun c => c ≠ 47 && c ≠ 58 && c ≠ 63 && c ≠ 35
  | _ => tail.takeWhile fun c => c ≠ 47 && c ≠ 58 && c ≠ 63 && c ≠ 35

def isOctet (part : Text) : Bool := part.all isDigit && 1 ≤ part.length && part.length ≤ 3

/-- `^127\.\d{1,3}\.\d{1,3}\.\d{1,3}$` -/
def isLoopbackAddress (host : Text) : Bool :=
  match host.splitOn 46 with
  | [first, second, third, fourth] =>
      first = ascii "127" && isOctet second && isOctet third && isOctet fourth
  | _ => false

def toLowerCase (text : Text) : Text := text.map fun c => if isUpper c then c + 32 else c

def isLoopbackOrigin (url : Text) : Bool :=
  let trimmed := jsTrim url
  match afterPrefix (ascii "://") (trimmed.dropWhile isSchemeUnit) with
  | some tail =>
      let host := toLowerCase (hostPart tail)
      trimmed.head?.any (fun c => isUpper c || isLower c) &&
        (host = ascii "localhost" || host = ascii "[::1]" || isLoopbackAddress host)
  | none => false

inductive Hold where
  | network
  | idle
deriving DecidableEq

def reconnectHold (networkKnown networkOnline loopback idle : Bool) : Option Hold :=
  if networkKnown && !networkOnline && !loopback then some .network
  else if idle then some .idle
  else none

/-! ### State -/

inductive LinkState where
  | signedOut
  | cloudEmpty
  | connecting
  | connected
  | offline
deriving DecidableEq

/-- `cloudTicketProc`.  Once told to stop it runs until its exit is reported. -/
structure Helper where
  running : Bool
  attempted : Bool
  attemptEpoch : Option Nat
  reconnectEpoch : Option Nat
  timedOutEpoch : Option Nat
deriving DecidableEq

inductive SocketStatus where
  | connecting
  | open
  | closing
  | closed
  | error
deriving DecidableEq

/-- `T3Socket` -/
structure Socket where
  active : Bool
  activeSessionEpoch : Option Nat
  status : SocketStatus
deriving DecidableEq

inductive LoaderStatus where
  | null
  | loading
  | ready
  | error
deriving DecidableEq

/-- A timer is the epoch it was started with, while it runs. -/
structure Link where
  state : LinkState
  enabled : Bool
  credential : Credential
  fingerprint : Option Fingerprint
  sessionEpoch : Nat
  /-- The epoch of the request under way. -/
  ticketRequest : Option Nat
  ticketTimeout : Option Nat
  helper : Helper
  cloudTicketTimeout : Option Nat
  pendingSocketEpoch : Option Nat
  socketConnectTimeout : Option Nat
  retryTimer : Option Nat
  loaderActive : Bool
  loaderStatus : LoaderStatus
  /-- `socketLoader.item` -/
  item : Option Socket
  /-- QtWebSockets is installed. -/
  loadable : Bool
  networkKnown : Bool
  networkOnline : Bool
  idle : Bool
  /-- The `dropped` signals so far. -/
  drops : Nat
deriving DecidableEq

def Link.initial (enabled loadable networkKnown networkOnline idle : Bool) : Link where
  state := .offline
  enabled := enabled
  credential := .none
  fingerprint := none
  sessionEpoch := 0
  ticketRequest := none
  ticketTimeout := none
  helper := ⟨false, false, none, none, none⟩
  cloudTicketTimeout := none
  pendingSocketEpoch := none
  socketConnectTimeout := none
  retryTimer := none
  loaderActive := true
  loaderStatus := .loading
  item := none
  loadable := loadable
  networkKnown := networkKnown
  networkOnline := networkOnline
  idle := idle
  drops := 0

def Link.paired (s : Link) : Bool := s.credential.paired

def Link.stateWithoutCredential (s : Link) : LinkState :=
  if s.credential.authMode = ascii "cloud" ∧
      s.credential.cloudStatusOrSignedOut = ascii "no-environments" then .cloudEmpty
  else .signedOut

def Link.retryHold (s : Link) (resumed : Bool) : Option Hold :=
  reconnectHold s.networkKnown s.networkOnline (isLoopbackOrigin s.credential.host)
    (!resumed && s.idle)

/-! ### Attempts -/

/-- `item.active = false` -/
def Socket.deactivate (socket : Socket) : Socket :=
  { socket with
    active := false
    status := if socket.status = .open ∨ socket.status = .connecting then .closing
      else socket.status }

/-- The first half of `scheduleRetry`: `dropped`, and the socket closed. -/
def Link.breakOff (s : Link) : Link :=
  { s with
    socketConnectTimeout := none
    drops := s.drops + 1
    item := s.item.map Socket.deactivate
    state := if s.state = .signedOut ∨ s.state = .cloudEmpty then s.state else .offline }

/-- `scheduleRetry`, of the session's own epoch. -/
def Link.scheduleRetry (s : Link) : Link :=
  if !s.breakOff.enabled || (s.breakOff.retryHold false).isSome then s.breakOff
  else { s.breakOff with retryTimer := some s.sessionEpoch }

def Link.startHelper (s : Link) : Link :=
  { s with
    helper := { s.helper with
      running := true, attempted := true, attemptEpoch := some s.sessionEpoch }
    cloudTicketTimeout := some s.sessionEpoch
    state := .connecting }

def Link.requestTicket (s : Link) : Link :=
  { s with
    ticketRequest := some s.sessionEpoch
    ticketTimeout := some s.sessionEpoch
    state := .connecting }

def Link.connect (s : Link) : Link :=
  if !s.paired then { s with state := s.stateWithoutCredential }
  else if !s.enabled then s
  else if s.loaderStatus ≠ .ready then
    let s := { s with state := .offline }
    -- a load error is permanent
    if s.loaderStatus ≠ .error then s.scheduleRetry else s
  else if s.credential.helperOwned then
    if s.helper.running then
      if s.helper.attemptEpoch ≠ some s.sessionEpoch then
        { s with
          helper := { s.helper with reconnectEpoch := some s.sessionEpoch }
          state := .offline }
      else s
    else s.startHelper
  else if s.ticketRequest.isSome then { s with state := .connecting }
  else s.requestTicket

/-! ### The socket's loader -/

/-- `activatePendingSocket` -/
def Link.activatePendingSocket (s : Link) : Option Link :=
  if s.pendingSocketEpoch = some s.sessionEpoch ∧ s.item.isSome then
    some { s with
      pendingSocketEpoch := none
      socketConnectTimeout := some s.sessionEpoch
      item := some ⟨true, some s.sessionEpoch, .connecting⟩ }
  else none

/-- `socketLoader.onStatusChanged` -/
def Link.loaderReady (s : Link) : Link :=
  match s.activatePendingSocket with
  | some activated => activated
  | none =>
      if s.paired ∧ s.state ≠ .connected ∧ s.state ≠ .connecting then
        Link.connect { s with retryTimer := none }
      else s

def Link.loaderFailed (s : Link) : Link :=
  { s with
    pendingSocketEpoch := none
    retryTimer := none
    socketConnectTimeout := none
    state := .offline }

def Link.loaderLoaded (s : Link) : Link :=
  if s.loadable then
    Link.loaderReady { s with loaderStatus := .ready, item := some ⟨false, none, .closed⟩ }
  else Link.loaderFailed { s with loaderStatus := .error, item := none }

/-- `socketLoader.active = true` -/
def Link.activateLoader (s : Link) : Link :=
  if s.loaderActive then s else Link.loaderLoaded { s with loaderActive := true }

/-- `socketLoader.active = false` -/
def Link.deactivateLoader (s : Link) : Link :=
  { s with loaderActive := false, loaderStatus := .null, item := none }

/-- `openSocketUrl`, of the session's own epoch. -/
def Link.openSocketUrl (s : Link) : Link :=
  Link.activateLoader (Link.deactivateLoader { s with
    pendingSocketEpoch := some s.sessionEpoch })

/-! ### Sessions -/

def Link.resetTransport (s : Link) : Link :=
  let shouldDrop := s.state = .connected ∨ s.state = .connecting
  { s.deactivateLoader with
    sessionEpoch := s.sessionEpoch + 1
    retryTimer := none
    ticketTimeout := none
    cloudTicketTimeout := none
    socketConnectTimeout := none
    ticketRequest := none
    helper := { s.helper with reconnectEpoch := none, timedOutEpoch := none }
    state := .offline
    pendingSocketEpoch := none
    drops := if shouldDrop then s.drops + 1 else s.drops }

def Link.connectIfDown (s : Link) : Link :=
  if s.state ≠ .connecting ∧ s.state ≠ .connected then s.connect else s

/-- `onEnabledChanged` -/
def Link.setEnabled (s : Link) (enabled : Bool) : Link :=
  if enabled = s.enabled then s
  else if enabled then Link.connectIfDown (Link.activateLoader { s with enabled := true })
  else
    let s := Link.resetTransport { s with enabled := false }
    if !s.paired then { s with state := s.stateWithoutCredential } else s

/-- What `onLoaded` does once the file's values are in place. -/
def Link.followCredential (s : Link) : Link :=
  if s.paired then
    if s.state ≠ .connected then
      if s.helper.running ∧ s.helper.attemptEpoch ≠ some s.sessionEpoch then
        { s with
          helper := { s.helper with reconnectEpoch := some s.sessionEpoch }
          state := .offline }
      else if !s.helper.running then s.connect
      else s
    else s
  else { s with state := s.stateWithoutCredential }

/-- A credential of another session closes what the old one opened. -/
def Link.adoptCredential (s : Link) (data : Credential) : Link :=
  let s := if s.fingerprint = some (credentialFingerprint data) then s
    else { s.resetTransport with fingerprint := some (credentialFingerprint data) }
  { s with credential := data }

/-- `stateFile.onLoaded` -/
def Link.fileLoaded (s : Link) (data : Credential) : Link :=
  Link.followCredential (s.adoptCredential data).activateLoader

/-- `stateFile.onLoadFailed` -/
def Link.fileFailed (s : Link) (notFound : Bool) : Link :=
  { s.resetTransport with
    fingerprint := none
    credential := .none
    state := if notFound then .signedOut else .offline }

/-! ### Answers and timeouts -/

/-- What the server answers to the ticket request: status 200 with a ticket or
without, 401 or 403, anything else. -/
inductive TicketAnswer where
  | ticket
  | malformed
  | rejected
  | failed

def Link.ticketAnswered (s : Link) (answer : TicketAnswer) : Link :=
  match s.ticketRequest with
  | none => s
  | some epoch =>
      let s := { s with ticketRequest := none, ticketTimeout := none }
      if epoch ≠ s.sessionEpoch then s
      else
        match answer with
        | .ticket => s.openSocketUrl
        | .rejected => { s with state := s.stateWithoutCredential }
        | .malformed | .failed => s.scheduleRetry

inductive HelperExit where
  | socketUrl
  | malformed
  | signInRequired
  | failed

/-- What the exit of a helper of the running session leads to. -/
def Link.helperAnswered (s : Link) (exit : HelperExit) : Link :=
  if s.helper.timedOutEpoch = some s.sessionEpoch then
    Link.scheduleRetry { s with helper := { s.helper with timedOutEpoch := none } }
  else
    match exit with
    | .socketUrl => s.openSocketUrl
    | .signInRequired => { s with state := s.stateWithoutCredential }
    | .malformed | .failed => s.scheduleRetry

/-- `cloudTicketProc.onRunningChanged`, of a helper that has stopped. -/
def Link.helperStopped (s : Link) (exit : HelperExit) : Link :=
  if !s.helper.running then s
  else
    let s := { s with
      helper := { s.helper with running := false }, cloudTicketTimeout := none }
    if !s.helper.attempted then s
    else
      let s := { s with helper := { s.helper with attempted := false } }
      if s.helper.attemptEpoch ≠ some s.sessionEpoch then
        let reconnectEpoch := s.helper.reconnectEpoch
        let s := { s with helper := { s.helper with reconnectEpoch := none } }
        if reconnectEpoch = some s.sessionEpoch ∧ s.paired then s.connect else s
      else s.helperAnswered exit

/-- `ticketTimeout.onTriggered` -/
def Link.ticketTimedOut (s : Link) : Link :=
  match s.ticketTimeout with
  | none => s
  | some epoch =>
      let s := { s with ticketTimeout := none }
      if epoch ≠ s.sessionEpoch ∨ s.ticketRequest = none then s
      else Link.scheduleRetry { s with ticketRequest := none }

/-- `cloudTicketTimeout.onTriggered` -/
def Link.helperTimedOut (s : Link) : Link :=
  match s.cloudTicketTimeout with
  | none => s
  | some epoch =>
      let s := { s with cloudTicketTimeout := none }
      if epoch ≠ s.sessionEpoch ∨ !s.helper.running ∨ s.helper.attemptEpoch ≠ some epoch then s
      else { s with helper := { s.helper with timedOutEpoch := some epoch } }

/-- `socketConnectTimeout.onTriggered` -/
def Link.socketTimedOut (s : Link) : Link :=
  match s.socketConnectTimeout with
  | none => s
  | some epoch =>
      let s := { s with socketConnectTimeout := none }
      if epoch ≠ s.sessionEpoch ∨ s.state ≠ .connecting ∨ !s.item.any (·.active) then s
      else s.scheduleRetry

/-- `retryTimer.onTriggered` -/
def Link.retryTimedOut (s : Link) : Link :=
  match s.retryTimer with
  | none => s
  | some epoch =>
      let s := { s with retryTimer := none }
      if epoch = s.sessionEpoch ∧ s.retryHold false = none then s.connect else s

/-- `pingTimer.onTriggered`, after a silence. -/
def Link.silent (s : Link) : Link :=
  if s.state = .connected then s.scheduleRetry else s

/-! ### Holds that end -/

def Link.resumeReconnect (s : Link) (resumed : Bool) : Link :=
  if !s.enabled || !s.paired || s.state ≠ .offline || s.loaderStatus = .error ||
      (s.retryHold resumed).isSome then s
  else Link.connect { s with retryTimer := none }

def Link.onlineChanged (s : Link) (online : Bool) : Link :=
  let changed := { s with networkOnline := online }
  if online ∧ !s.networkOnline then changed.resumeReconnect false else changed

def Link.knownChanged (s : Link) (known : Bool) : Link :=
  let changed := { s with networkKnown := known }
  if !known ∧ s.networkKnown then changed.resumeReconnect false else changed

/-- `monitor.onIsIdleChanged` -/
def Link.idleChanged (s : Link) (idle : Bool) : Link :=
  let changed := { s with idle := idle }
  if !idle ∧ s.idle then changed.resumeReconnect true else changed

/-! ### The socket -/

/-- The epoch a signal of the loaded socket carries is the session's. -/
def Link.hears (s : Link) : Bool :=
  s.item.any fun socket => socket.activeSessionEpoch = some s.sessionEpoch

def Link.socketOpened (s : Link) : Link :=
  match s.item with
  | none => s
  | some socket =>
      -- only an activated socket opens
      if !socket.active then s
      else
        let s := { s with item := some { socket with status := .open } }
        if s.hears then { s with socketConnectTimeout := none, state := .connected } else s

/-- A close or an error: Qt may report both, also after a deactivation. -/
def Link.socketEnded (s : Link) (status : SocketStatus) : Link :=
  match s.item with
  | none => s
  | some socket =>
      let s := { s with item := some { socket with status := status } }
      if !s.hears then s
      else
        let s := { s with socketConnectTimeout := none }
        if s.state = .connected ∨ s.state = .connecting then s.scheduleRetry else s

/-- The `Exit` of the shell's stream, which `T3Code` hands to `scheduleRetry`. -/
def Link.shellExited (s : Link) : Link :=
  if s.hears then s.scheduleRetry else s

/-! ### Events -/

inductive Event where
  | fileLoaded (data : Credential)
  | fileFailed (notFound : Bool)
  | setEnabled (enabled : Bool)
  | connect
  | loaderCompleted
  | ticketAnswered (answer : TicketAnswer)
  | helperStopped (exit : HelperExit)
  | ticketTimedOut
  | helperTimedOut
  | socketTimedOut
  | retryTimedOut
  | silent
  | onlineChanged (online : Bool)
  | knownChanged (known : Bool)
  | idleChanged (idle : Bool)
  | socketOpened
  | socketClosed
  | socketFailed
  | shellExited

def Link.step (s : Link) : Event → Link
  | .fileLoaded data => s.fileLoaded data
  | .fileFailed notFound => s.fileFailed notFound
  | .setEnabled enabled => s.setEnabled enabled
  | .connect => s.connect
  | .loaderCompleted => if s.loaderStatus = .loading then s.loaderLoaded else s
  | .ticketAnswered answer => s.ticketAnswered answer
  | .helperStopped exit => s.helperStopped exit
  | .ticketTimedOut => s.ticketTimedOut
  | .helperTimedOut => s.helperTimedOut
  | .socketTimedOut => s.socketTimedOut
  | .retryTimedOut => s.retryTimedOut
  | .silent => s.silent
  | .onlineChanged online => s.onlineChanged online
  | .knownChanged known => s.knownChanged known
  | .idleChanged idle => s.idleChanged idle
  | .socketOpened => s.socketOpened
  | .socketClosed => s.socketEnded .closed
  | .socketFailed => s.socketEnded .error
  | .shellExited => s.shellExited

end Connection

end T3

end CybexOS
