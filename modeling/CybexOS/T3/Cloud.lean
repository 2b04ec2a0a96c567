/-
The T3 Connect helper (`t3-cloud.mjs`): its commands as processes over the files
of the private state directory, the state lock and the network.
-/
import CybexOS.Processes
import CybexOS.Text
import Mathlib.Data.Int.Notation
import Mathlib.Data.List.Perm.Basic
import Mathlib.Logic.Function.Basic

namespace CybexOS

namespace T3

namespace Cloud

open Process (call ofExcept)

/-! ### Credentials and files -/

/-- A credential, known by the clients and keys that it comes from. -/
structure Token where
  origins : List ℕ
deriving DecidableEq

/-- What an answer to these credentials carries. -/
def derived (tokens : List Token) : Token := ⟨tokens.flatMap Token.origins⟩

/-- `STATE_PATHS`, but for the locks and the session epoch. -/
inductive File where
  | legacyCredentials
  | clerkClient
  | browserLogin
  | dpopKey
  | connection
deriving DecidableEq

def File.all : List File := [.legacyCredentials, .clerkClient, .browserLogin, .dpopKey, .connection]

structure Connection where
  cloudStatus : Text
  identity : Text
  environmentId : Text
  environmentLabel : Text
  httpBaseUrl : Text
  wsBaseUrl : Text
  /-- A token of type `DPoP`. -/
  accessToken : Option Token
  expiresAt : ℤ
deriving DecidableEq

/-- What a file holds, as it is read. -/
inductive Content where
  | client (token : Token)
  | login (operation : Text)
  | key (token : Token)
  | connection (connection : Connection)
  | other (tokens : List Token)
deriving DecidableEq

/-- The credentials of a content. -/
def Content.tokens : Content → List Token
  | .client token | .key token => [token]
  | .login _ => []
  | .connection saved => saved.accessToken.toList
  | .other tokens => tokens

/-! ### Operations -/

structure Environment where
  id : Text
  label : Text
  linkedAt : Text
  /-- Its endpoint, if that is a managed one of secure URLs. -/
  endpoint : Option (Text × Text)
deriving DecidableEq

/-- What the commands read of an answer. -/
structure Reply where
  /-- The status, if there was an answer in time. -/
  status : Option ℕ
  isObject : Bool
  /-- There is an authorization header. -/
  rotated : Bool
  /-- The identity of the client's active session. -/
  session : Option Text
  /-- The answer is well formed and has the credential that was asked for. -/
  granted : Bool
  /-- The client of a finished sign-in, and whether it has an active session. -/
  client : Option Bool
  environments : List Environment
  /-- The endpoint of a connected environment, if one is named. -/
  endpoint : Option (Option (Text × Text))
  expiresIn : ℤ
deriving DecidableEq

/-- What reaches the server of a browser sign-in; one request at a time. -/
inductive Request where
  | page
  | refused
  | start
  | callback (valid : Bool)
  | watch
  | timeout
deriving DecidableEq

inductive Op where
  | read (file : File)
  | ask (bearing : List Token)
  | generate
  | outcome
  | localId
  | now
  | request
  | acquire
  | release
  | epoch
  | publish (epoch : ℕ)
  | write (file : File) (content : Content)
  | remove (file : File)
  | print (tokens : List Token)

def Answer : Op → Type
  | .read _ => Option Content
  | .ask _ => Reply × Token
  | .generate => Token
  | .outcome | .acquire => Bool
  | .localId => Text
  | .now => ℤ
  | .request => Request
  | .epoch => ℕ
  | _ => Unit

inductive Fault where
  | signInRequired
  | sessionChanged
  | http (status : ℕ)
  | other
deriving DecidableEq

abbrev Helper := Process Op Answer Fault

def read (file : File) : Helper (Option Content) := call (Op.read file)

def ask (bearing : List Token) : Helper (Reply × Token) := call (Op.ask bearing)

def generate : Helper Token := call Op.generate

def outcome : Helper Bool := call Op.outcome

def localEnvironmentId : Helper Text := call Op.localId

def currentTime : Helper ℤ := call Op.now

def nextRequest : Helper Request := call Op.request

def acquireLock : Helper Bool := call Op.acquire

def releaseLock : Helper Unit := call Op.release

def readSessionEpoch : Helper ℕ := call Op.epoch

def publishEpoch (epoch : ℕ) : Helper Unit := call (Op.publish epoch)

def writeFile (file : File) (content : Content) : Helper Unit := call (Op.write file content)

def removeFile (file : File) : Helper Unit := call (Op.remove file)

def printResult (tokens : List Token) : Helper Unit := call (Op.print tokens)

def demand (condition : Prop) [Decidable condition] : Helper Unit :=
  if condition then .done () else .throw .other

/-! ### The state lock -/

def withStateLock {α : Type} (action : Helper α) : Helper α := do
  let acquired ← acquireLock
  if acquired then action.ensuring releaseLock else .throw .other

section

-- The session epoch that the command has read.
variable (expected : ℕ)

/-- An action under the lock, unless the session has changed. -/
def guarded {α : Type} (action : Helper α) : Helper α :=
  withStateLock do
    let epoch ← readSessionEpoch
    if epoch = expected then action else .throw .sessionChanged

def writePrivateJson (file : File) (content : Content) : Helper Unit :=
  guarded expected (writeFile file content)

def removePrivatePath (file : File) : Helper Unit := guarded expected (removeFile file)

def removeOwnedBrowserLogin (operation : Text) : Helper Unit :=
  guarded expected do
    let pending ← read .browserLogin
    if pending = some (.login operation) then removeFile .browserLogin else .done ()

/-! ### Requests -/

/-- The checks of `requestJson` and `clerkNativeRequest`. -/
def checked (reply : Reply) : Except Fault Reply :=
  match reply.status with
  | none => .error .other
  | some status =>
      if status < 200 ∨ 300 ≤ status then .error (.http status)
      else if reply.isObject then .ok reply
      else .error .other

/-- A request that bears credentials, with what its answer carries. -/
def requestJson (bearing : List Token) : Helper (Reply × Token) := do
  let (reply, token) ← ask bearing
  let reply ← ofExcept (checked reply)
  pure (reply, token)

structure Clerk where
  reply : Reply
  /-- What the answer carries. -/
  credential : Token
  clientToken : Option Token

def clerkNativeRequest (token : Option Token) : Helper Clerk := do
  let (reply, credential) ← requestJson token.toList
  pure ⟨reply, credential, if reply.rotated then some credential else token⟩

def rememberClerkClientToken : Option Token → Helper Token
  | none => .throw .other
  | some token => do
      writePrivateJson expected .clerkClient (.client token)
      pure token

def initializeClerkClient : Helper Clerk := do
  let result ← clerkNativeRequest none
  let _ ← rememberClerkClientToken expected result.clientToken
  pure result

def currentClerkClient : Helper Clerk := do
  let stored ← read .clerkClient
  match stored with
  | some (.client token) =>
      let body : Helper Clerk := do
        let result ← clerkNativeRequest (some token)
        let _ ← rememberClerkClientToken expected result.clientToken
        pure result
      body.handling fun error =>
        if error = .http 401 ∨ error = .http 403 then do
          removePrivatePath expected .clerkClient
          initializeClerkClient expected
        else .throw error
  | _ => initializeClerkClient expected

structure Credentials where
  accessToken : Token
  identity : Text

def t3CodeRelayCredentials : Helper (Option Credentials) := do
  let client ← currentClerkClient expected
  match client.reply.session with
  | none => pure none
  | some identity => do
      let result ← clerkNativeRequest client.clientToken
      let _ ← rememberClerkClientToken expected result.clientToken
      demand (result.reply.granted = true)
      pure (some ⟨result.credential, identity⟩)

/-! ### Browser sign-in -/

/-- The server until it is settled; it waits for so many requests at most. -/
def serve (token : Option Token) (started : Bool) : ℕ → Helper Unit
  | 0 => .throw .other
  | requests + 1 => do
      let request ← nextRequest
      match request with
      | .page | .refused => serve token started requests
      | .timeout => .throw .other
      | .watch => do
          let epoch ← readSessionEpoch
          if epoch = expected then serve token started requests else .throw .sessionChanged
      | .start =>
          if started then serve token started requests
          else do
            let body : Helper (Clerk × Token) := do
              let signIn ← clerkNativeRequest token
              let rotated ← rememberClerkClientToken expected signIn.clientToken
              pure (signIn, rotated)
            let answer ← body.attempt
            match answer with
            | .error _ => serve token false requests
            | .ok (signIn, rotated) => serve (some rotated) signIn.reply.granted requests
      | .callback valid =>
          if valid ∧ started then do
            let completed ← clerkNativeRequest token
            let _ ← rememberClerkClientToken expected completed.clientToken
            match completed.reply.client with
            | some active => demand (active = true)
            | none => do
                let client ← currentClerkClient expected
                demand (client.reply.session ≠ none)
          else .throw .other

def runOwnedBrowserSignIn (operation : Text) (requests : ℕ) : Helper Unit := do
  let client ← currentClerkClient expected
  let body : Helper Unit := do
    writePrivateJson expected .browserLogin (.login operation)
    let registered ← outcome
    demand (registered = true)
    let opened ← outcome
    demand (opened = true)
    serve expected client.clientToken false requests
  body.ensuring (removeOwnedBrowserLogin expected operation)

/-- `browserSignIn`, which at most one process gets to do at a time. -/
def browserSignIn (operation : Text) (requests : ℕ) : Helper Unit := do
  let owned ← outcome
  demand (owned = true)
  runOwnedBrowserSignIn expected operation requests

/-- With the sign-in's name and requests, if it may ask the user. -/
def waitForT3CodeRelayCredentials (interactive : Option (Text × ℕ)) : Helper Credentials := do
  let current ← t3CodeRelayCredentials expected
  match current with
  | some credentials => pure credentials
  | none =>
      match interactive with
      | none => .throw .signInRequired
      | some (operation, requests) => do
          browserSignIn expected operation requests
          let credentials ← t3CodeRelayCredentials expected
          match credentials with
          | some credentials => pure credentials
          | none => .throw .other

/-! ### Connections -/

def loadOrCreateDpopKey : Helper Token := do
  let stored ← read .dpopKey
  match stored with
  | some (.key token) => pure token
  | _ => do
      let generated ← generate
      writePrivateJson expected .dpopKey (.key generated)
      pure generated

/-- `preferredEnvironmentId`, with the id of the local environment. -/
def preferredEnvironmentId (previous : Option Content) (localId : Text)
    (environments : List Environment) : Text :=
  let known (id : Text) : Bool := environments.any fun item => item.id = id
  let earlier : Text := match previous with
    | some (.connection connection) => connection.environmentId
    | _ => []
  if known earlier then earlier
  else if known localId then localId
  else
    match environments with
    | [] => []
    | first :: rest =>
        (rest.foldl (fun newest item => if newest.linkedAt < item.linkedAt then item else newest)
          first).id

def connectCloud (credentials : Credentials) : Helper Connection := do
  let (listed, _) ← requestJson [credentials.accessToken]
  let previous ← read .connection
  match listed.environments with
  | [] => do
      let state : Connection :=
        ⟨ascii "no-environments", credentials.identity, [], [], [], [], none, 0⟩
      writePrivateJson expected .connection (.connection state)
      pure state
  | environments => do
      let localId ← localEnvironmentId
      let environmentId := preferredEnvironmentId previous localId environments
      match environments.find? fun item => item.id = environmentId with
      | none => .throw .other
      | some environment => do
          let key ← loadOrCreateDpopKey expected
          let (relay, relayToken) ← requestJson [credentials.accessToken, key]
          demand (relay.granted = true)
          let (connected, credential) ← requestJson [relayToken, key]
          demand (connected.granted = true)
          match connected.endpoint.getD environment.endpoint with
          | none => .throw .other
          | some (httpBaseUrl, wsBaseUrl) => do
              let (exchanged, token) ← requestJson [credential, key]
              demand (exchanged.granted = true)
              let now ← currentTime
              let state : Connection :=
                ⟨ascii "connected", credentials.identity, environmentId, environment.label,
                  httpBaseUrl, wsBaseUrl, some token, now + exchanged.expiresIn * 1000⟩
              writePrivateJson expected .connection (.connection state)
              pure state

def ENVIRONMENT_REFRESH_MARGIN_MS : ℤ := 60 * 1000

/-- The token of a connection that is good for a while. -/
def usableToken (now : ℤ) : Option Content → Option Token
  | some (.connection connection) =>
      if connection.httpBaseUrl ≠ [] ∧ connection.wsBaseUrl ≠ [] ∧
          now + ENVIRONMENT_REFRESH_MARGIN_MS < connection.expiresAt then connection.accessToken
      else none
  | _ => none

/-- The token of a new connection. -/
def connectAgain : Helper Token := do
  let credentials ← waitForT3CodeRelayCredentials expected none
  let connected ← connectCloud expected credentials
  match connected.accessToken with
  | some token => pure token
  | none => .throw .other

def usableConnection : Helper Token := do
  let current ← read .connection
  let now ← currentTime
  match usableToken now current with
  | some token => pure token
  | none => connectAgain expected

/-- The ticket of a WebSocket, which goes into the printed URL. -/
def issueWebSocketTicket : Helper Token := do
  let connection ← usableConnection expected
  let key ← loadOrCreateDpopKey expected
  let (issued, ticket) ← (requestJson [connection, key]).handling fun error =>
    if error = .http 401 ∨ error = .http 403 then do
      let renewed ← connectAgain expected
      requestJson [renewed, key]
    else .throw error
  demand (issued.granted = true)
  pure ticket

def cloudStatus : Helper Unit := do
  let _ ← read .connection
  let _ ← (t3CodeRelayCredentials expected).attempt
  pure ()

/-! ### Commands -/

/-- `publishCommandResult` -/
def publishCommandResult (tokens : List Token) : Helper Unit :=
  guarded expected (printResult tokens)

/-- The commands that read the session epoch first. -/
inductive Command where
  | login (operation : Text) (requests : ℕ)
  | connect
  | ticket
  | status

def Command.main : Command → Helper Unit
  | .login operation requests => do
      let credentials ← waitForT3CodeRelayCredentials expected (some (operation, requests))
      let _ ← connectCloud expected credentials
      publishCommandResult expected []
  | .connect => do
      let credentials ← waitForT3CodeRelayCredentials expected none
      let _ ← connectCloud expected credentials
      publishCommandResult expected []
  | .ticket => do
      let ticket ← issueWebSocketTicket expected
      publishCommandResult expected [ticket]
  | .status => do
      cloudStatus expected
      publishCommandResult expected []

end

/-- `fs.rm` of the files, in the order in which the removals end. -/
def removeAll : List File → Helper Unit
  | [] => .done ()
  | file :: files => do
      removeFile file
      removeAll files

/-- `removeCloudState` -/
def removeCloudState (order : List File) : Helper Unit :=
  withStateLock do
    let epoch ← readSessionEpoch
    publishEpoch (epoch + 1)
    removeAll order

def logout (order : List File) : Helper Unit := do
  removeCloudState order
  printResult []

/-! ### The state directory -/

/-- What a step of a process may meet. -/
structure Input where
  reply : Reply
  outcome : Bool
  localId : Text
  now : ℤ
  request : Request

/-- A process: one that has not read the epoch yet, a helper with the epoch that
it read and the number of sign-outs that had ended then, or a sign-out. -/
inductive Slot where
  | starting (command : Command)
  | helper (expected seen : ℕ) (program : Helper Unit)
  | logout (program : Helper Unit)
  | finished

/-- The files, the lock and the processes. `leftovers` are temporary files of
killed processes; `published` tells that a sign-out has changed the epoch and
still holds the lock; `made` counts clients and keys, and `ended` how many of
them there were when the last sign-out ended; `printed` records for each result
of a helper how many sign-outs had ended at its start and at the end. -/
structure World where
  files : File → Option Content
  leftovers : List (File × Content)
  epoch : ℕ
  lock : Option ℕ
  published : Bool
  slots : List Slot
  made : ℕ
  ended : ℕ
  finished : ℕ
  printed : List (ℕ × ℕ)

def MAX_SAFE_INTEGER : ℕ := 9007199254740991

namespace World

/-- `readSessionEpochRaw` -/
def readEpoch (w : World) : ℕ := if w.epoch ≤ MAX_SAFE_INTEGER then w.epoch else 0

/-- A client or key of its own. -/
def make (w : World) : World × Token := ({ w with made := w.made + 1 }, ⟨[w.made]⟩)

/-- An operation of a process, unless it has to wait. -/
def perform (w : World) (pid : ℕ) (input : Input) : (op : Op) → Option (World × Answer op)
  | .read file => some (w, w.files file)
  | .ask bearing =>
      if bearing = [] then some (w.make.1, input.reply, w.make.2)
      else some (w, input.reply, derived bearing)
  | .generate => some w.make
  | .outcome => some (w, input.outcome)
  | .localId => some (w, input.localId)
  | .now => some (w, input.now)
  | .request => some (w, input.request)
  | .acquire =>
      if w.lock = none then some ({ w with lock := some pid }, true)
      else if input.outcome then none
      else some (w, false)
  | .release => some ({ w with lock := none }, ())
  | .epoch => some (w, w.readEpoch)
  | .publish epoch => some ({ w with epoch := epoch }, ())
  | .write file content => some ({ w with files := Function.update w.files file (some content) }, ())
  | .remove file => some ({ w with files := Function.update w.files file none }, ())
  | .print _ => some (w, ())

def put (w : World) (pid : ℕ) (slot : Slot) : World := { w with slots := w.slots.set pid slot }

/-- What an operation of a helper leaves to be remembered. -/
def noteHelper (w : World) (seen : ℕ) : Op → World
  | .print _ => { w with printed := w.printed ++ [(seen, w.finished)] }
  | _ => w

def noteLogout (w : World) : Op → World
  | .publish _ => { w with published := true }
  | .release => { w with published := false, ended := w.made, finished := w.finished + 1 }
  | _ => w

/-- One operation of a process. -/
def run (w : World) (pid : ℕ) (input : Input) : World :=
  match w.slots[pid]? with
  | some (.starting command) =>
      w.put pid (.helper w.readEpoch w.finished (command.main w.readEpoch))
  | some (.helper expected seen (.step op next)) =>
      match w.perform pid input op with
      | some (after, answer) =>
          (after.noteHelper seen op).put pid (.helper expected seen (next answer))
      | none => w
  | some (.logout (.step op next)) =>
      match w.perform pid input op with
      | some (after, answer) => (after.noteLogout op).put pid (.logout (next answer))
      | none => w
  | some _ => w.put pid .finished
  | none => w

/-- The temporary file of a process that is killed before it renames it. -/
def leftover : Slot → Option (File × Content)
  | .helper _ _ (.step (.write file content) _) => some (file, content)
  | _ => none

/-- The kernel releases the lock of a process that is killed. -/
def kill (w : World) (pid : ℕ) (leaves : Bool) : World :=
  match w.slots[pid]? with
  | none => w
  | some slot =>
      let freed := if w.lock = some pid then { w with lock := none, published := false } else w
      { freed with
        leftovers := w.leftovers ++ (if leaves then (leftover slot).toList else []) }.put pid .finished

end World

inductive Move where
  | starts (command : Command)
  | signsOut (order : List File)
  | runs (pid : ℕ) (input : Input)
  | kills (pid : ℕ) (leaves : Bool)

def World.step (w : World) : Move → World
  | .starts command => { w with slots := w.slots ++ [.starting command] }
  | .signsOut order =>
      if order.isPerm File.all then { w with slots := w.slots ++ [.logout (logout order)] } else w
  | .runs pid input => w.run pid input
  | .kills pid leaves => w.kill pid leaves

/-- A state directory before any process, of which every credential counts as of
the session. -/
def opened (files : File → Option Content) (epoch made : ℕ) : World :=
  ⟨files, [], epoch, none, false, [], made, 0, 0, []⟩

end Cloud

end T3

end CybexOS
