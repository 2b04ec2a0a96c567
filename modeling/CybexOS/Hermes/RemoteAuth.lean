/-
The remote session of the Hermes bridge (`RemoteWebUIAuth`): its origin, cookies,
status and credential file, and the exchanges that sign in and out, probe and
request without holding its lock.
-/
import CybexOS.Decimal
import CybexOS.Displays.PyValidate
import CybexOS.Runs
import CybexOS.Text
import CybexOS.Utf8
import Mathlib.Data.Int.Notation
import Mathlib.Logic.Function.Basic

namespace CybexOS

namespace Hermes

namespace Auth

inductive Source where
  | none
  | environment
  | persisted
  | candidate
deriving DecidableEq

inductive State where
  | disconnected
  | connecting
  | connected
  | expired
  | error
deriving DecidableEq

structure Status where
  state : State
  configured : Bool
  url : Text
  reachable : Bool
  authEnabled : Bool
  authenticated : Bool
  loggedIn : Bool
  passwordAuthEnabled : Bool
  hasSessionCredential : Bool
  source : Source
  message : Text
  errorKind : Text
  statusCode : Nat
deriving DecidableEq

structure Cookie where
  name : Text
  value : Text
  domain : Text
  path : Text
  expires : Option Nat
deriving DecidableEq

/-- The document of the credential file. -/
structure Saved where
  baseUrl : Text
  cookies : List Cookie
deriving DecidableEq

/-! ### Answers -/

/-- The fields of a JSON object that sign-in and probe read; a field that is
absent is `none`, and any value but `true` counts as false. -/
structure Body where
  ok : Bool
  authEnabled : Option Bool
  loggedIn : Option Bool
  passwordAuthEnabled : Bool
deriving DecidableEq

/-- The end of `_request`: a sign-in challenge, a redirect to another origin, no
connection, a fault, or a response with its body if that is a JSON object. -/
inductive Answer where
  | challenged (status : Nat)
  | redirected
  | unreachable
  | fault (message : Text)
  | response (status : Nat) (body : Option Body)
deriving DecidableEq

/-- The status of an answer that asks for a sign-in. -/
def Answer.challenge : Answer → Option Nat
  | .challenged status => some status
  | .response status _ => if status = 401 then some status else none
  | _ => none

/-- What a call raises: a plain `RpcFault`, or a `RemoteLoginFault` with the
status that is published for it. -/
inductive Fault where
  | rpc (code : ℤ) (message : Text)
  | login (code : ℤ) (message : Text) (status : Status)
  | other
deriving DecidableEq

def httpMessage (status : Nat) : Text := ascii "Remote Hermes returned HTTP " ++ digitsOf status

def success (status : Nat) : Bool := 200 ≤ status && status < 300

end Auth

open Auth

/-- An exchange without the lock: the session that it uses, and for a sign-in
also the session that was current when it began. -/
inductive Auth.Exchange where
  | request (baseUrl : Text) (jar : Nat)
  | logout (baseUrl : Text) (jar : Nat)
  | probe (baseUrl : Text) (jar : Nat) (isCurrent : Bool) (source : Auth.Source)
  | login (baseUrl : Text) (jar : Nat) (begunUrl : Text) (begunJar : Nat)
deriving DecidableEq

/-- The jar of an exchange. -/
def Auth.Exchange.jar : Exchange → Nat
  | .request _ jar | .logout _ jar | .probe _ jar _ _ | .login _ jar _ _ => jar

/-- The session that an exchange was begun under. -/
def Auth.Exchange.begun : Exchange → Text × Nat
  | .request baseUrl jar | .logout baseUrl jar | .probe baseUrl jar _ _ => (baseUrl, jar)
  | .login _ _ begunUrl begunJar => (begunUrl, begunJar)

/-- The session manager. Cookie jars are objects; `jars` holds their cookies and
`made` counts them. -/
structure Auth where
  environmentUrl : Text
  baseUrl : Text
  jar : Nat
  jars : Nat → List Auth.Cookie
  made : Nat
  source : Auth.Source
  status : Auth.Status
  file : Option Auth.Saved
  now : Nat
  exchanges : List Auth.Exchange

/-- How an exchange ends; `written` and `deleted` tell whether the credential
file could be changed. -/
inductive Auth.Ending where
  | request (answer : Auth.Answer) (written : Bool)
  | logout (answer : Auth.Answer) (deleted : Bool)
  | probe (answer : Auth.Answer) (written : Bool)
  | login (posted probed : Auth.Answer) (written : Bool)

/-- What happens to the session manager, in any order. -/
inductive Auth.Move where
  | connects (url : Option Text)
  | beginsRequest
  | beginsLogout
  | beginsProbe (url : Option Text)
  | beginsLogin (url : Option Text)
  | sets (exchange : Nat) (cookies : List Auth.Cookie)
  | ends (exchange : Nat) (ending : Auth.Ending)
  | ticks

namespace Auth

section

variable (normalizeRemoteUrl : Text → Except Text Text) (hostOf : Text → Text)

/-! ### Status and credential file -/

/-- `_make_status`; a status without `url`, `configured` and `source` of its own
takes those of the session. -/
def makeStatus (a : Auth) (state : State) (url : Text) (configured : Bool) (source : Source)
    (message : Text) : Status where
  state := state
  configured := configured
  url := url
  reachable := false
  authEnabled := false
  authenticated := false
  loggedIn := false
  passwordAuthEnabled := false
  hasSessionCredential := a.jars a.jar ≠ []
  source := source
  message := message
  errorKind := []
  statusCode := 0

/-- `cookie.is_expired` -/
def expired (now : Nat) (cookie : Cookie) : Bool := cookie.expires.any fun time => time ≤ now

def lowerHost (host : Text) : Text :=
  (host.dropWhile (· = 46)).map fun c => if isUpper c then c + 32 else c

/-- `_cookie_rows` -/
def cookieRows (now : Nat) (baseUrl : Text) (cookies : List Cookie) : List Cookie :=
  (cookies.filter fun cookie => ¬ expired now cookie ∧ lowerHost cookie.domain = hostOf baseUrl).map
    fun cookie => { cookie with
      domain := hostOf baseUrl, path := if cookie.path = [] then [47] else cookie.path }

/-- `_save`, which without an origin deletes the file; it may fail. -/
def save (a : Auth) (written : Bool) : Option Auth :=
  if written then
    some { a with
      file := if a.baseUrl = [] then none
        else some ⟨a.baseUrl, cookieRows hostOf a.now a.baseUrl (a.jars a.jar)⟩ }
  else none

/-- `self.cookie_jar = CookieJar()` -/
def newJar (a : Auth) : Auth :=
  { a with jar := a.made, jars := Function.update a.jars a.made [], made := a.made + 1 }

/-- `_delete_file` and the status of a session that was signed out. -/
def signOut (a : Auth) (deleted remoteLogout : Bool) : Auth :=
  if deleted then
    let cleared := { a.newJar with
      file := none, baseUrl := a.environmentUrl,
      source := if a.environmentUrl = [] then .none else .environment }
    { cleared with
      status := cleared.makeStatus .disconnected cleared.baseUrl (cleared.baseUrl ≠ [])
        cleared.source (if remoteLogout then ascii "Remote Hermes signed out"
          else ascii "Saved remote session was removed") }
  else a.newJar

/-- Drop the cookies of the session, and save that if it is a saved session. -/
def dropCookies (a : Auth) (written : Bool) : Option Auth :=
  if a.source = .persisted then a.newJar.save hostOf written else some a.newJar

/-- `_expire_session_locked` -/
def expireSession (a : Auth) (statusCode : Nat) (written : Bool) : Auth :=
  match a.dropCookies hostOf written with
  | none => a.newJar
  | some dropped =>
      { dropped with
        status := { dropped.makeStatus .expired dropped.baseUrl (dropped.baseUrl ≠ [])
            dropped.source (ascii "Remote Hermes authentication is required") with
          reachable := true, authEnabled := true, statusCode := statusCode } }

/-! ### Exchanges -/

/-- The URL that a sign-in shows; a missing one is that of the session. -/
def displayUrl (a : Auth) : Option Text → Except Text Text
  | none | some [] => .ok a.baseUrl
  | some url => normalizeRemoteUrl url

/-- `connecting_status` -/
def connectingStatus (a : Auth) (url : Option Text) : Except Text Auth :=
  (a.displayUrl normalizeRemoteUrl url).map fun display =>
    { a with
      status := a.makeStatus .connecting display (display ≠ []) a.source
        (ascii "Signing in to remote Hermes…") }

/-- `_probe_base` -/
def probeBase (a : Auth) (baseUrl : Text) (configured : Bool) (source : Source) : Answer → Status
  | .challenged status =>
      { a.makeStatus .expired baseUrl configured source
          (ascii "Remote Hermes authentication is required") with
        reachable := true, authEnabled := true, statusCode := status }
  | .redirected =>
      { a.makeStatus .error baseUrl configured source
          (ascii "Remote Hermes attempted a cross-origin redirect") with
        reachable := true, errorKind := ascii "redirect" }
  | .unreachable =>
      { a.makeStatus .error baseUrl configured source (ascii "Remote Hermes is unreachable") with
        errorKind := ascii "offline" }
  | .fault message =>
      { a.makeStatus .error baseUrl configured source message with
        reachable := true, errorKind := ascii "protocol" }
  | .response status body =>
      if success status = false then
        { a.makeStatus .error baseUrl configured source (httpMessage status) with
          reachable := true, errorKind := ascii "http", statusCode := status }
      else
        match body with
        | none =>
            { a.makeStatus .error baseUrl configured source
                (ascii "Remote Hermes returned invalid JSON") with
              reachable := true, errorKind := ascii "protocol" }
        | some body =>
            match body.authEnabled, body.loggedIn with
            | some authEnabled, some loggedIn =>
                let connected := !authEnabled || loggedIn
                { a.makeStatus (if connected then .connected else .expired) baseUrl configured source
                    (if connected then ascii "Remote Hermes is connected"
                      else ascii "Remote Hermes authentication is required") with
                  reachable := true, authEnabled := authEnabled, authenticated := connected,
                  loggedIn := loggedIn, passwordAuthEnabled := body.passwordAuthEnabled }
            | _, _ =>
                { a.makeStatus .error baseUrl configured source
                    (ascii "Remote endpoint is not a compatible Hermes WebUI") with
                  reachable := true, errorKind := ascii "protocol" }

/-- The commit of `_probe_sync`. -/
def endProbe (a : Auth) (baseUrl : Text) (jar : Nat) (isCurrent : Bool) (source : Source)
    (answer : Answer) (written : Bool) : Auth :=
  let status := a.probeBase baseUrl isCurrent source answer
  if isCurrent = false ∨ a.baseUrl ≠ baseUrl ∨ a.jar ≠ jar then a
  else if status.state = .expired ∧ a.jars jar ≠ [] then
    match a.dropCookies hostOf written with
    | none => a.newJar
    | some dropped => { dropped with status := { status with hasSessionCredential := false } }
  else { a with status := status }

/-- `_session_fault` of a challenged request; other answers change nothing. -/
def endRequest (a : Auth) (baseUrl : Text) (jar : Nat) (answer : Answer) (written : Bool) : Auth :=
  match answer.challenge with
  | some status =>
      if a.baseUrl = baseUrl ∧ a.jar = jar then a.expireSession hostOf status written else a
  | none => a

def endLogout (a : Auth) (baseUrl : Text) (answer : Answer) (deleted : Bool) : Auth :=
  a.signOut deleted (baseUrl ≠ [] && match answer with
    | .response status _ => success status
    | _ => false)

/-- The commit of a sign-in. -/
def install (a : Auth) (baseUrl : Text) (jar : Nat) (status : Status) (written : Bool) :
    Auth × Except Fault Status :=
  let installed := { a with
    baseUrl := baseUrl, jar := jar, source := .persisted,
    status := { status with source := .persisted, hasSessionCredential := a.jars jar ≠ [] } }
  match installed.save hostOf written with
  | some saved => (saved, .ok installed.status)
  | none => (installed, .error .other)

/-- What `_login_sync` raises or returns, and the session that it leaves. -/
def endLogin (a : Auth) (baseUrl : Text) (jar : Nat) (posted probed : Answer) (written : Bool) :
    Auth × Except Fault Status :=
  let status (state : State) (message : String) :=
    a.makeStatus state baseUrl (baseUrl = a.baseUrl) a.source (ascii message)
  match posted with
  | .challenged code =>
      let rejected := { status .expired "Remote Hermes rejected the sign-in" with
        reachable := true, authEnabled := true, statusCode := code }
      (if baseUrl = a.baseUrl ∨ a.baseUrl = [] then { a with status := rejected } else a,
        .error (.login (-32040) (ascii "Remote Hermes rejected the sign-in") rejected))
  | .redirected =>
      let blocked := { status .error "Remote Hermes attempted a cross-origin redirect" with
        reachable := true, errorKind := ascii "redirect" }
      (a, .error (.login (-32041) blocked.message blocked))
  | .unreachable =>
      let offline := { status .error "Remote Hermes is unreachable" with
        errorKind := ascii "offline" }
      (a, .error (.login (-32042) offline.message offline))
  | .fault message => (a, .error (.rpc (-32041) message))
  | .response code body =>
      if code = 429 then
        let limited := { status .error "Remote Hermes temporarily rate-limited sign-in" with
          reachable := true, errorKind := ascii "rate-limit" }
        (a, .error (.login (-32044) limited.message limited))
      else if success code = false then
        let failed := { a.makeStatus .error baseUrl (baseUrl = a.baseUrl) a.source
            (httpMessage code) with
          reachable := true, errorKind := ascii "http", statusCode := code }
        (a, .error (.login (-32041) failed.message failed))
      else
        match body with
        | none => (a, .error (.rpc (-32041) (ascii "Remote Hermes returned invalid JSON")))
        | some body =>
            if body.ok = false then
              let rejected := { status .expired "Remote Hermes rejected the sign-in" with
                reachable := true, authEnabled := true }
              (a, .error (.login (-32040) rejected.message rejected))
            else
              let probe := a.probeBase baseUrl true .persisted probed
              if probe.state = .connected then a.install hostOf baseUrl jar probe written
              else
                (a, .error (.login (-32040)
                  (if probe.state = .expired then ascii "Remote Hermes rejected the sign-in"
                    else probe.message) probe))

def commit (a : Auth) : Exchange → Ending → Auth
  | .request baseUrl jar, .request answer written => a.endRequest hostOf baseUrl jar answer written
  | .logout baseUrl _, .logout answer deleted => a.endLogout baseUrl answer deleted
  | .probe baseUrl jar isCurrent source, .probe answer written =>
      a.endProbe hostOf baseUrl jar isCurrent source answer written
  | .login baseUrl jar _ _, .login posted probed written =>
      (a.endLogin hostOf baseUrl jar posted probed written).1
  | _, _ => a

/-- The ending is one of the exchange's kind. -/
def Exchange.endsWith : Exchange → Ending → Bool
  | .request .., .request .. | .logout .., .logout .. | .probe .., .probe .. | .login .., .login .. =>
      true
  | _, _ => false

def withExchange (a : Auth) (exchange : Exchange) : Auth :=
  { a with exchanges := a.exchanges ++ [exchange] }

/-- An exchange with a jar of its own. -/
def withJar (a : Auth) (exchange : Nat → Exchange) : Auth :=
  { a with
    jars := Function.update a.jars a.made [], made := a.made + 1,
    exchanges := a.exchanges ++ [exchange a.made] }

/-- The locked snapshot of `_probe_sync`. -/
def beginProbe (a : Auth) (url : Option Text) : Auth :=
  match url.filter fun text => Displays.Py.strip text ≠ [] with
  | none =>
      if a.baseUrl = [] then
        { a with
          status := a.makeStatus .disconnected [] false a.source
            (ascii "Remote Hermes is not configured") }
      else a.withExchange (.probe a.baseUrl a.jar true a.source)
  | some text =>
      match normalizeRemoteUrl text with
      | .error _ => a
      | .ok baseUrl =>
          if baseUrl = a.baseUrl then a.withExchange (.probe baseUrl a.jar true a.source)
          else a.withJar fun jar => .probe baseUrl jar false .candidate

/-- One move; a move that cannot happen changes nothing. -/
def step (a : Auth) : Move → Auth
  | .connects url =>
      match a.connectingStatus normalizeRemoteUrl url with
      | .ok connecting => connecting
      | .error _ => a
  | .beginsRequest => if a.baseUrl = [] then a else a.withExchange (.request a.baseUrl a.jar)
  | .beginsLogout => a.withExchange (.logout a.baseUrl a.jar)
  | .beginsProbe url => a.beginProbe normalizeRemoteUrl url
  | .beginsLogin url =>
      match url.map normalizeRemoteUrl with
      | some (.ok baseUrl) => a.withJar fun jar => .login baseUrl jar a.baseUrl a.jar
      | _ => a
  | .sets index cookies =>
      match a.exchanges[index]? with
      | some exchange => { a with jars := Function.update a.jars exchange.jar cookies }
      | none => a
  | .ends index ending =>
      match a.exchanges[index]? with
      | some exchange =>
          if exchange.endsWith ending then
            { a with exchanges := a.exchanges.eraseIdx index }.commit hostOf exchange ending
          else a
      | none => a
  | .ticks => { a with now := a.now + 1 }

/-- `_cookie_from_row` -/
def cookieFromRow (now : Nat) (baseUrl : Text) (row : Cookie) : Option Cookie :=
  let domain := (lowerHost row.domain).rdropWhile (· = 46)
  let path := if row.path = [] then [47] else row.path
  if row.name = [] ∨ 256 < row.name.length ∨ 16384 < row.value.length ∨
      (row.name ++ row.value).any (· < 32) ∨ domain ≠ hostOf baseUrl ∨
      path.head? ≠ some 47 ∨ 2048 < path.length ∨ expired now row then
    none
  else some { row with domain := domain, path := path }

/-- `__init__`, with the document of the credential file if there is one. -/
def opened (environmentUrl : Text) (file : Option Saved) (now : Nat) : Auth :=
  let blank : Status :=
    ⟨.disconnected, false, [], false, false, false, false, false, false, .none,
      ascii "Remote Hermes is not configured", [], 0⟩
  let none_ : Auth := ⟨environmentUrl, [], 0, fun _ => [], 1, .none, blank, file, now, []⟩
  match file with
  | some saved =>
      let loaded := { none_ with
        baseUrl := saved.baseUrl, source := .persisted,
        jars := fun jar =>
          if jar = 0 then saved.cookies.filterMap (cookieFromRow hostOf now saved.baseUrl) else [] }
      { loaded with
        status := loaded.makeStatus .disconnected saved.baseUrl true .persisted
          (ascii "Saved remote session has not been checked") }
  | none =>
      if environmentUrl = [] then none_
      else
        let configured := { none_ with baseUrl := environmentUrl, source := .environment }
        { configured with
          status := configured.makeStatus .disconnected environmentUrl true .environment
            (ascii "Remote Hermes has not been checked") }

/-! ### Signing in -/

/-- `remote.login`, alone: the connecting status, the checks of `login`, and
`_login_sync` with the cookies that the server sets. -/
def remoteLogin (a : Auth) (url password : Option Text) (posted probed : Answer)
    (cookies : List Cookie) (written : Bool) : Auth × Except Fault Status :=
  match a.connectingStatus normalizeRemoteUrl url with
  | .error message => (a, .error (.rpc (-32602) message))
  | .ok connecting =>
      match password.getD [] with
      | [] => (connecting, .error (.rpc (-32602) (ascii "Password is required")))
      | first :: rest =>
          match Utf8.encode (first :: rest) with
          | none => (connecting, .error .other)
          | some bytes =>
              if 65536 < bytes.length then
                (connecting, .error (.rpc (-32602) (ascii "Password is too large")))
              else
                match url.map normalizeRemoteUrl with
                | none =>
                    (connecting, .error (.rpc (-32602) (ascii "Remote Hermes URL is required")))
                | some (.error message) => (connecting, .error (.rpc (-32602) message))
                | some (.ok baseUrl) =>
                    { connecting with
                      jars := Function.update connecting.jars connecting.made cookies,
                      made := connecting.made + 1 }.endLogin hostOf baseUrl connecting.made posted
                        probed written

end

end Auth

end Hermes

end CybexOS
