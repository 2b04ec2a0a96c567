/-
A prompt sent to a remote Hermes WebUI (`hermes_bridge.py`): one HTTP exchange,
the fault it is turned into and what the bridge reports of the prompt.
-/
import CybexOS.Text
import Mathlib.Data.Int.Notation

namespace CybexOS

namespace Hermes

/-! ### The exchange -/

/-- The fields of a JSON answer that the bridge reads, as texts without blanks
around them; `type` and `code` in lower case. -/
structure Fields where
  streamId : Text
  type : Text
  code : Text
  retryable : Option Bool
  activeStreamId : Text
deriving DecidableEq

/-- What `json.loads` makes of a body. -/
inductive Parsed where
  | unreadable
  | noObject
  | object (fields : Fields)
deriving DecidableEq

/-- An HTTP response: `loginUrl` and `loginLocation` tell whether its URL and its
`Location` are those of a sign-in page, `html` and `loginWords` whether its body
reads like one. -/
structure Response where
  status : Nat
  loginUrl : Bool
  loginLocation : Bool
  html : Bool
  loginWords : Bool
  size : Nat
  body : Parsed
deriving DecidableEq

def Response.success (response : Response) : Bool := 200 ≤ response.status && response.status < 300

/-- How the exchange ends below `_request`; `broken` is an exception that is no
`OSError`. -/
inductive Wire where
  | unconfigured
  | loginRedirect (status : Nat)
  | redirectBlocked
  | transport
  | broken
  | answered (response : Response)
deriving DecidableEq

/-- An exchange with Hermes; `accepted` tells whether it took the prompt, which
it does not when it answers anything but a success. -/
structure Exchange where
  wire : Wire
  accepted : Bool
  honest : match wire with
    | .unconfigured | .loginRedirect _ | .redirectBlocked => accepted = false
    | .transport | .broken => True
    | .answered response => response.success = false → accepted = false

/-! ### Faults -/

/-- An `RpcFault` with the details that it carries. -/
structure RemoteFault where
  code : ℤ
  message : Text
  statusCode : Option Nat
  errorType : Text
  errorCode : Text
  retryable : Option Bool
  activeStreamId : Text
  promptAccepted : Option Bool
deriving DecidableEq

def plainFault (code : ℤ) (message : Text) : RemoteFault :=
  ⟨code, message, none, [], [], none, [], none⟩

/-- What leaves `request_json` instead of an answer. -/
inductive Raised where
  | ambiguousDelivery
  | fault (fault : RemoteFault)
  | other
deriving DecidableEq

def MAX_REMOTE_AUTH_RESPONSE : Nat := 2 * 1024 * 1024

def Response.loginPage (response : Response) : Bool :=
  response.status = 401 || response.loginUrl || response.loginLocation ||
    (response.html && response.loginWords)

/-- `[a-z][a-z0-9_-]{0,63}` -/
def isErrorName : Text → Bool
  | [] => false
  | c :: rest => isLower c && rest.length ≤ 63 &&
      rest.all fun d => isLower d || isDigit d || d == 95 || d == 45

/-- `[A-Za-z0-9_-]{1,128}` -/
def isStreamName (text : Text) : Bool :=
  1 ≤ text.length && text.length ≤ 128 && text.all fun c => isAlnum c || c == 95 || c == 45

def jsonResponse (response : Response) : Except RemoteFault Fields :=
  match response.body with
  | .object fields => .ok fields
  | _ => .error (plainFault (-32041) (ascii "Remote Hermes returned invalid JSON"))

def Fields.none : Fields := ⟨[], [], [], .none, []⟩

/-- `_http_error_fault`; `number` writes the status. -/
def httpErrorFault (number : Nat → Text) (response : Response) : RemoteFault :=
  let value := match jsonResponse response with
    | .ok fields => fields
    | .error _ => .none
  let errorType := if isErrorName value.type then value.type else []
  let errorCode := if isErrorName value.code then value.code else []
  let activeStreamId := if isStreamName value.activeStreamId then value.activeStreamId else []
  let message :=
    if errorType = ascii "agent_runtime_stale" then
      ascii "Remote Hermes fell back to a stale in-process Agent runtime. " ++
        ascii "Restore gateway-backed chat, then retry; this prompt was not accepted."
    else if activeStreamId ≠ [] ∨ errorType ∈ [ascii "active_stream",
        ascii "chat_already_running", ascii "session_busy", ascii "stream_conflict"] then
      ascii "This Hermes session already has an active response; " ++
        ascii "the new prompt was not accepted."
    else if errorCode = ascii "stale_regeneration_revision" then
      ascii "This conversation changed; refresh it before regenerating"
    else if errorCode = ascii "unsupported_regeneration_backend" then
      ascii "Regeneration is unavailable on this Hermes backend"
    else if errorCode = ascii "invalid_regeneration_request" then
      ascii "Hermes rejected the regeneration request"
    else ascii "Remote Hermes returned HTTP " ++ number response.status
  ⟨-32041, message, some response.status, errorType, errorCode, value.retryable,
    activeStreamId, none⟩

section

variable (number : Nat → Text) (sessionFault : Nat → RemoteFault)

/-- `_request_json_sync` for the start of a chat; `sessionFault` is the fault of
a challenge to sign in. -/
def requestJson : Wire → Except Raised Fields
  | .unconfigured => .error (.fault (plainFault (-32040) (ascii "Remote Hermes is not configured")))
  | .loginRedirect status => .error (.fault (sessionFault status))
  | .redirectBlocked =>
      .error (.fault (plainFault (-32041)
        (ascii "Remote Hermes attempted a cross-origin redirect")))
  | .transport => .error .ambiguousDelivery
  | .broken => .error .other
  | .answered response =>
      if MAX_REMOTE_AUTH_RESPONSE < response.size then
        .error (.fault (plainFault (-32041) (ascii "Remote Hermes response is too large")))
      else if response.loginPage then .error (.fault (sessionFault response.status))
      else if !response.success then .error (.fault (httpErrorFault number response))
      else (jsonResponse response).mapError .fault

/-! ### The report -/

/-- What a submission ends with: the stream or what was raised, and the
conversation's `has_messages`, `status` and `status_text`. -/
structure Submission where
  result : Except Raised Text
  hasMessages : Bool
  status : Text × Text
deriving DecidableEq

/-- `remote_prompt_submit`, from the request on; `previous` is `has_messages`
before it. -/
def remotePromptSubmit (previous : Bool) (wire : Wire) : Submission :=
  let working := (ascii "working", ascii "Hermes is working…")
  match requestJson number sessionFault wire with
  | .error .ambiguousDelivery => ⟨.error .ambiguousDelivery, true,
      (ascii "reconnecting", ascii "Checking remote Hermes after disconnect…")⟩
  | .error (.fault fault) =>
      let refused := { fault with promptAccepted := some false }
      if fault.activeStreamId ≠ [] then ⟨.error (.fault refused), true,
        (ascii "working", ascii "Following the existing Hermes response…")⟩
      else ⟨.error (.fault refused), previous, (ascii "error", fault.message)⟩
  | .error .other => ⟨.error .other, previous, working⟩
  | .ok fields =>
      if fields.streamId = [] then
        ⟨.error (.fault (plainFault (-32045)
          (ascii "Remote Hermes did not start a response stream"))), previous, working⟩
      else ⟨.ok fields.streamId, true, working⟩

end

/-- The prompt is called definitely not delivered, or its conversation empty
although the prompt failed. -/
def Submission.denies (submission : Submission) : Bool :=
  match submission.result with
  | .ok _ => false
  | .error (.fault fault) => fault.promptAccepted = some false || !submission.hasMessages
  | .error _ => !submission.hasMessages

end Hermes

end CybexOS
