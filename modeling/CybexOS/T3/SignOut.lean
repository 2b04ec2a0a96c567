/-
A finished T3 Connect sign-out is final, unless a helper starts inside it or is
killed between a temporary file and its renaming.
-/
import CybexOS.Runs
import CybexOS.T3.Cloud

namespace CybexOS

namespace T3

namespace Cloud

open Process

/-! ### The property -/

/-- Every client and key that the credential comes from is new since then. -/
def Token.Since (since : ℕ) (token : Token) : Prop := ∀ origin ∈ token.origins, since ≤ origin

instance (since : ℕ) (token : Token) : Decidable (token.Since since) :=
  inferInstanceAs (Decidable (∀ origin ∈ token.origins, since ≤ origin))

def Content.Since (since : ℕ) (content : Content) : Prop :=
  ∀ token ∈ content.tokens, token.Since since

/-- No file holds a credential of a session that a sign-out has ended, and no
helper prints a result after a sign-out that it started before. -/
structure Final (w : World) : Prop where
  files : ∀ file, ∀ content ∈ w.files file, content.Since w.ended
  leftovers : ∀ item ∈ w.leftovers, item.1 ≠ .connection → item.2.Since w.ended
  printed : ∀ record ∈ w.printed, record.1 = record.2

/-- No helper starts while a sign-out has changed the epoch and not yet removed
the files, or is killed while it writes one of the private directory; and the
epoch stays a safe integer. -/
def Fit (w : World) (move : Move) : Prop :=
  match move with
  | .runs pid _ =>
      match w.slots[pid]? with
      | some (.starting _) => w.published = false
      | some (.logout (.step (.publish epoch) _)) => epoch ≤ MAX_SAFE_INTEGER
      | _ => True
  | .kills pid leaves => leaves = true → ∀ slot ∈ w.slots[pid]?, ∀ item ∈ World.leftover slot,
      item.1 = .connection
  | _ => True

/-! ### What helpers do -/

/-- Whether a process holds the lock, and has found its epoch under it. -/
inductive Phase where
  | free
  | held
  | checked
deriving DecidableEq

/-- What helpers do with credentials since then: they write and print under the
lock, after they found their epoch, and only new credentials. -/
def allows (expected since : ℕ) : (op : Op) → Phase → (Answer op → Phase → Prop) → Prop
  | .read _, phase, post => ∀ content : Option Content,
      (∀ held ∈ content, held.Since since) → post content phase
  | .ask bearing, phase, post => (∀ token ∈ bearing, token.Since since) ∧
      ∀ (reply : Reply) (token : Token), token.Since since → post (reply, token) phase
  | .generate, phase, post => ∀ token : Token, token.Since since → post token phase
  | .outcome, phase, post => ∀ outcome : Bool, post outcome phase
  | .localId, phase, post => ∀ id : Text, post id phase
  | .now, phase, post => ∀ now : ℤ, post now phase
  | .request, phase, post => ∀ request : Request, post request phase
  | .acquire, phase, post => phase = .free ∧ post true .held ∧ post false .free
  | .release, phase, post => phase ≠ .free ∧ post () .free
  | .epoch, phase, post => (phase = .free → ∀ epoch : ℕ, post epoch .free) ∧
      (phase ≠ .free → post expected .checked ∧ ∀ epoch : ℕ, epoch ≠ expected → post epoch .held)
  | .publish _, _, _ => False
  | .write _ content, phase, post => phase = .checked ∧ content.Since since ∧ post () phase
  | .remove _, phase, post => phase = .checked ∧ post () phase
  | .print _, phase, post => phase = .checked ∧ post () phase

theorem allows_mono {expected since : ℕ} (op : Op) (phase : Phase)
    (first second : Answer op → Phase → Prop)
    (h : ∀ answer phase, first answer phase → second answer phase)
    (hfirst : allows expected since op phase first) : allows expected since op phase second := by
  cases op with
  | read => exact fun content hcontent => h _ _ (hfirst content hcontent)
  | ask => exact ⟨hfirst.1, fun reply token htoken => h _ _ (hfirst.2 reply token htoken)⟩
  | generate => exact fun token htoken => h _ _ (hfirst token htoken)
  | acquire => exact ⟨hfirst.1, h _ _ hfirst.2.1, h _ _ hfirst.2.2⟩
  | release => exact ⟨hfirst.1, h _ _ hfirst.2⟩
  | epoch =>
      exact ⟨fun hfree epoch => h _ _ (hfirst.1 hfree epoch), fun hheld =>
        ⟨h _ _ (hfirst.2 hheld).1, fun epoch hne => h _ _ ((hfirst.2 hheld).2 epoch hne)⟩⟩
  | publish => exact hfirst
  | write => exact ⟨hfirst.1, hfirst.2.1, h _ _ hfirst.2.2⟩
  | remove => exact ⟨hfirst.1, h _ _ hfirst.2⟩
  | print => exact ⟨hfirst.1, h _ _ hfirst.2⟩
  | _ => exact fun answer => h _ _ (hfirst answer)

section

variable {α β : Type} {expected since : ℕ}

/-- Without the lock, the helper does what is allowed and comes to something
good, if to anything. -/
def Safe (expected since : ℕ) (good : α → Prop) (helper : Helper α) : Prop :=
  helper.Does (allows expected since)
    (fun result phase => phase = .free ∧ ∀ value, result = .ok value → good value) .free

theorem safe_done {good : α → Prop} {value : α} (h : good value) :
    Safe expected since good (.done value) :=
  ⟨rfl, fun _ hvalue => Except.ok.inj hvalue ▸ h⟩

theorem safe_throw {good : α → Prop} {fault : Fault} :
    Safe expected since good (.throw fault : Helper α) := ⟨rfl, nofun⟩

theorem Safe.bind {good : α → Prop} {better : β → Prop} {helper : Helper α}
    {next : α → Helper β} (h : Safe expected since good helper)
    (hnext : ∀ value, good value → Safe expected since better (next value)) :
    Safe expected since better (helper >>= next) := by
  refine does_bind.mpr (h.imp allows_mono fun result phase hend => ?_)
  obtain ⟨rfl, hgood⟩ := hend
  cases result with
  | ok value => exact hnext value (hgood value rfl)
  | error fault => exact ⟨rfl, nofun⟩

theorem Safe.forget {good : α → Prop} {helper : Helper α} (h : Safe expected since good helper) :
    Safe expected since (fun _ => True) helper :=
  Does.imp allows_mono h fun _ _ hend => ⟨hend.1, fun _ _ => trivial⟩

theorem Safe.handling {good : α → Prop} {helper : Helper α} {handler : Fault → Helper α}
    (h : Safe expected since good helper)
    (hhandler : ∀ fault, Safe expected since good (handler fault)) :
    Safe expected since good (helper.handling handler) := by
  refine does_handling.mpr (h.imp allows_mono fun result phase hend => ?_)
  obtain ⟨rfl, hgood⟩ := hend
  cases result with
  | ok value => exact ⟨rfl, hgood⟩
  | error fault => exact hhandler fault

theorem Safe.attempt {good : α → Prop} {helper : Helper α} (h : Safe expected since good helper) :
    Safe expected since (fun result => ∀ value, result = .ok value → good value) helper.attempt := by
  refine does_attempt.mpr (h.imp allows_mono fun result phase hend => ?_)
  refine ⟨hend.1, fun value hvalue => ?_⟩
  obtain rfl := Except.ok.inj hvalue
  exact hend.2

theorem Safe.ensuring {good : α → Prop} {helper : Helper α} {cleanup : Helper Unit}
    (h : Safe expected since good helper) (hcleanup : Safe expected since (fun _ => True) cleanup) :
    Safe expected since good (helper.ensuring cleanup) := by
  refine does_andThen.mpr (h.imp allows_mono fun result phase hend => ?_)
  obtain ⟨rfl, hgood⟩ := hend
  refine does_andThen.mpr (hcleanup.imp allows_mono fun ended phase hended => ?_)
  obtain ⟨rfl, -⟩ := hended
  cases ended with
  | ok _ => exact does_ofExcept.mpr ⟨rfl, hgood⟩
  | error fault => exact ⟨rfl, nofun⟩

theorem safe_ofExcept {good : α → Prop} {result : Except Fault α}
    (h : ∀ value, result = .ok value → good value) :
    Safe expected since good (ofExcept result : Helper α) :=
  does_ofExcept.mpr ⟨rfl, h⟩

theorem safe_demand {condition : Prop} [Decidable condition] :
    Safe expected since (fun _ => condition) (demand condition) := by
  unfold demand
  split_ifs with hcondition
  · exact safe_done hcondition
  · exact safe_throw

/-- Under the lock with the epoch found, the action does what is allowed. -/
theorem safe_guarded {good : α → Prop} {action : Helper α}
    (h : action.Does (allows expected since)
      (fun result phase => phase = .checked ∧ ∀ value, result = .ok value → good value) .checked) :
    Safe expected since good (guarded expected action) := by
  have hrelease (result : Except Fault α) (phase : Phase) (hphase : phase ≠ .free)
      (hgood : ∀ value, result = .ok value → good value) :
      (releaseLock.andThen fun
        | .ok () => ofExcept result
        | .error error => .throw error).Does (allows expected since)
        (fun result phase => phase = .free ∧ ∀ value, result = .ok value → good value) phase :=
    ⟨hphase, does_ofExcept.mpr ⟨rfl, hgood⟩⟩
  have hlocked : ((readSessionEpoch >>= fun epoch =>
      if epoch = expected then action else .throw .sessionChanged : Helper α).ensuring
        releaseLock).Does (allows expected since)
      (fun result phase => phase = .free ∧ ∀ value, result = .ok value → good value) .held := ?_
  · have hother : Safe expected since good (.throw .other) := safe_throw
    exact does_bind.mpr (does_call.mpr ⟨rfl, hlocked, hother⟩)
  refine does_andThen.mpr (does_bind.mpr (does_call.mpr
    ⟨nofun, fun _ => ⟨?_, fun epoch hne => ?_⟩⟩))
  · change (if expected = expected then action else _).Does _ _ Phase.checked
    rw [if_pos rfl]
    refine h.imp allows_mono fun result phase hend => hrelease result phase ?_ hend.2
    rw [hend.1]
    nofun
  · change (if epoch = expected then action else _).Does _ _ Phase.held
    rw [if_neg hne]
    exact hrelease _ _ nofun nofun

/-! ### The operations -/

theorem safe_pure {good : α → Prop} {value : α} (h : good value) :
    Safe expected since good (pure value : Helper α) := safe_done h

theorem safe_read {file : File} :
    Safe expected since (fun content => ∀ held ∈ content, held.Since since) (read file) :=
  fun _ hcontent => safe_done hcontent

theorem safe_ask {bearing : List Token} (h : ∀ token ∈ bearing, token.Since since) :
    Safe expected since (fun answer => answer.2.Since since) (ask bearing) :=
  ⟨h, fun _ _ htoken => ⟨rfl, fun _ hvalue => Except.ok.inj hvalue ▸ htoken⟩⟩

theorem safe_generate : Safe expected since (Token.Since since) generate :=
  fun _ htoken => safe_done htoken

theorem safe_outcome : Safe expected since (fun _ => True) outcome := fun _ => safe_done trivial

theorem safe_localEnvironmentId : Safe expected since (fun _ => True) localEnvironmentId :=
  fun _ => safe_done trivial

theorem safe_currentTime : Safe expected since (fun _ => True) currentTime :=
  fun _ => safe_done trivial

theorem safe_nextRequest : Safe expected since (fun _ => True) nextRequest :=
  fun _ => safe_done trivial

theorem safe_readSessionEpoch : Safe expected since (fun _ => True) readSessionEpoch :=
  ⟨fun _ _ => safe_done trivial, fun h => absurd rfl h⟩

theorem safe_writePrivateJson {file : File} {content : Content} (h : content.Since since) :
    Safe expected since (fun _ => True) (writePrivateJson expected file content) :=
  safe_guarded ⟨rfl, h, rfl, fun _ _ => trivial⟩

theorem safe_removePrivatePath {file : File} :
    Safe expected since (fun _ => True) (removePrivatePath expected file) :=
  safe_guarded ⟨rfl, rfl, fun _ _ => trivial⟩

theorem safe_removeOwnedBrowserLogin {operation : Text} :
    Safe expected since (fun _ => True) (removeOwnedBrowserLogin expected operation) := by
  refine safe_guarded (does_bind.mpr (does_call.mpr fun pending _ => ?_))
  dsimp only
  split_ifs
  · exact ⟨rfl, rfl, fun _ _ => trivial⟩
  · exact ⟨rfl, fun _ _ => trivial⟩

theorem safe_publishCommandResult {tokens : List Token} :
    Safe expected since (fun _ => True) (publishCommandResult expected tokens) :=
  safe_guarded ⟨rfl, rfl, fun _ _ => trivial⟩

/-! ### Requests -/

theorem since_nil {content : Content} (h : content.tokens = []) : content.Since since := by
  intro token htoken
  rw [h] at htoken
  exact absurd htoken List.not_mem_nil

theorem safe_requestJson {bearing : List Token} (h : ∀ token ∈ bearing, token.Since since) :
    Safe expected since (fun answer => answer.2.Since since) (requestJson bearing) := by
  refine (safe_ask h).bind fun answer htoken => ?_
  refine (safe_ofExcept fun _ _ => trivial : Safe expected since (fun _ => True) _).bind ?_
  exact fun _ _ => safe_pure htoken

/-- The credentials of an answer of the client. -/
def Clerk.Since (since : ℕ) (clerk : Clerk) : Prop :=
  clerk.credential.Since since ∧ ∀ token ∈ clerk.clientToken, token.Since since

theorem safe_clerkNativeRequest {token : Option Token} (h : ∀ held ∈ token, held.Since since) :
    Safe expected since (Clerk.Since since) (clerkNativeRequest token) := by
  refine (safe_requestJson fun held hheld => h held (Option.mem_toList.mp hheld)).bind ?_
  rintro ⟨reply, credential⟩ hcredential
  refine safe_pure ⟨hcredential, fun held hheld => ?_⟩
  dsimp only at hheld
  split_ifs at hheld with hrotated
  · exact Option.mem_some_iff.mp hheld ▸ hcredential
  · exact h held hheld

theorem safe_rememberClerkClientToken {token : Option Token}
    (h : ∀ held ∈ token, held.Since since) :
    Safe expected since (Token.Since since) (rememberClerkClientToken expected token) := by
  cases token with
  | none => exact safe_throw
  | some token =>
      have htoken := h token rfl
      refine (safe_writePrivateJson ?_).bind fun _ _ => safe_pure htoken
      exact fun held hheld => List.mem_singleton.mp hheld ▸ htoken

theorem safe_initializeClerkClient :
    Safe expected since (Clerk.Since since) (initializeClerkClient expected) := by
  refine (safe_clerkNativeRequest (by simp)).bind fun result hresult => ?_
  exact (safe_rememberClerkClientToken hresult.2).bind fun _ _ => safe_pure hresult

theorem safe_currentClerkClient :
    Safe expected since (Clerk.Since since) (currentClerkClient expected) := by
  refine safe_read.bind fun stored hstored => ?_
  have hinitialize : Safe expected since (Clerk.Since since) (initializeClerkClient expected) :=
    safe_initializeClerkClient
  split
  · rename_i token
    have htoken : token.Since since := hstored _ rfl token (List.mem_singleton_self token)
    refine Safe.handling ?_ fun fault => ?_
    · refine (safe_clerkNativeRequest ?_).bind fun result hresult => ?_
      · exact fun held hheld => Option.mem_some_iff.mp hheld ▸ htoken
      · exact (safe_rememberClerkClientToken hresult.2).bind fun _ _ => safe_pure hresult
    · split_ifs
      · exact safe_removePrivatePath.bind fun _ _ => hinitialize
      · exact safe_throw
  · exact hinitialize

theorem safe_t3CodeRelayCredentials :
    Safe expected since (fun found => ∀ credentials ∈ found, credentials.accessToken.Since since)
      (t3CodeRelayCredentials expected) := by
  refine safe_currentClerkClient.bind fun client hclient => ?_
  split
  · exact safe_pure nofun
  · refine (safe_clerkNativeRequest hclient.2).bind fun result hresult => ?_
    refine (safe_rememberClerkClientToken hresult.2).bind fun _ _ => ?_
    refine safe_demand.bind fun _ _ => safe_pure fun credentials hcredentials => ?_
    exact Option.mem_some_iff.mp hcredentials ▸ hresult.1

/-! ### Signing in -/

theorem safe_serve {token : Option Token} {started : Bool} (requests : ℕ)
    (h : ∀ held ∈ token, held.Since since) :
    Safe expected since (fun _ => True) (serve expected token started requests) := by
  induction requests generalizing token started with
  | zero => exact safe_throw
  | succ requests ih =>
      refine safe_nextRequest.bind fun request _ => ?_
      cases request with
      | page => exact ih h
      | refused => exact ih h
      | timeout => exact safe_throw
      | watch =>
          refine safe_readSessionEpoch.bind fun epoch _ => ?_
          split_ifs
          · exact ih h
          · exact safe_throw
      | start =>
          dsimp only
          split_ifs
          · exact ih h
          · have hbody : Safe expected since
                (fun answer : Clerk × Token => Token.Since since answer.2) (do
                  let signIn ← clerkNativeRequest token
                  let rotated ← rememberClerkClientToken expected signIn.clientToken
                  pure (signIn, rotated)) := by
              refine (safe_clerkNativeRequest h).bind fun signIn hsignIn => ?_
              exact (safe_rememberClerkClientToken hsignIn.2).bind fun _ hrotated =>
                safe_pure hrotated
            refine hbody.attempt.bind fun answer hanswer => ?_
            split
            · exact ih h
            · have hrotated := hanswer _ rfl
              exact ih fun held hheld => Option.mem_some_iff.mp hheld ▸ hrotated
      | callback valid =>
          dsimp only
          split_ifs
          · refine (safe_clerkNativeRequest h).bind fun completed hcompleted => ?_
            refine (safe_rememberClerkClientToken hcompleted.2).bind fun _ _ => ?_
            split
            · exact safe_demand.forget
            · exact safe_currentClerkClient.bind fun client _ => safe_demand.forget
          · exact safe_throw

theorem safe_runOwnedBrowserSignIn {operation : Text} {requests : ℕ} :
    Safe expected since (fun _ => True) (runOwnedBrowserSignIn expected operation requests) := by
  refine safe_currentClerkClient.bind fun client hclient => ?_
  refine Safe.ensuring ?_ safe_removeOwnedBrowserLogin
  refine (safe_writePrivateJson (since_nil rfl)).bind fun _ _ => ?_
  refine safe_outcome.bind fun _ _ => safe_demand.bind fun _ _ => ?_
  exact safe_outcome.bind fun _ _ => safe_demand.bind fun _ _ => safe_serve requests hclient.2

theorem safe_waitForT3CodeRelayCredentials {interactive : Option (Text × ℕ)} :
    Safe expected since (fun credentials => credentials.accessToken.Since since)
      (waitForT3CodeRelayCredentials expected interactive) := by
  refine safe_t3CodeRelayCredentials.bind fun current hcurrent => ?_
  split
  · exact safe_pure (hcurrent _ rfl)
  · split
    · exact safe_throw
    · have hsignIn (operation : Text) (requests : ℕ) : Safe expected since (fun _ => True)
          (browserSignIn expected operation requests) :=
        safe_outcome.bind fun _ _ => safe_demand.bind fun _ _ => safe_runOwnedBrowserSignIn
      refine (hsignIn _ _).bind fun _ _ => ?_
      refine safe_t3CodeRelayCredentials.bind fun credentials hcredentials => ?_
      split
      · exact safe_pure (hcredentials _ rfl)
      · exact safe_throw

/-! ### Connections -/

theorem safe_loadOrCreateDpopKey :
    Safe expected since (Token.Since since) (loadOrCreateDpopKey expected) := by
  refine safe_read.bind fun stored hstored => ?_
  split
  · exact safe_pure (hstored _ rfl _ (List.mem_singleton_self _))
  · refine safe_generate.bind fun generated hgenerated => ?_
    refine (safe_writePrivateJson ?_).bind fun _ _ => safe_pure hgenerated
    exact fun held hheld => List.mem_singleton.mp hheld ▸ hgenerated

theorem since_pair {first second : Token} (hfirst : first.Since since)
    (hsecond : second.Since since) : ∀ token ∈ [first, second], token.Since since := by
  simp [hfirst, hsecond]

theorem safe_connectCloud {credentials : Credentials} (h : credentials.accessToken.Since since) :
    Safe expected since (fun connected => ∀ token ∈ connected.accessToken, token.Since since)
      (connectCloud expected credentials) := by
  refine (safe_requestJson fun held hheld => List.mem_singleton.mp hheld ▸ h).bind ?_
  rintro ⟨listed, _⟩ -
  refine safe_read.bind fun previous _ => ?_
  dsimp only
  split
  · exact (safe_writePrivateJson (since_nil rfl)).bind fun _ _ => safe_pure fun _ h => nomatch h
  · refine safe_localEnvironmentId.bind fun localId _ => ?_
    split
    · exact safe_throw
    · refine safe_loadOrCreateDpopKey.bind fun key hkey => ?_
      refine (safe_requestJson (since_pair h hkey)).bind fun relay hrelay => ?_
      refine safe_demand.bind fun _ _ => ?_
      refine (safe_requestJson (since_pair hrelay hkey)).bind fun connected hconnected => ?_
      refine safe_demand.bind fun _ _ => ?_
      split
      · exact safe_throw
      · refine (safe_requestJson (since_pair hconnected hkey)).bind fun exchanged htoken => ?_
        refine safe_demand.bind fun _ _ => safe_currentTime.bind fun now _ => ?_
        have hsome (token : Token) (hheld : token ∈ some exchanged.2) : token.Since since :=
          Option.mem_some_iff.mp hheld ▸ htoken
        refine (safe_writePrivateJson fun held hheld => ?_).bind fun _ _ => safe_pure hsome
        exact hsome held (Option.mem_toList.mp hheld)

theorem safe_connectAgain : Safe expected since (Token.Since since) (connectAgain expected) := by
  refine safe_waitForT3CodeRelayCredentials.bind fun credentials hcredentials => ?_
  refine (safe_connectCloud hcredentials).bind fun connected hconnected => ?_
  split
  · rename_i htoken
    exact safe_pure (hconnected _ htoken)
  · exact safe_throw

theorem safe_usableConnection :
    Safe expected since (Token.Since since) (usableConnection expected) := by
  refine safe_read.bind fun current hcurrent => safe_currentTime.bind fun now _ => ?_
  split
  · rename_i token htoken
    refine safe_pure ?_
    unfold usableToken at htoken
    split at htoken
    · split_ifs at htoken
      exact hcurrent _ rfl token (Option.mem_toList.mpr htoken)
    · nomatch htoken
  · exact safe_connectAgain

theorem safe_issueWebSocketTicket :
    Safe expected since (Token.Since since) (issueWebSocketTicket expected) := by
  refine safe_usableConnection.bind fun connection hconnection => ?_
  refine safe_loadOrCreateDpopKey.bind fun key hkey => ?_
  have hissue : Safe expected since (fun issued => issued.2.Since since)
      ((requestJson [connection, key]).handling fun error =>
        if error = .http 401 ∨ error = .http 403 then do
          let renewed ← connectAgain expected
          requestJson [renewed, key]
        else .throw error) := by
    refine (safe_requestJson (since_pair hconnection hkey)).handling fun fault => ?_
    split_ifs
    · refine safe_connectAgain.bind fun renewed hrenewed => ?_
      exact safe_requestJson (since_pair hrenewed hkey)
    · exact safe_throw
  exact hissue.bind fun issued hissued => safe_demand.bind fun _ _ => safe_pure hissued

/-- Every command writes and prints only under the lock, after it found its
epoch, and only credentials that it got from new ones. -/
theorem safe_main (command : Command) :
    Safe expected since (fun _ => True) (command.main expected) := by
  cases command with
  | login operation requests =>
      refine safe_waitForT3CodeRelayCredentials.bind fun credentials hcredentials => ?_
      exact (safe_connectCloud hcredentials).bind fun _ _ => safe_publishCommandResult
  | connect =>
      refine safe_waitForT3CodeRelayCredentials.bind fun credentials hcredentials => ?_
      exact (safe_connectCloud hcredentials).bind fun _ _ => safe_publishCommandResult
  | ticket => exact safe_issueWebSocketTicket.bind fun ticket _ => safe_publishCommandResult
  | status =>
      have hstatus : Safe expected since (fun _ => True) (cloudStatus expected) :=
        safe_read.bind fun _ _ =>
          safe_t3CodeRelayCredentials.attempt.bind fun _ _ => safe_pure trivial
      exact hstatus.bind fun _ _ => safe_publishCommandResult

end

end Cloud

end T3

end CybexOS
