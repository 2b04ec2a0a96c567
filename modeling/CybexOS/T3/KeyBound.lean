/-
The token of a T3 connection and the key it was issued for: what helpers do
with them as long as none replaces a stored key.
-/
import CybexOS.Runs
import CybexOS.T3.Cloud

namespace CybexOS

namespace T3

namespace Cloud

open Process

/-! ### The property -/

/-- The token is what a request signed with the key was answered with. -/
def Token.BoundTo (token key : Token) : Prop := ∃ bearer, token = derived [bearer, key]

def keyOf : Option Content → Option Token
  | some (.key token) => some token
  | _ => none

def tokenOf : Option Content → Option Token
  | some (.connection saved) => saved.accessToken
  | _ => none

/-- The saved token was issued for the saved key. -/
def Agreeing (files : File → Option Content) : Prop :=
  ∀ token ∈ tokenOf (files .connection), ∃ key ∈ keyOf (files .dpopKey), token.BoundTo key

section

variable (expected : ℕ)

/-- `requestWebSocketTicket` after a renewal, and what is left of the command. -/
def renewedTicket (connection key : Token) : Helper Unit := do
  let (issued, ticket) ← requestJson [connection, key]
  demand (issued.granted = true)
  publishCommandResult expected [ticket]

/-- `requestWebSocketTicket` with the first connection, and what is left of the command. -/
def firstTicket (connection key : Token) : Helper Unit := do
  let (issued, ticket) ← (requestJson [connection, key]).handling fun error =>
    if error = .http 401 ∨ error = .http 403 then do
      let renewed ← connectAgain expected
      requestJson [renewed, key]
    else .throw error
  demand (issued.granted = true)
  publishCommandResult expected [ticket]

/-- The process is about to send a ticket request. -/
def Requests (program : Helper Unit) (connection key : Token) : Prop :=
  program = firstTicket expected connection key ∨ program = renewedTicket expected connection key

end

/-- When no process runs, the saved token was issued for the saved key; and a
ticket request is signed with the key that its token was issued for. -/
structure Together (w : World) : Prop where
  saved : (∀ slot ∈ w.slots, slot = .finished) → Agreeing w.files
  signed : ∀ expected seen program, Slot.helper expected seen program ∈ w.slots →
    ∀ connection key, Requests expected program connection key → connection.BoundTo key

/-- Not a sign-out. -/
def Move.Helps : Move → Prop
  | .signsOut _ => False
  | _ => True

/-- A generated key is written only while no key is stored. -/
def Unreplaced (w : World) (move : Move) : Prop :=
  match move with
  | .runs pid _ =>
      match w.slots[pid]? with
      | some (.helper _ _ (.step (.write .dpopKey _) _)) => keyOf (w.files .dpopKey) = none
      | _ => True
  | _ => True

/-! ### Where tickets are asked for -/

section

variable {expected : ℕ}

/-- The ticket command asks for a connection, then for the key, then for the ticket. -/
theorem main_ticket :
    Command.ticket.main expected = (do
      let connection ← usableConnection expected
      let key ← loadOrCreateDpopKey expected
      firstTicket expected connection key) := by
  change (issueWebSocketTicket expected >>= fun ticket =>
    publishCommandResult expected [ticket]) = _
  unfold issueWebSocketTicket firstTicket
  simp only [bind_assoc, pure_bind]

/-- A refused ticket request is made once more with a renewed connection. -/
theorem firstTicket_refused {connection key : Token} {fault : Fault}
    (h : fault = .http 401 ∨ fault = .http 403) :
    ∃ next, firstTicket expected connection key = .step (.ask [connection, key]) next ∧
      ∀ reply token, checked reply = .error fault →
        next (reply, token) = (do
          let renewed ← connectAgain expected
          renewedTicket expected renewed key) := by
  refine ⟨_, rfl, fun reply token hreply => ?_⟩
  change (((ofExcept (checked reply) : Helper Reply) >>= fun reply =>
    pure (reply, token)).handling _ >>= _) = _
  rw [hreply]
  change ((if fault = .http 401 ∨ fault = .http 403 then _ else _) >>= _) = _
  rw [if_pos h]
  unfold renewedTicket
  simp only [bind_assoc]

end

/-! ### What helpers do -/

/-- The key that a process knows to be stored, and the credentials that it last asked with. -/
structure Known where
  stored : Option Token
  asked : List Token

/-- A known key stays stored. -/
def Known.Later (known after : Known) : Prop := known.stored = none ∨ after.stored = known.stored

theorem later_refl (known : Known) : known.Later known := .inr rfl

theorem Known.Later.trans {first second third : Known} (h : first.Later second)
    (h' : second.Later third) : first.Later third := by
  rcases h with hnone | hsame
  · exact .inl hnone
  · rcases h' with hnone | hsame'
    · exact .inl (hsame.symm.trans hnone)
    · exact .inr (hsame'.trans hsame)

theorem Known.Later.stored {known after : Known} {key : Token} (h : known.Later after)
    (hkey : known.stored = some key) : after.stored = some key := by
  rcases h with hnone | hsame
  · cases hkey.symm.trans hnone
  · exact hsame.trans hkey

/-- The last ticket request was signed with the key that its token was issued for. -/
def Known.Signed (known : Known) : Prop :=
  ∃ connection key, known.asked = [connection, key] ∧ Token.BoundTo connection key

/-- What helpers do with keys and tokens: a token is saved only for the stored
key, and printed only if it was asked for with a token and its key. -/
def keeps : (op : Op) → Known → (Answer op → Known → Prop) → Prop
  | .read file, known, post => ∀ (files : File → Option Content) (after : Known),
      known.Later after → after.stored = keyOf (files .dpopKey) → Agreeing files →
      post (files file) after
  | .ask bearing, known, post => ∀ (reply : Reply) (token : Token),
      (bearing ≠ [] → token = derived bearing) → post (reply, token) ⟨known.stored, bearing⟩
  | .write .dpopKey content, _, post => ∃ key, content = .key key ∧
      ∀ known : Known, known.stored = some key → post () known
  | .write .connection content, known, post =>
      (∀ token ∈ tokenOf (some content), ∃ key ∈ known.stored, token.BoundTo key) ∧ post () known
  | .remove file, known, post => file ≠ .dpopKey ∧ post () known
  | .publish _, _, _ => False
  | .print tokens, known, post => (tokens ≠ [] → known.Signed) ∧ post () known
  | _, known, post => ∀ answer, post answer known

theorem keeps_mono (op : Op) (known : Known) (first second : Answer op → Known → Prop)
    (h : ∀ answer known, first answer known → second answer known)
    (hfirst : keeps op known first) : keeps op known second := by
  cases op with
  | read =>
      intro files after hlater hstored hagree
      exact h _ _ (hfirst files after hlater hstored hagree)
  | ask => exact fun reply token htoken => h _ _ (hfirst reply token htoken)
  | write file content =>
      cases file with
      | dpopKey =>
          obtain ⟨key, hkey, hpost⟩ := hfirst
          exact ⟨key, hkey, fun known hknown => h _ _ (hpost known hknown)⟩
      | connection => exact ⟨hfirst.1, h _ _ hfirst.2⟩
      | _ => exact fun answer => h _ _ (hfirst answer)
  | remove => exact ⟨hfirst.1, h _ _ hfirst.2⟩
  | publish => exact hfirst
  | print => exact ⟨hfirst.1, h _ _ hfirst.2⟩
  | _ => exact fun answer => h _ _ (hfirst answer)

section

variable {α β : Type} {expected : ℕ} {known : Known}

/-- The helper does what is allowed, and what it comes to is good by what it then knows. -/
def Keeps (known : Known) (good : α → Known → Prop) (helper : Helper α) : Prop :=
  helper.Does keeps
    (fun result after => known.Later after ∧ ∀ value, result = .ok value → good value after) known

theorem keeps_done {good : α → Known → Prop} {value : α} (h : good value known) :
    Keeps known good (.done value) :=
  ⟨later_refl known, fun _ hvalue => Except.ok.inj hvalue ▸ h⟩

theorem keeps_pure {good : α → Known → Prop} {value : α} (h : good value known) :
    Keeps known good (pure value : Helper α) := keeps_done h

theorem keeps_throw {good : α → Known → Prop} {fault : Fault} :
    Keeps known good (.throw fault : Helper α) := ⟨later_refl known, nofun⟩

/-- What is done later counts from before. -/
theorem Keeps.later {good : α → Known → Prop} {helper : Helper α} {after : Known}
    (h : Keeps after good helper) (hlater : known.Later after) :
    helper.Does keeps
      (fun result last => known.Later last ∧ ∀ value, result = .ok value → good value last) after :=
  Does.imp keeps_mono h fun _ _ hend => ⟨hlater.trans hend.1, hend.2⟩

theorem Keeps.bind {good : α → Known → Prop} {better : β → Known → Prop} {helper : Helper α}
    {next : α → Helper β} (h : Keeps known good helper)
    (hnext : ∀ value after, known.Later after → good value after →
      Keeps after better (next value)) :
    Keeps known better (helper >>= next) := by
  refine does_bind.mpr (h.imp keeps_mono fun result after hend => ?_)
  obtain ⟨hlater, hgood⟩ := hend
  cases result with
  | ok value => exact (hnext value after hlater (hgood value rfl)).later hlater
  | error fault => exact ⟨hlater, nofun⟩

theorem Keeps.forget {good : α → Known → Prop} {helper : Helper α} (h : Keeps known good helper) :
    Keeps known (fun _ _ => True) helper :=
  Does.imp keeps_mono h fun _ _ hend => ⟨hend.1, fun _ _ => trivial⟩

theorem Keeps.handling {good : α → Known → Prop} {helper : Helper α} {handler : Fault → Helper α}
    (h : Keeps known good helper)
    (hhandler : ∀ fault after, known.Later after → Keeps after good (handler fault)) :
    Keeps known good (helper.handling handler) := by
  refine does_handling.mpr (h.imp keeps_mono fun result after hend => ?_)
  obtain ⟨hlater, hgood⟩ := hend
  cases result with
  | ok value => exact ⟨hlater, hgood⟩
  | error fault => exact (hhandler fault after hlater).later hlater

theorem Keeps.attempt {good : α → Known → Prop} {helper : Helper α} (h : Keeps known good helper) :
    Keeps known (fun _ _ => True) helper.attempt :=
  does_attempt.mpr (h.imp keeps_mono fun _ _ hend => ⟨hend.1, fun _ _ => trivial⟩)

theorem Keeps.ensuring {helper : Helper α} {cleanup : Helper Unit}
    (h : Keeps known (fun _ _ => True) helper)
    (hcleanup : ∀ after, known.Later after → Keeps after (fun _ _ => True) cleanup) :
    Keeps known (fun _ _ => True) (helper.ensuring cleanup) := by
  refine does_andThen.mpr (h.imp keeps_mono fun result after hend => ?_)
  refine does_andThen.mpr (Does.imp keeps_mono ((hcleanup after hend.1).later hend.1) ?_)
  intro ended last hended
  cases ended with
  | ok _ => exact does_ofExcept.mpr ⟨hended.1, fun _ _ => trivial⟩
  | error fault => exact ⟨hended.1, fun _ _ => trivial⟩

theorem keeps_ofExcept {result : Except Fault α} :
    Keeps known (fun _ after => after = known) (ofExcept result : Helper α) :=
  does_ofExcept.mpr ⟨later_refl known, fun _ _ => rfl⟩

theorem keeps_demand {condition : Prop} [Decidable condition] :
    Keeps known (fun _ after => after = known) (demand condition) := by
  unfold demand
  split_ifs
  · exact keeps_done rfl
  · exact keeps_throw

/-- The lock and the check of the epoch change nothing of this. -/
theorem Keeps.guarded {good : α → Known → Prop} {action : Helper α} (h : Keeps known good action) :
    Keeps known good (guarded expected action) := by
  have hrelease (result : Except Fault α) (after : Known) (hlater : known.Later after)
      (hgood : ∀ value, result = .ok value → good value after) :
      (releaseLock.andThen fun
        | .ok () => ofExcept result
        | .error error => .throw error).Does keeps
        (fun result after => known.Later after ∧ ∀ value, result = .ok value → good value after)
        after :=
    fun _ => does_ofExcept.mpr ⟨hlater, hgood⟩
  refine does_bind.mpr (does_call.mpr fun acquired => ?_)
  cases acquired with
  | false => exact keeps_throw
  | true =>
      refine does_andThen.mpr (does_bind.mpr (does_call.mpr fun (epoch : ℕ) => ?_))
      change (if epoch = expected then action else .throw .sessionChanged).Does _ _ known
      split_ifs
      · exact h.imp keeps_mono fun result after hend => hrelease result after hend.1 hend.2
      · exact hrelease _ _ (later_refl known) nofun

/-! ### The operations -/

theorem keeps_read {file : File} :
    Keeps known (fun content after => ∃ files, content = files file ∧ Agreeing files ∧
      after.stored = keyOf (files .dpopKey)) (read file) :=
  fun files _ hlater hstored hagree =>
    ⟨hlater, fun _ hvalue => ⟨files, (Except.ok.inj hvalue).symm, hagree, hstored⟩⟩

theorem keeps_ask {bearing : List Token} :
    Keeps known (fun answer after => (bearing ≠ [] → answer.2 = derived bearing) ∧
      after = ⟨known.stored, bearing⟩) (ask bearing) :=
  fun _ _ htoken => ⟨.inr rfl, fun _ hvalue => Except.ok.inj hvalue ▸ ⟨htoken, rfl⟩⟩

theorem keeps_generate : Keeps known (fun _ after => after = known) generate :=
  fun _ => keeps_done rfl

theorem keeps_outcome : Keeps known (fun _ _ => True) outcome := fun _ => keeps_done trivial

theorem keeps_localEnvironmentId : Keeps known (fun _ after => after = known) localEnvironmentId :=
  fun _ => keeps_done rfl

theorem keeps_currentTime : Keeps known (fun _ after => after = known) currentTime :=
  fun _ => keeps_done rfl

theorem keeps_nextRequest : Keeps known (fun _ _ => True) nextRequest := fun _ => keeps_done trivial

theorem keeps_readSessionEpoch : Keeps known (fun _ _ => True) readSessionEpoch :=
  fun _ => keeps_done trivial

/-- Other files may be written at any time. -/
theorem keeps_writePrivateJson {file : File} {content : Content} (hkey : file ≠ .dpopKey)
    (hconnection : file ≠ .connection) :
    Keeps known (fun _ _ => True) (writePrivateJson expected file content) := by
  have hwrite : Keeps known (fun _ _ => True) (writeFile file content) := by
    cases file with
    | dpopKey => exact absurd rfl hkey
    | connection => exact absurd rfl hconnection
    | _ => exact fun _ => keeps_done trivial
  exact hwrite.guarded

theorem keeps_writeConnection {content : Content}
    (h : ∀ token ∈ tokenOf (some content), ∃ key ∈ known.stored, token.BoundTo key) :
    Keeps known (fun _ _ => True) (writePrivateJson expected .connection content) :=
  Keeps.guarded ⟨h, keeps_done trivial⟩

theorem keeps_writeKey {key : Token} (h : known.stored = none) :
    Keeps known (fun _ after => after.stored = some key)
      (writePrivateJson expected .dpopKey (.key key)) := by
  refine Keeps.guarded ⟨key, rfl, fun after hafter => ?_⟩
  exact ⟨.inl h, fun _ _ => hafter⟩

theorem keeps_removePrivatePath {file : File} (h : file ≠ .dpopKey) :
    Keeps known (fun _ _ => True) (removePrivatePath expected file) :=
  Keeps.guarded ⟨h, keeps_done trivial⟩

theorem keeps_removeOwnedBrowserLogin {operation : Text} :
    Keeps known (fun _ _ => True) (removeOwnedBrowserLogin expected operation) := by
  refine Keeps.guarded (keeps_read.bind fun pending after _ _ => ?_)
  split_ifs
  · exact ⟨nofun, keeps_done trivial⟩
  · exact keeps_done trivial

theorem keeps_publishCommandResult {tokens : List Token} (h : tokens ≠ [] → known.Signed) :
    Keeps known (fun _ _ => True) (publishCommandResult expected tokens) :=
  Keeps.guarded ⟨h, keeps_done trivial⟩

/-! ### Requests -/

theorem keeps_requestJson {bearing : List Token} :
    Keeps known (fun answer after => (bearing ≠ [] → answer.2 = derived bearing) ∧
      after = ⟨known.stored, bearing⟩) (requestJson bearing) := by
  refine keeps_ask.bind fun answer after _ hanswer => ?_
  refine keeps_ofExcept.bind fun reply last _ hlast => ?_
  subst hlast
  exact keeps_pure hanswer

theorem keeps_clerkNativeRequest {token : Option Token} :
    Keeps known (fun _ _ => True) (clerkNativeRequest token) :=
  keeps_requestJson.bind fun _ _ _ _ => keeps_pure trivial

theorem keeps_rememberClerkClientToken {token : Option Token} :
    Keeps known (fun _ _ => True) (rememberClerkClientToken expected token) := by
  cases token with
  | none => exact keeps_throw
  | some token =>
      exact (keeps_writePrivateJson (by decide) (by decide)).bind fun _ _ _ _ => keeps_pure trivial

theorem keeps_initializeClerkClient :
    Keeps known (fun _ _ => True) (initializeClerkClient expected) := by
  refine keeps_clerkNativeRequest.bind fun result _ _ _ => ?_
  exact keeps_rememberClerkClientToken.bind fun _ _ _ _ => keeps_pure trivial

theorem keeps_currentClerkClient :
    Keeps known (fun _ _ => True) (currentClerkClient expected) := by
  refine keeps_read.bind fun stored after _ _ => ?_
  split
  · refine Keeps.handling ?_ fun fault after _ => ?_
    · refine keeps_clerkNativeRequest.bind fun result _ _ _ => ?_
      exact keeps_rememberClerkClientToken.bind fun _ _ _ _ => keeps_pure trivial
    · split_ifs
      · exact (keeps_removePrivatePath (by decide)).bind fun _ _ _ _ => keeps_initializeClerkClient
      · exact keeps_throw
  · exact keeps_initializeClerkClient

theorem keeps_t3CodeRelayCredentials :
    Keeps known (fun _ _ => True) (t3CodeRelayCredentials expected) := by
  refine keeps_currentClerkClient.bind fun client _ _ _ => ?_
  split
  · exact keeps_pure trivial
  · refine keeps_clerkNativeRequest.bind fun result _ _ _ => ?_
    refine keeps_rememberClerkClientToken.bind fun _ _ _ _ => ?_
    exact keeps_demand.bind fun _ _ _ _ => keeps_pure trivial

/-! ### Signing in -/

theorem keeps_serve {token : Option Token} {started : Bool} (requests : ℕ) :
    Keeps known (fun _ _ => True) (serve expected token started requests) := by
  induction requests generalizing token started known with
  | zero => exact keeps_throw
  | succ requests ih =>
      refine keeps_nextRequest.bind fun request _ _ _ => ?_
      cases request with
      | page => exact ih
      | refused => exact ih
      | timeout => exact keeps_throw
      | watch =>
          refine keeps_readSessionEpoch.bind fun epoch _ _ _ => ?_
          split_ifs
          · exact ih
          · exact keeps_throw
      | start =>
          dsimp only
          split_ifs
          · exact ih
          · have hbody {after : Known} : Keeps after (fun _ _ => True) (do
                let signIn ← clerkNativeRequest token
                let rotated ← rememberClerkClientToken expected signIn.clientToken
                pure (signIn, rotated)) :=
              keeps_clerkNativeRequest.bind fun signIn _ _ _ =>
                keeps_rememberClerkClientToken.bind fun _ _ _ _ => keeps_pure trivial
            refine hbody.attempt.bind fun answer _ _ _ => ?_
            split
            · exact ih
            · exact ih
      | callback valid =>
          dsimp only
          split_ifs
          · refine keeps_clerkNativeRequest.bind fun completed _ _ _ => ?_
            refine keeps_rememberClerkClientToken.bind fun _ _ _ _ => ?_
            split
            · exact keeps_demand.forget
            · exact keeps_currentClerkClient.bind fun client _ _ _ => keeps_demand.forget
          · exact keeps_throw

theorem keeps_browserSignIn {operation : Text} {requests : ℕ} :
    Keeps known (fun _ _ => True) (browserSignIn expected operation requests) := by
  refine keeps_outcome.bind fun _ _ _ _ => keeps_demand.bind fun _ _ _ _ => ?_
  refine keeps_currentClerkClient.bind fun client _ _ _ => ?_
  refine Keeps.ensuring ?_ fun _ _ => keeps_removeOwnedBrowserLogin
  refine (keeps_writePrivateJson (by decide) (by decide)).bind fun _ _ _ _ => ?_
  refine keeps_outcome.bind fun _ _ _ _ => keeps_demand.bind fun _ _ _ _ => ?_
  exact keeps_outcome.bind fun _ _ _ _ => keeps_demand.bind fun _ _ _ _ => keeps_serve requests

theorem keeps_waitForT3CodeRelayCredentials {interactive : Option (Text × ℕ)} :
    Keeps known (fun _ _ => True) (waitForT3CodeRelayCredentials expected interactive) := by
  refine keeps_t3CodeRelayCredentials.bind fun current _ _ _ => ?_
  split
  · exact keeps_pure trivial
  · split
    · exact keeps_throw
    · refine keeps_browserSignIn.bind fun _ _ _ _ => ?_
      refine keeps_t3CodeRelayCredentials.bind fun credentials _ _ _ => ?_
      split
      · exact keeps_pure trivial
      · exact keeps_throw

/-! ### Connections -/

/-- The key is the stored one, as far as nothing replaces it. -/
theorem keeps_loadOrCreateDpopKey :
    Keeps known (fun key after => after.stored = some key) (loadOrCreateDpopKey expected) := by
  refine keeps_read.bind fun stored after _ hread => ?_
  obtain ⟨files, rfl, -, hstored⟩ := hread
  split
  · rename_i hkey
    rw [hkey] at hstored
    exact keeps_pure hstored
  · rename_i hother
    have hnone : after.stored = none := by
      rw [hstored]
      unfold keyOf
      split
      · rename_i hkey
        exact absurd hkey (hother _)
      · rfl
    refine keeps_generate.bind fun generated later _ hlater => ?_
    subst hlater
    exact (keeps_writeKey hnone).bind fun _ _ _ hkey => keeps_pure hkey

/-- A new connection is bound to the stored key. -/
theorem keeps_connectCloud {credentials : Credentials} :
    Keeps known (fun connected after => ∀ token ∈ connected.accessToken,
      ∃ key ∈ after.stored, token.BoundTo key) (connectCloud expected credentials) := by
  refine keeps_requestJson.bind fun listed _ _ _ => ?_
  refine keeps_read.bind fun previous _ _ _ => ?_
  dsimp only
  split
  · exact (keeps_writeConnection fun _ h => by cases h).bind fun _ _ _ _ =>
      keeps_pure fun _ h => by cases h
  · refine keeps_localEnvironmentId.bind fun localId _ _ _ => ?_
    split
    · exact keeps_throw
    · refine keeps_loadOrCreateDpopKey.bind fun key holding _ hkey => ?_
      refine keeps_requestJson.bind fun relay _ hrelay _ => keeps_demand.bind fun _ _ hfirst _ => ?_
      refine keeps_requestJson.bind fun connected _ hconnected _ =>
        keeps_demand.bind fun _ asking hsecond _ => ?_
      split
      · exact keeps_throw
      · have hasking : asking.stored = some key :=
          (((hrelay.trans hfirst).trans hconnected).trans hsecond).stored hkey
        refine keeps_requestJson.bind fun exchanged after hexchanged hanswer => ?_
        refine keeps_demand.bind fun _ last hlast _ => ?_
        refine keeps_currentTime.bind fun now ended hend _ => ?_
        have hstored : ended.stored = some key :=
          ((hexchanged.trans hlast).trans hend).stored hasking
        have hbound (token : Token) (htoken : token ∈ some exchanged.2) :
            token.BoundTo key := by
          obtain rfl := Option.mem_some_iff.mp htoken
          exact ⟨connected.2, hanswer.1 (List.cons_ne_nil _ _)⟩
        refine (keeps_writeConnection fun token htoken => ?_).bind fun _ written hwritten _ => ?_
        · exact ⟨key, hstored, hbound token htoken⟩
        · exact keeps_pure fun token htoken => ⟨key, hwritten.stored hstored, hbound token htoken⟩

theorem keeps_connectAgain :
    Keeps known (fun token after => ∃ key ∈ after.stored, token.BoundTo key)
      (connectAgain expected) := by
  refine keeps_waitForT3CodeRelayCredentials.bind fun credentials _ _ _ => ?_
  refine keeps_connectCloud.bind fun connected _ _ hconnected => ?_
  split
  · rename_i htoken
    exact keeps_pure (hconnected _ htoken)
  · exact keeps_throw

theorem usableToken_mem {now : ℤ} {content : Option Content} {token : Token}
    (h : usableToken now content = some token) : token ∈ tokenOf content := by
  unfold usableToken at h
  split at h
  · split_ifs at h
    exact h
  · cases h

theorem keeps_usableConnection :
    Keeps known (fun token after => ∃ key ∈ after.stored, token.BoundTo key)
      (usableConnection expected) := by
  refine keeps_read.bind fun current reading _ hread => ?_
  obtain ⟨files, rfl, hagree, hstored⟩ := hread
  refine keeps_currentTime.bind fun now after _ hafter => ?_
  subst hafter
  split
  · rename_i htoken
    refine keeps_pure ?_
    rw [hstored]
    exact hagree _ (usableToken_mem htoken)
  · exact keeps_connectAgain

theorem signed_pair {connection key : Token} {known : Known} {stored : Option Token}
    (h : known = ⟨stored, [connection, key]⟩) (hbound : connection.BoundTo key) :
    known.Signed := ⟨connection, key, congrArg Known.asked h, hbound⟩

/-- With the stored key and a token bound to it, every ticket request is signed
with its token's key. -/
theorem keeps_firstTicket {connection key : Token} (hstored : known.stored = some key)
    (hbound : connection.BoundTo key) :
    Keeps known (fun _ _ => True) (firstTicket expected connection key) := by
  have hasked : Keeps known (fun _ after => after.Signed)
      ((requestJson [connection, key]).handling fun error =>
        if error = .http 401 ∨ error = .http 403 then do
          let renewed ← connectAgain expected
          requestJson [renewed, key]
        else .throw error) := by
    have hfirst : Keeps known (fun _ after => after.Signed) (requestJson [connection, key]) :=
      Does.imp keeps_mono keeps_requestJson fun _ _ hend =>
        ⟨hend.1, fun value hvalue => signed_pair (hend.2 value hvalue).2 hbound⟩
    refine hfirst.handling fun fault after hafter => ?_
    split_ifs
    · refine keeps_connectAgain.bind fun renewed last hlast hrenewed => ?_
      obtain ⟨other, hother, hrenewed⟩ := hrenewed
      obtain rfl : other = key :=
        Option.some_inj.mp (hother.symm.trans ((hafter.trans hlast).stored hstored))
      exact Does.imp keeps_mono keeps_requestJson fun _ _ hend =>
        ⟨hend.1, fun value hvalue => signed_pair (hend.2 value hvalue).2 hrenewed⟩
    · exact keeps_throw
  refine hasked.bind fun issued after _ hsigned => ?_
  refine keeps_demand.bind fun _ last _ hlast => ?_
  subst hlast
  exact keeps_publishCommandResult fun _ => hsigned

/-- Every command saves tokens only for the stored key, and asks for tickets
only with a token and its key. -/
theorem keeps_main (command : Command) :
    Keeps known (fun _ _ => True) (command.main expected) := by
  have hquiet {after : Known} :
      Keeps after (fun _ _ => True) (publishCommandResult expected []) :=
    keeps_publishCommandResult fun hne => absurd rfl hne
  cases command with
  | login operation requests =>
      refine keeps_waitForT3CodeRelayCredentials.bind fun credentials _ _ _ => ?_
      exact keeps_connectCloud.bind fun _ _ _ _ => hquiet
  | connect =>
      refine keeps_waitForT3CodeRelayCredentials.bind fun credentials _ _ _ => ?_
      exact keeps_connectCloud.bind fun _ _ _ _ => hquiet
  | ticket =>
      rw [main_ticket]
      refine keeps_usableConnection.bind fun connection after _ hconnection => ?_
      obtain ⟨bound, hstored, hbound⟩ := hconnection
      refine keeps_loadOrCreateDpopKey.bind fun key last hlast hkey => ?_
      obtain rfl : bound = key :=
        Option.some_inj.mp ((hlast.stored hstored).symm.trans hkey)
      exact keeps_firstTicket hkey hbound
  | status =>
      have hstatus : Keeps known (fun _ _ => True) (cloudStatus expected) :=
        keeps_read.bind fun _ _ _ _ =>
          keeps_t3CodeRelayCredentials.attempt.bind fun _ _ _ _ => keeps_pure trivial
      exact hstatus.bind fun _ _ _ _ => hquiet

/-! ### What a ticket request tells -/

/-- A good answer with what was asked for. -/
def granting : Reply := ⟨some 200, true, false, none, true, none, [], none, 0⟩

/-- What is left of a ticket command once its request is granted. -/
theorem bound_of_granted {connection key : Token} {post : Except Fault Unit → Known → Prop}
    (h : (publishCommandResult expected [derived [connection, key]]).Does keeps post
      ⟨known.stored, [connection, key]⟩) : connection.BoundTo key := by
  have hfound := h true expected
  change (Process.andThen (if expected = expected then _ else _) _).Does _ _ _ at hfound
  rw [if_pos rfl] at hfound
  obtain ⟨first, second, hpair, hbound⟩ := hfound.1 (List.cons_ne_nil _ _)
  obtain ⟨rfl, hrest⟩ := List.cons.inj hpair
  obtain ⟨rfl, -⟩ := List.cons.inj hrest
  exact hbound

/-- A process that keeps to what is allowed asks for a ticket only with a token and its key. -/
theorem bound_of_requests {program : Helper Unit} {connection key : Token}
    {post : Except Fault Unit → Known → Prop} (hat : Requests expected program connection key)
    (h : program.Does keeps post known) : connection.BoundTo key := by
  rcases hat with rfl | rfl
  · exact bound_of_granted (h granting (derived [connection, key]) fun _ => rfl)
  · exact bound_of_granted (h granting (derived [connection, key]) fun _ => rfl)

end

end Cloud

end T3

end CybexOS
