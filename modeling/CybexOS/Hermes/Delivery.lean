/-
A prompt that Hermes accepted is not called undelivered, as long as no
connection is lost around the moment its bytes leave and no success answer is
unreadable.
-/
import CybexOS.Hermes.Gateway
import CybexOS.Hermes.RemoteSubmit

namespace CybexOS

namespace Hermes

/-! ### The local gateway -/

/-- The fault says that Hermes does not have the request. -/
def Fault.Definite (fault : Fault) : Prop := ∀ method, fault ≠ .ambiguousDelivery method

/-- Hermes does not have the request, or refused it. -/
def Call.Undelivered (row : Call) : Prop := row.handed = false ∨ row.verdict = some false

/-- What holds of a call between any two events. -/
structure Call.Sound (row : Call) : Prop where
  fresh : row.phase = .idle → row.future = none ∧ row.pending = false
  early : row.phase = .idle ∨ row.phase = .queued → row.handed = false ∧ row.written = false
  unwritten : ∀ connection, row.phase = .sending connection → row.written = false
  waits : row.phase = .waiting → row.written = true
  decided : row.handed = false → row.verdict = none
  rejected : row.method = promptSubmit → ∀ fault, row.future = some (.error fault) →
    fault.Definite → row.Undelivered
  ended : row.method = promptSubmit → ∀ fault, row.phase = .done (.error fault) →
    fault.Definite → row.Undelivered

def Gateway.Sound (g : Gateway) : Prop := ∀ call, (g.calls call).Sound

/-- No prompt is cut off between the moment the socket has its bytes and the
moment the bridge notes it, nor written after a disconnect has rejected it. -/
def Gateway.Uncut (g : Gateway) : Event → Prop
  | .hands call => (g.calls call).method = promptSubmit → (g.calls call).future = none
  | .disconnects => ∀ call, (g.calls call).method = promptSubmit → (g.calls call).pending = true →
      (g.calls call).future = none → (g.calls call).handed = true → (g.calls call).written = true
  | .sendFails call => (g.calls call).method = promptSubmit →
      (∃ connection, (g.calls call).phase = .sending connection) → (g.calls call).handed = false
  | _ => True

theorem start_sound : Gateway.start.Sound := fun _ => by
  constructor <;> simp [Gateway.start, Call.fresh]

namespace Gateway

theorem Sound.put {g : Gateway} (h : g.Sound) {call : Nat} {row : Call} (hrow : row.Sound) :
    (g.put call row).Sound := by
  intro other
  unfold Gateway.put
  dsimp only
  by_cases hsame : other = call
  · rw [hsame, Function.update_self]
    exact hrow
  · rw [Function.update_of_ne hsame]
    exact h other

theorem Sound.release {g : Gateway} (h : g.Sound) (call : Nat) : (g.release call).Sound := h

/-- A call ends soundly when its fault, if definite, is right. -/
theorem Sound.finish {g : Gateway} (h : g.Sound) (call : Nat) {outcome : Except Fault Unit}
    (hfault : (g.calls call).method = promptSubmit → ∀ fault, outcome = .error fault →
      fault.Definite → (g.calls call).Undelivered) : (g.finish call outcome).Sound := by
  refine h.put ?_
  have hrow := h call
  exact {
    fresh := fun hphase => by cases hphase
    early := fun hphase => by rcases hphase with hphase | hphase <;> cases hphase
    unwritten := fun _ hphase => by cases hphase
    waits := fun hphase => by cases hphase
    decided := hrow.decided
    rejected := hrow.rejected
    ended := fun hmethod fault hphase hdefinite =>
      hfault hmethod fault (Phase.done.inj hphase) hdefinite }

theorem lost_definite {row : Call} (h : (lost row).Definite) : row.written = false := by
  unfold lost at h
  split_ifs at h with hwritten
  · exact absurd rfl (h row.method)
  · exact Bool.eq_false_iff.mpr hwritten

theorem reject_sound {row : Call} (h : row.Sound) (hcut : row.method = promptSubmit →
    row.pending = true → row.future = none → row.handed = true → row.written = true) :
    (reject row).Sound := by
  unfold reject
  split_ifs with hopen
  · exact { h with
      fresh := fun hphase => by
        have hpending := (h.fresh hphase).2
        rw [hopen.1] at hpending
        cases hpending
      rejected := fun hmethod fault hfault hdefinite => by
        obtain rfl := Except.error.inj (Option.some.inj hfault)
        have hwritten := lost_definite hdefinite
        refine Or.inl (Bool.eq_false_iff.mpr fun hhanded => ?_)
        rw [hcut hmethod hopen.1 hopen.2 hhanded] at hwritten
        cases hwritten }
  · exact h

theorem Sound.request {g : Gateway} (h : g.Sound) {call : Nat}
    (hidle : (g.calls call).phase = .idle) (method : Text) : (g.request call method).Sound := by
  have hrow := h call
  obtain ⟨hhanded, hwritten⟩ := hrow.early (Or.inl hidle)
  unfold Gateway.request
  dsimp only
  split_ifs
  · refine h.put ?_
    exact {
      fresh := fun hphase => by cases hphase
      early := fun hphase => by rcases hphase with hphase | hphase <;> cases hphase
      unwritten := fun _ hphase => by cases hphase
      waits := fun hphase => by cases hphase
      decided := hrow.decided
      rejected := fun _ _ _ _ => Or.inl hhanded
      ended := fun _ _ _ _ => Or.inl hhanded }
  · refine h.put ?_
    exact {
      fresh := fun hphase => by cases hphase
      early := fun _ => ⟨hhanded, hwritten⟩
      unwritten := fun _ hphase => by cases hphase
      waits := fun hphase => by cases hphase
      decided := hrow.decided
      rejected := fun _ _ _ _ => Or.inl hhanded
      ended := fun _ _ _ _ => Or.inl hhanded }

/-- What a new phase needs of a call that is not over. -/
theorem phase_sound {row : Call} (h : row.Sound) {phase : Phase} (hidle : phase ≠ .idle)
    (hqueued : phase ≠ .queued) (hsending : ∀ connection, phase = .sending connection →
      row.written = false) (hwaiting : phase = .waiting → row.written = true)
    (hdone : ∀ outcome, phase ≠ .done outcome) : ({ row with phase := phase } : Call).Sound where
  fresh := fun hphase => absurd hphase hidle
  early := fun hphase => (hphase.elim (absurd · hidle) (absurd · hqueued))
  unwritten := hsending
  waits := hwaiting
  decided := h.decided
  rejected := h.rejected
  ended := fun _ _ hphase => absurd hphase (hdone _)

theorem Sound.step {g : Gateway} (h : g.Sound) {event : Event} (huncut : g.Uncut event) :
    (g.step event).Sound := by
  cases event with
  | opens =>
      unfold Gateway.step
      split_ifs
      · exact h
      · exact h
  | ready =>
      unfold Gateway.step
      split_ifs
      · exact h
      · exact h
  | disconnects => exact fun call => reject_sound (h call) (huncut call)
  | request call method =>
      unfold Gateway.step
      dsimp only
      split_ifs with hidle
      · exact h.request hidle method
      · exact h
  | acquires call =>
      unfold Gateway.step
      dsimp only
      split_ifs with hqueued
      · have hrow := h call
        obtain ⟨hhanded, hwritten⟩ := hrow.early (Or.inr hqueued.1)
        unfold Gateway.acquire
        split
        · exact h.finish call fun _ _ _ _ => Or.inl hhanded
        · exact h.put (phase_sound hrow (by simp) (by simp) (fun _ _ => hwritten) (by simp) (by simp))
      · exact h
  | hands call =>
      unfold Gateway.step
      dsimp only
      split
      · rename_i connection hsending
        split_ifs
        · have hrow := h call
          refine h.put { hrow with
            early := fun hphase => by rw [hsending] at hphase; simp at hphase
            decided := fun hhanded => by cases hhanded
            rejected := fun hmethod fault hfuture => by
              rw [show (g.calls call).future = none from huncut hmethod] at hfuture
              cases hfuture
            ended := fun _ fault hphase => by
              rw [show (g.calls call).phase = .sending connection from hsending] at hphase
              cases hphase }
        · exact h
      · exact h
  | sent call =>
      unfold Gateway.step
      dsimp only
      split
      · split_ifs
        · have hrow := h call
          refine (h.put ?_).release call
          exact {
            fresh := fun hphase => by cases hphase
            early := fun hphase => by rcases hphase with hphase | hphase <;> cases hphase
            unwritten := fun _ hphase => by cases hphase
            waits := fun _ => rfl
            decided := hrow.decided
            rejected := hrow.rejected
            ended := fun _ _ hphase => by cases hphase }
        · exact h
      · exact h
  | sendFails call =>
      unfold Gateway.step
      dsimp only
      split
      · rename_i connection hsending
        refine (h.finish call fun hmethod fault hfault hdefinite => ?_).release call
        exact Or.inl (huncut hmethod ⟨connection, hsending⟩)
      · exact h
  | decides call accepted =>
      unfold Gateway.step
      dsimp only
      split_ifs with hopen
      · have hrow := h call
        have hnone : ¬ (g.calls call).Undelivered := by
          rintro (hhanded | hverdict)
          · rw [hopen.1] at hhanded
            cases hhanded
          · rw [hopen.2] at hverdict
            cases hverdict
        exact h.put { hrow with
          decided := fun hhanded => by
            rw [show (g.calls call).handed = true from hopen.1] at hhanded
            cases hhanded
          rejected := fun hmethod fault hfuture hdefinite =>
            absurd (hrow.rejected hmethod fault hfuture hdefinite) hnone
          ended := fun hmethod fault hphase hdefinite =>
            absurd (hrow.ended hmethod fault hphase hdefinite) hnone }
      · exact h
  | answers call answer =>
      unfold Gateway.step
      dsimp only
      split_ifs with hopen
      · have hrow := h call
        exact h.put { hrow with
          fresh := fun hphase => by
            have hpending := (hrow.fresh hphase).2
            rw [hopen.2.1] at hpending
            cases hpending
          rejected := fun hmethod fault hfuture _ => by
            refine Or.inr ?_
            cases answer with
            | result => cases hfuture
            | error code message => exact hopen.1 }
      · exact h
  | resumes call =>
      unfold Gateway.step
      dsimp only
      split
      · rename_i outcome hwaiting hfuture
        refine h.finish call fun hmethod fault hfault hdefinite => ?_
        exact (h call).rejected hmethod fault (hfault ▸ hfuture) hdefinite
      · exact h
  | timesOut call seconds =>
      unfold Gateway.step
      dsimp only
      split_ifs with hopen
      · unfold Gateway.timeout
        dsimp only
        split_ifs with hprompt
        · refine h.finish call fun _ fault hfault hdefinite => ?_
          exact absurd (Except.error.inj hfault).symm (hdefinite _)
        · refine h.finish call fun hmethod _ _ _ => ?_
          exact absurd ⟨hmethod, (h call).waits hopen.1⟩ hprompt
      · exact h
  | cancels call =>
      have hcancel : ((g.put call { g.calls call with
          phase := .cancelled, pending := false }).release call).Sound := by
        have hrow := h call
        refine (h.put ?_).release call
        exact {
          fresh := fun hphase => by cases hphase
          early := fun hphase => by rcases hphase with hphase | hphase <;> cases hphase
          unwritten := fun _ hphase => by cases hphase
          waits := fun hphase => by cases hphase
          decided := hrow.decided
          rejected := hrow.rejected
          ended := fun _ _ hphase => by cases hphase }
      unfold Gateway.step
      dsimp only
      split
      · exact h
      · exact h
      · exact h
      · exact hcancel

end Gateway

theorem Report.definite_of_denies {previous : Bool} {outcome : Except Fault Unit}
    (h : (submitReport previous outcome).denies = true) :
    ∃ fault, outcome = .error fault ∧ fault.Definite := by
  rcases outcome with fault | _
  · refine ⟨fault, rfl, ?_⟩
    rintro method rfl
    cases h
  · cases h

/-- In an uncut run, a prompt that is called undelivered was not accepted. -/
theorem Gateway.denied_not_accepted {events : List Event}
    (hrun : EachStep Gateway.step Gateway.Uncut Gateway.start events) :
    ∀ g ∈ states Gateway.step Gateway.start events, ∀ call previous outcome,
      (g.calls call).method = promptSubmit → (g.calls call).phase = .done outcome →
      (submitReport previous outcome).denies = true → (g.calls call).verdict ≠ some true := by
  intro g hg call previous outcome hmethod hphase hdenies haccepted
  have hsound : g.Sound :=
    EachStep.states (fun _ _ h huncut => h.step huncut) start_sound hrun g hg
  obtain ⟨fault, rfl, hdefinite⟩ := Report.definite_of_denies hdenies
  rcases (hsound call).ended hmethod fault hphase hdefinite with hhanded | hrefused
  · rw [(hsound call).decided hhanded] at haccepted
    cases haccepted
  · rw [hrefused] at haccepted
    cases haccepted

/-! ### The remote WebUI -/

/-- If Hermes took the prompt, the exchange fails below HTTP, or its answer is
read and names a stream. A conversation that had messages keeps its mark. -/
def Exchange.Heard (exchange : Exchange) (previous : Bool) : Prop :=
  exchange.accepted = true →
    match exchange.wire with
    | .transport => True
    | .broken => previous = true
    | .answered response => response.size ≤ MAX_REMOTE_AUTH_RESPONSE ∧
        response.loginPage = false ∧ ∃ fields, response.body = .object fields ∧
          (fields.streamId = [] → previous = true)
    | _ => False

section

variable (number : Nat → Text) (sessionFault : Nat → RemoteFault)

theorem denies_of_fault {previous : Bool} {wire : Wire} {fault : RemoteFault}
    (h : requestJson number sessionFault wire = .error (.fault fault)) :
    (remotePromptSubmit number sessionFault previous wire).denies = true := by
  unfold remotePromptSubmit
  rw [h]
  dsimp only
  split_ifs
  · rfl
  · rfl

theorem denies_of_fields {previous : Bool} {wire : Wire} {fields : Fields}
    (h : requestJson number sessionFault wire = .ok fields) :
    (remotePromptSubmit number sessionFault previous wire).denies = true ↔
      fields.streamId = [] ∧ previous = false := by
  unfold remotePromptSubmit
  rw [h]
  dsimp only
  split_ifs with hstream
  · simp [Submission.denies, plainFault, hstream]
  · simp [Submission.denies, hstream]

/-- A success that is read gives its fields, and any other a fault. -/
theorem requestJson_success {response : Response} (h : response.success = true) :
    requestJson number sessionFault (.answered response) =
      if MAX_REMOTE_AUTH_RESPONSE < response.size then
        .error (.fault (plainFault (-32041) (ascii "Remote Hermes response is too large")))
      else if response.loginPage then .error (.fault (sessionFault response.status))
      else (jsonResponse response).mapError .fault := by
  unfold requestJson
  dsimp only
  rw [h]
  rfl

/-- A remote prompt that is called undelivered was not accepted, exactly when
what Hermes answered to accepted prompts is heard. -/
theorem remote_denied_not_accepted (exchange : Exchange) (previous : Bool) :
    ((remotePromptSubmit number sessionFault previous exchange.wire).denies = true →
        exchange.accepted = false) ↔ exchange.Heard previous := by
  obtain ⟨wire, accepted, honest⟩ := exchange
  unfold Exchange.Heard
  dsimp only
  cases accepted with
  | false => simp
  | true =>
      cases wire with
      | unconfigured => cases honest
      | loginRedirect status => cases honest
      | redirectBlocked => cases honest
      | transport =>
          refine ⟨fun _ _ => trivial, fun _ hdenies => ?_⟩
          cases hdenies
      | broken =>
          have hdenies : (remotePromptSubmit number sessionFault previous .broken).denies =
              !previous := rfl
          dsimp only
          rw [hdenies]
          cases previous with
          | false => simp
          | true => simp
      | answered response =>
          have hsuccess : response.success = true := by
            by_contra hfailed
            exact absurd (honest (Bool.eq_false_iff.mpr hfailed)) (by simp)
          have hrun := requestJson_success number sessionFault hsuccess
          have hfault : ∀ fault,
              requestJson number sessionFault (.answered response) = .error (.fault fault) →
                ((remotePromptSubmit number sessionFault previous (.answered response)).denies =
                  true → true = false) → False := fun fault hraised hkept =>
            absurd (hkept (denies_of_fault number sessionFault hraised)) (by simp)
          constructor
          · intro hkept _
            split_ifs at hrun with hsize hlogin
            · exact (hfault _ hrun hkept).elim
            · exact (hfault _ hrun hkept).elim
            · refine ⟨Nat.not_lt.mp hsize, Bool.eq_false_iff.mpr hlogin, ?_⟩
              unfold jsonResponse at hrun
              cases hbody : response.body with
              | unreadable =>
                  rw [hbody] at hrun
                  exact (hfault _ hrun hkept).elim
              | noObject =>
                  rw [hbody] at hrun
                  exact (hfault _ hrun hkept).elim
              | object fields =>
                  rw [hbody] at hrun
                  refine ⟨fields, rfl, fun hstream => ?_⟩
                  by_contra hprevious
                  have hdenies := (denies_of_fields number sessionFault hrun).mpr
                    ⟨hstream, Bool.eq_false_iff.mpr hprevious⟩
                  exact absurd (hkept hdenies) (by simp)
          · intro hheard hdenies
            obtain ⟨hsize, hlogin, fields, hbody, hstream⟩ := hheard rfl
            rw [if_neg (Nat.not_lt.mpr hsize), hlogin, if_neg Bool.false_ne_true, jsonResponse,
              hbody] at hrun
            obtain ⟨hnone, hprevious⟩ := (denies_of_fields number sessionFault hrun).mp hdenies
            rw [hstream hnone] at hprevious
            cases hprevious

end

/-! ### Both -/

/-- On the local gateway a prompt that is called undelivered was not accepted,
in every state of an uncut run; on the remote WebUI exactly when what was
accepted is heard. -/
theorem accepted_prompts_not_denied (number : Nat → Text) (sessionFault : Nat → RemoteFault) :
    (∀ events, EachStep Gateway.step Gateway.Uncut Gateway.start events →
      ∀ g ∈ states Gateway.step Gateway.start events, ∀ call previous outcome,
        (g.calls call).method = promptSubmit → (g.calls call).phase = .done outcome →
        (submitReport previous outcome).denies = true → (g.calls call).verdict ≠ some true) ∧
    ∀ (exchange : Exchange) (previous : Bool),
      ((remotePromptSubmit number sessionFault previous exchange.wire).denies = true →
        exchange.accepted = false) ↔ exchange.Heard previous :=
  ⟨fun _ hrun => Gateway.denied_not_accepted hrun,
    remote_denied_not_accepted number sessionFault⟩

/-- A prompt whose send fails after the socket has its bytes, and that Hermes
accepts. -/
def cutPrompt : List Event :=
  [.opens, .ready, .request 0 promptSubmit, .acquires 0, .hands 0, .decides 0 true, .sendFails 0]

theorem cutPrompt_denied :
    ¬ ∀ events, ∀ g ∈ states Gateway.step Gateway.start events, ∀ call previous outcome,
      (g.calls call).method = promptSubmit → (g.calls call).phase = .done outcome →
      (submitReport previous outcome).denies = true → (g.calls call).verdict ≠ some true := by
  intro h
  refine h cutPrompt _ (foldl_mem_states _ _) 0 false (.error .upstreamUnavailable) ?_ ?_ ?_ ?_
  · decide
  · decide
  · decide
  · decide

/-- A prompt that Hermes refuses. -/
def refusedPrompt : List Event :=
  [.opens, .ready, .request 0 promptSubmit, .acquires 0, .hands 0, .sent 0, .decides 0 false,
    .answers 0 (.error (-32000) (ascii "busy")), .resumes 0]

theorem accepted_prompts_not_denied_refused :
    ((refusedPrompt.foldl Gateway.step .start).calls 0).phase =
        .done (.error (.rpc (-32000) (ascii "busy"))) ∧
      ((refusedPrompt.foldl Gateway.step .start).calls 0).verdict ≠ some true := by
  have hphase : ((refusedPrompt.foldl Gateway.step .start).calls 0).phase =
      .done (.error (.rpc (-32000) (ascii "busy"))) := by
    decide
  refine ⟨hphase, ?_⟩
  have huncut : EachStep Gateway.step Gateway.Uncut Gateway.start refusedPrompt :=
    ⟨trivial, trivial, trivial, trivial, fun _ => rfl, trivial, trivial, trivial, trivial, trivial⟩
  exact (accepted_prompts_not_denied (fun _ => []) fun _ => plainFault 0 []).1 refusedPrompt huncut
    _ (foldl_mem_states _ _) 0 false _ (by decide) hphase (by decide)

end Hermes

end CybexOS
