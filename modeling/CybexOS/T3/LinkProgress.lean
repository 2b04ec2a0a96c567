/-
Runs of the T3 link: an attempt is under way or will be, as long as no new
attempt meets a helper that an older failure has left behind.
-/
import CybexOS.Runs
import CybexOS.T3.Connection

namespace CybexOS

namespace T3

namespace Connection

/-! ### The law -/

/-- The helper works for the running session. -/
def Link.ownHelper (s : Link) : Bool :=
  s.helper.running && s.helper.attemptEpoch = some s.sessionEpoch

/-- An attempt will be started: by the timer, or by the exit of an old helper. -/
def Link.Waits (s : Link) : Prop :=
  s.retryTimer = some s.sessionEpoch ∨
    (s.helper.running = true ∧ s.helper.attemptEpoch ≠ some s.sessionEpoch ∧
      s.helper.reconnectEpoch = some s.sessionEpoch)

def Link.ticketPending (s : Link) : Prop :=
  s.ticketRequest = some s.sessionEpoch ∧ s.ticketTimeout = some s.sessionEpoch

/-- A helper whose time is up has been told to stop. -/
def Link.helperPending (s : Link) : Prop :=
  s.ownHelper = true ∧
    (s.cloudTicketTimeout = some s.sessionEpoch ∨
      s.helper.timedOutEpoch = some s.sessionEpoch)

def Link.socketPending (s : Link) : Prop :=
  s.item.any (·.active) = true ∧ s.hears = true ∧
    s.socketConnectTimeout = some s.sessionEpoch

def Link.AttemptPending (s : Link) : Prop :=
  s.ticketPending ∨ s.helperPending ∨ s.socketPending

/-- Nothing speaks against a connection. -/
structure Link.Wanted (s : Link) : Prop where
  enabled : s.enabled = true
  paired : s.paired = true
  loadable : s.loadable = true
  hold : s.retryHold false = none

/-- A link that is wanted is on its way, or will be. -/
def Link.NotStuck (s : Link) : Prop :=
  s.Wanted → (s.state = .offline → s.Waits) ∧ (s.state = .connecting → s.AttemptPending)

/-- The event's handler calls `connect`. -/
def Link.reconnects (s : Link) : Event → Bool
  | .connect => true
  | .retryTimedOut => s.retryTimer = some s.sessionEpoch && (s.retryHold false).isNone
  | .onlineChanged online =>
      online && !s.networkOnline && (Link.retryHold { s with networkOnline := online } false).isNone
  | .knownChanged known =>
      !known && s.networkKnown && (Link.retryHold { s with networkKnown := known } false).isNone
  | .idleChanged idle =>
      !idle && s.idle && (Link.retryHold { s with idle := idle } true).isNone
  | _ => false

/-- No attempt is started from offline while a helper of the session runs. -/
def Unhindered (s : Link) (event : Event) : Prop :=
  s.reconnects event = true → s.state = .offline → s.ownHelper = false

instance (s : Link) (event : Event) : Decidable (Unhindered s event) :=
  inferInstanceAs (Decidable (_ → _ → _))

/-! ### The invariant -/

/-- How timers, requests and epochs belong together. -/
structure Link.Wired (s : Link) : Prop where
  retry : ∀ epoch, s.retryTimer = some epoch → epoch = s.sessionEpoch
  ticket : ∀ epoch, s.ticketRequest = some epoch → s.ticketPending
  attempted : s.helper.running = true → s.helper.attempted = true
  started : ∀ epoch, s.helper.attemptEpoch = some epoch → epoch ≤ s.sessionEpoch
  timed : s.ownHelper = true → s.helperPending
  unwanted : s.ownHelper = true → s.enabled = true
  loading : s.loaderStatus = .loading → s.loaderActive = true ∧ s.ownHelper = false
  item : s.item.isSome = true → s.loaderActive = true ∧ s.loaderStatus = .ready
  pendingSocket : s.pendingSocketEpoch = none
  noError : s.loadable = true → s.loaderStatus ≠ .error
  same : ∀ fingerprint, s.fingerprint = some fingerprint →
    fingerprint = credentialFingerprint s.credential

/-- A link that follows a file has its loader on. -/
def Link.Loads (s : Link) : Prop :=
  s.enabled = true → s.fingerprint.isSome = true → s.loaderActive = true

structure Link.Live (s : Link) : Prop where
  wired : s.Wired
  loads : s.Loads
  waits : s.Wanted → s.state = .offline → s.Waits
  pending : s.state = .connecting → s.AttemptPending

/-! ### Attempts -/

theorem Link.Wired.breakOff {s : Link} (h : s.Wired) : s.breakOff.Wired := by
  refine { h with item := ?_ }
  intro hitem
  exact h.item (by simpa [Link.breakOff] using hitem)

theorem Link.Wired.scheduleRetry {s : Link} (h : s.Wired) : s.scheduleRetry.Wired := by
  unfold Link.scheduleRetry
  split_ifs
  · exact h.breakOff
  · refine { h.breakOff with retry := ?_ }
    intro epoch hepoch
    cases hepoch
    rfl

theorem breakOff_state (s : Link) :
    s.breakOff.state ≠ .connecting ∧ s.breakOff.state ≠ .connected := by
  unfold Link.breakOff
  simp only
  split_ifs with hout
  · rcases hout with hout | hout
    · rw [hout]
      exact ⟨nofun, nofun⟩
    · rw [hout]
      exact ⟨nofun, nofun⟩
  · exact ⟨nofun, nofun⟩

theorem scheduleRetry_state (s : Link) :
    s.scheduleRetry.state ≠ .connecting ∧ s.scheduleRetry.state ≠ .connected := by
  unfold Link.scheduleRetry
  split_ifs
  · exact breakOff_state s
  · exact breakOff_state s

theorem Link.Loads.scheduleRetry {s : Link} (h : s.Loads) : s.scheduleRetry.Loads := by
  unfold Link.scheduleRetry
  split_ifs
  · exact h
  · exact h

/-- Unless something speaks against it, the timer runs afterwards. -/
theorem scheduleRetry_waits {s : Link} (h : s.scheduleRetry.Wanted) : s.scheduleRetry.Waits := by
  unfold Link.scheduleRetry at h ⊢
  split_ifs at h ⊢ with hback
  · rw [Bool.or_eq_true] at hback
    rcases hback with hoff | hhold
    · rw [h.enabled] at hoff
      cases hoff
    · rw [h.hold] at hhold
      cases hhold
  · exact Or.inl rfl

theorem scheduleRetry_ownHelper (s : Link) : s.scheduleRetry.ownHelper = s.ownHelper := by
  unfold Link.scheduleRetry
  split_ifs
  · rfl
  · rfl

theorem Link.Wired.scheduleRetry_live {s : Link} (h : s.Wired) (hloads : s.Loads) :
    s.scheduleRetry.Live :=
  ⟨h.scheduleRetry, hloads.scheduleRetry, fun hwanted _ => scheduleRetry_waits hwanted,
    fun hstate => absurd hstate (scheduleRetry_state s).1⟩

theorem stateWithoutCredential_ne (s : Link) :
    s.stateWithoutCredential ≠ .offline ∧ s.stateWithoutCredential ≠ .connecting ∧
      s.stateWithoutCredential ≠ .connected := by
  unfold Link.stateWithoutCredential
  split_ifs
  · exact ⟨nofun, nofun, nofun⟩
  · exact ⟨nofun, nofun, nofun⟩

/-- A session that needs a sign-in is not on its way. -/
theorem Link.Wired.signedOut_live {s : Link} (h : s.Wired) (hloads : s.Loads) :
    Link.Live { s with state := s.stateWithoutCredential } :=
  ⟨{ h with }, hloads, fun _ hstate => absurd hstate (stateWithoutCredential_ne s).1,
    fun hstate => absurd hstate (stateWithoutCredential_ne s).2.1⟩

theorem Link.Wired.startHelper {s : Link} (h : s.Wired) (henabled : s.enabled = true)
    (hready : s.loaderStatus = .ready) : s.startHelper.Wired := by
  have hpending : s.startHelper.helperPending := by
    refine ⟨?_, Or.inl rfl⟩
    simp [Link.ownHelper, Link.startHelper]
  refine { h with
    attempted := fun _ => rfl, started := ?_, timed := fun _ => hpending
    unwanted := fun _ => henabled, loading := ?_ }
  · intro epoch hepoch
    cases hepoch
    exact le_rfl
  · intro hloading
    rw [show s.startHelper.loaderStatus = s.loaderStatus from rfl, hready] at hloading
    cases hloading

theorem Link.Wired.startHelper_live {s : Link} (h : s.Wired) (hloads : s.Loads)
    (henabled : s.enabled = true) (hready : s.loaderStatus = .ready) : s.startHelper.Live := by
  have hwired := h.startHelper henabled hready
  refine ⟨hwired, hloads, nofun, fun _ => Or.inr (Or.inl (hwired.timed ?_))⟩
  simp [Link.ownHelper, Link.startHelper]

theorem Link.Wired.requestTicket_live {s : Link} (h : s.Wired) (hloads : s.Loads) :
    s.requestTicket.Live := by
  have hpending : s.requestTicket.ticketPending := ⟨rfl, rfl⟩
  exact ⟨{ h with ticket := fun _ _ => hpending }, hloads, nofun, fun _ => Or.inl hpending⟩

/-- The exit of an old helper will start the attempt. -/
theorem Link.Wired.handOff_live {s : Link} (h : s.Wired) (hloads : s.Loads)
    (hrunning : s.helper.running = true)
    (hold : s.helper.attemptEpoch ≠ some s.sessionEpoch) :
    Link.Live { s with
      helper := { s.helper with reconnectEpoch := some s.sessionEpoch }, state := .offline } :=
  ⟨{ h with }, hloads, fun _ _ => Or.inr ⟨hrunning, hold, rfl⟩, nofun⟩

/-- What `connect` comes to. -/
theorem connect_cases {motive : Link → Prop} (s : Link)
    (unpaired : s.paired = false → motive { s with state := s.stateWithoutCredential })
    (disabled : s.enabled = false → motive s)
    (notReady : s.paired = true → s.enabled = true → s.loaderStatus ≠ .ready →
      s.loaderStatus ≠ .error → motive (Link.scheduleRetry { s with state := .offline }))
    (failed : s.loaderStatus = .error → motive { s with state := .offline })
    (handOff : s.credential.helperOwned = true → s.helper.running = true →
      s.helper.attemptEpoch ≠ some s.sessionEpoch →
      motive { s with
        helper := { s.helper with reconnectEpoch := some s.sessionEpoch }, state := .offline })
    (helping : s.credential.helperOwned = true → s.ownHelper = true → motive s)
    (startHelper : s.credential.helperOwned = true → s.paired = true → s.enabled = true →
      s.loaderStatus = .ready → s.helper.running = false → motive s.startHelper)
    (asking : s.credential.helperOwned = false → s.paired = true → s.enabled = true →
      s.loaderStatus = .ready → s.ticketRequest.isSome = true →
      motive { s with state := .connecting })
    (requestTicket : s.credential.helperOwned = false → s.paired = true → s.enabled = true →
      s.loaderStatus = .ready → s.ticketRequest = none → motive s.requestTicket) :
    motive s.connect := by
  unfold Link.connect
  by_cases hpaired : s.paired = true
  · by_cases henabled : s.enabled = true
    · rw [if_neg (by simp [hpaired]), if_neg (by simp [henabled])]
      by_cases hready : s.loaderStatus = .ready
      · rw [if_neg (not_not.mpr hready)]
        by_cases howned : s.credential.helperOwned = true
        · rw [if_pos howned]
          split_ifs with hbusy hother
          · exact handOff howned hbusy hother
          · refine helping howned ?_
            simp [Link.ownHelper, hbusy, not_not.mp hother]
          · exact startHelper howned hpaired henabled hready (by simpa using hbusy)
        · rw [if_neg howned]
          have hbearer : s.credential.helperOwned = false := by simpa using howned
          split_ifs with hbusy
          · exact asking hbearer hpaired henabled hready hbusy
          · exact requestTicket hbearer hpaired henabled hready (by simpa using hbusy)
      · rw [if_pos hready]
        simp only
        split_ifs with herror
        · exact notReady hpaired henabled hready herror
        · exact failed (not_not.mp herror)
    · rw [if_neg (by simp [hpaired]), if_pos (by simp [henabled])]
      exact disabled (by simpa using henabled)
  · rw [if_pos (by simp [hpaired])]
    exact unpaired (by simpa using hpaired)

/-- `connect` leaves a link that is wanted on its way. -/
theorem Link.Wired.connect_live {s : Link} (h : s.Wired) (hloads : s.Loads)
    (hpending : s.state = .connecting → s.AttemptPending)
    (hfree : s.state = .offline → s.ownHelper = false) : s.connect.Live := by
  refine connect_cases s ?unpaired ?disabled ?notReady ?failed ?handOff ?helping ?startHelper
    ?asking ?requestTicket
  case unpaired => exact fun _ => h.signedOut_live hloads
  case disabled =>
    intro hdisabled
    refine ⟨h, hloads, fun hwanted => ?_, hpending⟩
    rw [hwanted.enabled] at hdisabled
    cases hdisabled
  case notReady =>
    intro _ _ _ _
    have hoff : Link.Wired { s with state := .offline } := { h with }
    exact hoff.scheduleRetry_live hloads
  case failed =>
    intro herror
    exact ⟨{ h with }, hloads, fun hwanted => absurd herror (h.noError hwanted.loadable), nofun⟩
  case handOff => exact fun _ hbusy hother => h.handOff_live hloads hbusy hother
  case helping =>
    intro _ hown
    refine ⟨h, hloads, fun _ hoff => ?_, hpending⟩
    rw [hfree hoff] at hown
    cases hown
  case startHelper => exact fun _ _ henabled hready _ => h.startHelper_live hloads henabled hready
  case asking =>
    intro _ _ _ _ hbusy
    obtain ⟨epoch, hepoch⟩ := Option.isSome_iff_exists.mp hbusy
    exact ⟨{ h with }, hloads, nofun, fun _ => Or.inl (h.ticket epoch hepoch)⟩
  case requestTicket => exact fun _ _ _ _ _ => h.requestTicket_live hloads

/-- After a `connect` that ends offline, no helper of the session runs. -/
theorem connect_free {s : Link} (h : s.ownHelper = false) :
    s.connect.state = .offline → s.connect.ownHelper = false := by
  refine connect_cases (motive := fun t => t.state = .offline → t.ownHelper = false) s
    ?unpaired ?disabled ?notReady ?failed ?handOff ?helping ?startHelper ?asking ?requestTicket
  case startHelper => exact fun _ _ _ _ _ hoff => nomatch hoff
  case notReady =>
    intro _ _ _ _ _
    rw [scheduleRetry_ownHelper]
    exact h
  all_goals exact fun _ => by intros; exact h

/-! ### The socket's loader -/

theorem Link.Wired.loaderReady_live {s : Link} (h : s.Wired) (hloads : s.Loads)
    (hpending : s.state = .connecting → s.AttemptPending) (hown : s.ownHelper = false) :
    s.loaderReady.Live := by
  have hnone : s.activatePendingSocket = none := by
    simp [Link.activatePendingSocket, h.pendingSocket]
  unfold Link.loaderReady
  rw [hnone]
  simp only
  split_ifs with hgo
  · have hwired : Link.Wired { s with retryTimer := none } := { h with retry := nofun }
    exact hwired.connect_live hloads hpending fun _ => hown
  · refine ⟨h, hloads, fun hwanted hoff => absurd ?_ hgo, hpending⟩
    rw [hoff]
    exact ⟨hwanted.paired, nofun, nofun⟩

/-- The loader comes back, or is missing QtWebSockets. -/
theorem Link.Wired.loaderLoaded_live {s : Link} (h : s.Wired) (hactive : s.loaderActive = true)
    (hitem : s.item = none) (hown : s.ownHelper = false)
    (hpending : s.state = .connecting → s.AttemptPending) : s.loaderLoaded.Live := by
  have hloads : s.Loads := fun _ _ => hactive
  unfold Link.loaderLoaded
  split_ifs with hloadable
  · have hwired : Link.Wired { s with
        loaderStatus := .ready, item := some ⟨false, none, .closed⟩ } :=
      { h with loading := nofun, item := fun _ => ⟨hactive, rfl⟩, noError := fun _ => nofun }
    refine hwired.loaderReady_live hloads (fun hstate => ?_) hown
    rcases hpending hstate with hticket | hhelper | hsocket
    · exact Or.inl hticket
    · exact Or.inr (Or.inl hhelper)
    · have hany := hsocket.1
      rw [hitem] at hany
      cases hany
  · have hwired : Link.Wired (Link.loaderFailed { s with
        loaderStatus := .error, item := none }) :=
      { h with
        retry := nofun, loading := nofun, item := nofun, pendingSocket := rfl
        noError := fun htrue => absurd htrue hloadable }
    exact ⟨hwired, hloads, fun hwanted => absurd hwanted.loadable hloadable, nofun⟩

theorem loaderLoaded_free {s : Link} (h : s.Wired) (hown : s.ownHelper = false) :
    s.loaderLoaded.state = .offline → s.loaderLoaded.ownHelper = false := by
  have hnone : ∀ status item,
      Link.activatePendingSocket { s with loaderStatus := status, item := item } = none := by
    intro status item
    simp [Link.activatePendingSocket, h.pendingSocket]
  unfold Link.loaderLoaded
  split_ifs
  · unfold Link.loaderReady
    rw [hnone]
    simp only
    split_ifs
    · exact connect_free hown
    · exact fun _ => hown
  · exact fun _ => hown

theorem Link.Wired.item_none {s : Link} (h : s.Wired) (hactive : s.loaderActive = false) :
    s.item = none := by
  cases hitem : s.item with
  | none => rfl
  | some socket =>
      have hon := (h.item (by rw [hitem]; rfl)).1
      rw [hactive] at hon
      cases hon

theorem activateLoader_of_active {s : Link} (h : s.loaderActive = true) : s.activateLoader = s :=
  if_pos h

theorem activateLoader_of_inactive {s : Link} (h : ¬s.loaderActive = true) :
    s.activateLoader = Link.loaderLoaded { s with loaderActive := true } :=
  if_neg h

theorem Link.Live.activateLoader {s : Link} (h : s.Live)
    (hown : s.loaderActive = false → s.ownHelper = false) : s.activateLoader.Live := by
  unfold Link.activateLoader
  split_ifs with hactive
  · exact h
  · have hinactive : s.loaderActive = false := by simpa using hactive
    have hitem := h.wired.item_none hinactive
    have hwired : Link.Wired { s with loaderActive := true } := { h.wired with
      loading := fun hloading => ⟨rfl, (h.wired.loading hloading).2⟩
      item := fun hsome => by rw [show s.item = none from hitem] at hsome; cases hsome }
    exact hwired.loaderLoaded_live rfl hitem (hown hinactive) h.pending

/-- A loader that is there activates the socket of the url at once. -/
theorem openSocketUrl_of_loadable {s : Link} (h : s.loadable = true) :
    s.openSocketUrl = { s with
      loaderActive := true
      loaderStatus := .ready
      item := some ⟨true, some s.sessionEpoch, .connecting⟩
      pendingSocketEpoch := none
      socketConnectTimeout := some s.sessionEpoch } := by
  simp [Link.openSocketUrl, Link.deactivateLoader, Link.activateLoader, Link.loaderLoaded, h,
    Link.loaderReady, Link.activatePendingSocket]

theorem openSocketUrl_of_missing {s : Link} (h : s.loadable = false) :
    s.openSocketUrl = { s with
      loaderActive := true
      loaderStatus := .error
      item := none
      pendingSocketEpoch := none
      retryTimer := none
      socketConnectTimeout := none
      state := .offline } := by
  simp [Link.openSocketUrl, Link.deactivateLoader, Link.activateLoader, Link.loaderLoaded, h,
    Link.loaderFailed]

theorem Link.Wired.openSocketUrl_live {s : Link} (h : s.Wired)
    (hwaits : s.Wanted → s.state = .offline → s.Waits) : s.openSocketUrl.Live := by
  cases hloadable : s.loadable with
  | true =>
      rw [openSocketUrl_of_loadable hloadable]
      refine ⟨?_, fun _ _ => rfl, fun hwanted hoff => ?_, fun _ => Or.inr (Or.inr ?_)⟩
      · exact { h with
          loading := nofun, item := fun _ => ⟨rfl, rfl⟩, pendingSocket := rfl
          noError := fun _ => nofun }
      · exact hwaits ⟨hwanted.enabled, hwanted.paired, hloadable, hwanted.hold⟩ hoff
      · exact ⟨rfl, by simp [Link.hears], rfl⟩
  | false =>
      rw [openSocketUrl_of_missing hloadable]
      refine ⟨?_, fun _ _ => rfl, fun hwanted => ?_, nofun⟩
      · exact { h with
          retry := nofun, loading := nofun, item := nofun, pendingSocket := rfl
          noError := fun htrue => absurd htrue (by simp [hloadable]) }
      · have htrue := hwanted.loadable
        simp only at htrue
        rw [hloadable] at htrue
        cases htrue

/-! ### Sessions -/

theorem resetTransport_ownHelper {s : Link} (h : s.Wired) : s.resetTransport.ownHelper = false := by
  have hold : s.helper.attemptEpoch ≠ some (s.sessionEpoch + 1) := by
    intro hepoch
    have hle := h.started _ hepoch
    omega
  simp [Link.ownHelper, Link.resetTransport, hold]

theorem Link.Wired.resetTransport {s : Link} (h : s.Wired) : s.resetTransport.Wired := by
  have hown := resetTransport_ownHelper h
  have hnot : ∀ {p : Prop}, s.resetTransport.ownHelper = true → p := by
    intro p htrue
    rw [hown] at htrue
    cases htrue
  exact { h with
    retry := nofun
    ticket := nofun
    started := fun epoch hepoch => (h.started epoch hepoch).trans (Nat.le_succ _)
    timed := hnot
    unwanted := hnot
    loading := nofun
    item := nofun
    pendingSocket := rfl
    noError := fun _ => nofun }

theorem Link.Wired.connectIfDown_live {s : Link} (h : s.Wired) (hloads : s.Loads)
    (hpending : s.state = .connecting → s.AttemptPending)
    (hfree : s.state = .offline → s.ownHelper = false) : s.connectIfDown.Live := by
  unfold Link.connectIfDown
  split_ifs with hdown
  · exact h.connect_live hloads hpending hfree
  · refine ⟨h, hloads, fun _ hoff => absurd ?_ hdown, hpending⟩
    rw [hoff]
    exact ⟨nofun, nofun⟩

theorem Link.Live.enable {s : Link} (h : s.Live) (hoff : s.enabled = false) :
    (s.setEnabled true).Live := by
  have hown : s.ownHelper = false := by
    cases hown : s.ownHelper with
    | false => rfl
    | true =>
        have hon := h.wired.unwanted hown
        rw [hoff] at hon
        cases hon
  unfold Link.setEnabled
  rw [if_neg (by simp [hoff]), if_pos rfl]
  by_cases hactive : s.loaderActive = true
  · have hsame : Link.activateLoader { s with enabled := true } = { s with enabled := true } :=
      activateLoader_of_active hactive
    rw [hsame]
    have hwired : Link.Wired { s with enabled := true } := { h.wired with
      unwanted := fun _ => rfl }
    exact hwired.connectIfDown_live (fun _ _ => hactive) h.pending fun _ => hown
  · have hback : Link.activateLoader { s with enabled := true } =
        Link.loaderLoaded { s with enabled := true, loaderActive := true } :=
      activateLoader_of_inactive hactive
    rw [hback]
    have hitem := h.wired.item_none (by simpa using hactive)
    have hwired : Link.Wired { s with enabled := true, loaderActive := true } := { h.wired with
      unwanted := fun _ => rfl
      loading := fun hloading => ⟨rfl, (h.wired.loading hloading).2⟩
      item := fun hsome => by rw [show s.item = none from hitem] at hsome; cases hsome }
    have hlive := hwired.loaderLoaded_live rfl hitem hown h.pending
    exact hlive.wired.connectIfDown_live hlive.loads hlive.pending (loaderLoaded_free hwired hown)

/-- A module that is off has no link. -/
theorem Link.Live.disable {s : Link} (h : s.Live) (hon : s.enabled = true) :
    (s.setEnabled false).Live := by
  have hreset := h.wired.resetTransport
  have hown := resetTransport_ownHelper h.wired
  have hwired : Link.Wired (Link.resetTransport { s with enabled := false }) := { hreset with
    unwanted := fun htrue => by
      rw [show (Link.resetTransport { s with enabled := false }).ownHelper = false from hown]
        at htrue
      cases htrue }
  unfold Link.setEnabled
  rw [if_neg (by simp [hon]), if_neg (by decide)]
  simp only
  split_ifs
  · exact hwired.signedOut_live nofun
  · exact ⟨hwired, nofun, fun hwanted => (nomatch hwanted.enabled), nofun⟩

theorem Link.Live.setEnabled {s : Link} (h : s.Live) (enabled : Bool) :
    (s.setEnabled enabled).Live := by
  cases enabled with
  | true =>
      cases hnow : s.enabled with
      | false => exact h.enable hnow
      | true => simpa [Link.setEnabled, hnow] using h
  | false =>
      cases hnow : s.enabled with
      | true => exact h.disable hnow
      | false => simpa [Link.setEnabled, hnow] using h

theorem Link.Live.followCredential {s : Link} (h : s.Live) : s.followCredential.Live := by
  unfold Link.followCredential
  split_ifs with hpaired hstate hbusy hrunning
  · exact h.wired.handOff_live h.loads hbusy.1 hbusy.2
  · refine h.wired.connect_live h.loads h.pending fun _ => ?_
    simp only [Bool.not_eq_true'] at hrunning
    simp [Link.ownHelper, hrunning]
  · exact h
  · exact h
  · exact h.wired.signedOut_live h.loads

/-- A session's file names the same host, and pairs or does not. -/
theorem credentialFingerprint_paired {data other : Credential}
    (h : credentialFingerprint data = credentialFingerprint other) :
    data.httpBaseUrl = other.httpBaseUrl ∧ data.paired = other.paired := by
  have hurl : data.httpBaseUrl = other.httpBaseUrl := congrArg Fingerprint.httpBaseUrl h
  have htoken := congrArg Fingerprint.token h
  refine ⟨hurl, ?_⟩
  have hempty : data.accessToken ≠ [] ↔ other.accessToken ≠ [] := by
    simp only [credentialFingerprint] at htoken
    split_ifs at htoken
    · exact decide_eq_decide.mp (Sum.inl.inj htoken)
    · rw [Sum.inr.inj htoken]
  have hdecide : decide (data.accessToken ≠ []) = decide (other.accessToken ≠ []) :=
    decide_eq_decide.mpr hempty
  rw [Credential.paired, Credential.paired, Credential.host, Credential.host, hurl, hdecide]

theorem Link.Live.adoptSame {s : Link} (h : s.Live) {data : Credential}
    (hsame : s.fingerprint = some (credentialFingerprint data)) :
    Link.Live { s with credential := data } := by
  obtain ⟨hurl, hpaired⟩ := credentialFingerprint_paired (h.wired.same _ hsame)
  refine ⟨{ h.wired with same := ?_ }, h.loads, fun hwanted => h.waits ⟨hwanted.enabled, ?_,
    hwanted.loadable, ?_⟩, h.pending⟩
  · intro fingerprint hfingerprint
    rw [show s.fingerprint = some fingerprint from hfingerprint] at hsame
    exact Option.some.inj hsame
  · exact hpaired.symm.trans hwanted.paired
  · have hhold := hwanted.hold
    simp only [Link.retryHold, Credential.host, hurl] at hhold ⊢
    exact hhold

theorem Link.Live.fileLoaded {s : Link} (h : s.Live) (data : Credential) :
    (s.fileLoaded data).Live := by
  unfold Link.fileLoaded Link.adoptCredential
  refine Link.Live.followCredential ?_
  by_cases hsame : s.fingerprint = some (credentialFingerprint data)
  · rw [if_pos hsame]
    refine (h.adoptSame hsame).activateLoader fun hinactive => ?_
    cases hown : s.ownHelper with
    | false => exact hown
    | true =>
        have hon := h.loads (h.wired.unwanted hown) (by rw [hsame]; rfl)
        rw [hon] at hinactive
        cases hinactive
  · rw [if_neg hsame]
    have hown := resetTransport_ownHelper h.wired
    have hwired : Link.Wired { s.resetTransport with
        fingerprint := some (credentialFingerprint data), credential := data
        loaderActive := true } :=
      { h.wired.resetTransport with
        loading := nofun, item := nofun
        same := fun fingerprint hfingerprint => (Option.some.inj hfingerprint).symm }
    exact hwired.loaderLoaded_live rfl rfl hown nofun

theorem Link.Live.fileFailed {s : Link} (h : s.Live) (notFound : Bool) :
    (s.fileFailed notFound).Live := by
  refine ⟨{ h.wired.resetTransport with same := nofun }, nofun, fun hwanted => ?_, ?_⟩
  · exact nomatch hwanted.paired
  · cases notFound with
    | false => exact nofun
    | true => exact nofun

/-! ### Answers and timeouts -/

theorem Link.Live.ticketAnswered {s : Link} (h : s.Live) (answer : TicketAnswer) :
    (s.ticketAnswered answer).Live := by
  unfold Link.ticketAnswered
  cases hticket : s.ticketRequest with
  | none => exact h
  | some epoch =>
      have hepoch : epoch = s.sessionEpoch :=
        Option.some.inj (hticket.symm.trans (h.wired.ticket epoch hticket).1)
      have hwired : Link.Wired { s with ticketRequest := none, ticketTimeout := none } :=
        { h.wired with ticket := nofun }
      simp only
      rw [if_neg (not_not.mpr hepoch)]
      cases answer with
      | ticket => exact hwired.openSocketUrl_live fun hwanted => h.waits { hwanted with }
      | malformed => exact hwired.scheduleRetry_live h.loads
      | rejected => exact hwired.signedOut_live h.loads
      | failed => exact hwired.scheduleRetry_live h.loads

theorem Link.Wired.helperAnswered_live {s : Link} (h : s.Wired) (hloads : s.Loads)
    (hwaits : s.Wanted → s.state = .offline → s.Waits) (hown : s.ownHelper = false)
    (exit : HelperExit) : (s.helperAnswered exit).Live := by
  unfold Link.helperAnswered
  split_ifs
  · have hnot : ∀ {p : Prop}, s.ownHelper = true → p := by
      intro p htrue
      rw [hown] at htrue
      cases htrue
    have hwired : Link.Wired { s with helper := { s.helper with timedOutEpoch := none } } :=
      { h with timed := hnot }
    exact hwired.scheduleRetry_live hloads
  · cases exit with
    | socketUrl => exact h.openSocketUrl_live hwaits
    | malformed => exact h.scheduleRetry_live hloads
    | signInRequired => exact h.signedOut_live hloads
    | failed => exact h.scheduleRetry_live hloads

theorem Link.Live.helperStopped {s : Link} (h : s.Live) (exit : HelperExit) :
    (s.helperStopped exit).Live := by
  unfold Link.helperStopped
  by_cases hrunning : s.helper.running = true
  · rw [if_neg (by simp [hrunning])]
    simp only
    rw [if_neg (by simp [h.wired.attempted hrunning])]
    by_cases hown : s.helper.attemptEpoch = some s.sessionEpoch
    · rw [if_neg (not_not.mpr hown)]
      have hwired : Link.Wired { s with
          helper := { s.helper with running := false, attempted := false }
          cloudTicketTimeout := none } :=
        { h.wired with
          attempted := nofun, timed := nofun, unwanted := nofun
          loading := fun hloading => ⟨(h.wired.loading hloading).1, rfl⟩ }
      refine hwired.helperAnswered_live h.loads (fun hwanted hoff => ?_) rfl exit
      rcases h.waits { hwanted with } hoff with htimer | hother
      · exact Or.inl htimer
      · exact absurd hown hother.2.1
    · rw [if_pos hown]
      have hwired : Link.Wired { s with
          helper := { s.helper with running := false, attempted := false, reconnectEpoch := none }
          cloudTicketTimeout := none } :=
        { h.wired with
          attempted := nofun, timed := nofun, unwanted := nofun
          loading := fun hloading => ⟨(h.wired.loading hloading).1, rfl⟩ }
      have hpending : s.state = .connecting → Link.AttemptPending { s with
          helper := { s.helper with running := false, attempted := false, reconnectEpoch := none }
          cloudTicketTimeout := none } := by
        intro hstate
        rcases h.pending hstate with hticket | hhelper | hsocket
        · exact Or.inl hticket
        · exact absurd (of_decide_eq_true (Bool.and_eq_true_iff.mp hhelper.1).2) hown
        · exact Or.inr (Or.inr hsocket)
      split_ifs with hgo
      · exact hwired.connect_live h.loads hpending fun _ => rfl
      · refine ⟨hwired, h.loads, fun hwanted hoff => ?_, hpending⟩
        rcases h.waits { hwanted with } hoff with htimer | hother
        · exact Or.inl htimer
        · exact absurd ⟨hother.2.2, hwanted.paired⟩ hgo
  · rw [if_pos (by simp [hrunning])]
    exact h

theorem Link.Live.ticketTimedOut {s : Link} (h : s.Live) : s.ticketTimedOut.Live := by
  unfold Link.ticketTimedOut
  cases htimeout : s.ticketTimeout with
  | none => exact h
  | some epoch =>
      simp only
      split_ifs with hstale
      · have hnone : s.ticketRequest = none := by
          cases hticket : s.ticketRequest with
          | none => rfl
          | some other =>
              have hpending := (h.wired.ticket other hticket).2
              rw [htimeout] at hpending
              rcases hstale with hstale | hstale
              · exact absurd (Option.some.inj hpending) hstale
              · rw [hstale] at hticket
                cases hticket
        have hno : ∀ {p : Prop} {epoch : Nat}, s.ticketRequest = some epoch → p := by
          intro p epoch hsome
          rw [hnone] at hsome
          cases hsome
        refine ⟨{ h.wired with ticket := fun _ => hno }, h.loads,
          fun hwanted => h.waits { hwanted with }, fun hstate => ?_⟩
        rcases h.pending hstate with hticket | hrest
        · exact hno hticket.1
        · exact Or.inr hrest
      · have hwired : Link.Wired { s with ticketTimeout := none, ticketRequest := none } :=
          { h.wired with ticket := nofun }
        exact hwired.scheduleRetry_live h.loads

theorem Link.Live.helperTimedOut {s : Link} (h : s.Live) : s.helperTimedOut.Live := by
  unfold Link.helperTimedOut
  cases htimeout : s.cloudTicketTimeout with
  | none => exact h
  | some epoch =>
      simp only
      split_ifs with hstale
      · have htimed : s.ownHelper = true →
            Link.helperPending { s with cloudTicketTimeout := none } := by
          intro hown
          refine ⟨hown, Or.inr ?_⟩
          rcases (h.wired.timed hown).2 with hrunning | hdone
          · have hepoch := Option.some.inj (htimeout.symm.trans hrunning)
            rw [Link.ownHelper, Bool.and_eq_true, decide_eq_true_eq] at hown
            simp [hepoch, hown.1, hown.2] at hstale
          · exact hdone
        refine ⟨{ h.wired with timed := htimed }, h.loads,
          fun hwanted => h.waits { hwanted with }, fun hstate => ?_⟩
        rcases h.pending hstate with hticket | hhelper | hsocket
        · exact Or.inl hticket
        · exact Or.inr (Or.inl (htimed hhelper.1))
        · exact Or.inr (Or.inr hsocket)
      · have hepoch : epoch = s.sessionEpoch := by
          by_contra hne
          exact hstale (Or.inl hne)
        have htimed : s.ownHelper = true → Link.helperPending { s with
            cloudTicketTimeout := none
            helper := { s.helper with timedOutEpoch := some epoch } } :=
          fun hown => ⟨hown, Or.inr (congrArg some hepoch)⟩
        refine ⟨{ h.wired with timed := htimed }, h.loads,
          fun hwanted => h.waits { hwanted with }, fun hstate => ?_⟩
        rcases h.pending hstate with hticket | hhelper | hsocket
        · exact Or.inl hticket
        · exact Or.inr (Or.inl (htimed hhelper.1))
        · exact Or.inr (Or.inr hsocket)

theorem Link.Live.socketTimedOut {s : Link} (h : s.Live) : s.socketTimedOut.Live := by
  unfold Link.socketTimedOut
  cases htimeout : s.socketConnectTimeout with
  | none => exact h
  | some epoch =>
      have hwired : Link.Wired { s with socketConnectTimeout := none } := { h.wired with }
      simp only
      split_ifs with hidle
      · refine ⟨hwired, h.loads, fun hwanted => h.waits { hwanted with }, fun hstate => ?_⟩
        rcases h.pending hstate with hticket | hhelper | hsocket
        · exact Or.inl hticket
        · exact Or.inr (Or.inl hhelper)
        · have hepoch := Option.some.inj (htimeout.symm.trans hsocket.2.2)
          simp [hepoch, hsocket.1, show s.state = .connecting from hstate] at hidle
      · exact hwired.scheduleRetry_live h.loads

theorem Link.Live.retryTimedOut {s : Link} (h : s.Live)
    (hfree : s.reconnects .retryTimedOut = true → s.state = .offline → s.ownHelper = false) :
    s.retryTimedOut.Live := by
  unfold Link.retryTimedOut
  cases htimer : s.retryTimer with
  | none => exact h
  | some epoch =>
      have hepoch := h.wired.retry epoch htimer
      have hwired : Link.Wired { s with retryTimer := none } := { h.wired with retry := nofun }
      simp only
      split_ifs with hgo
      · have hhold : s.retryHold false = none := hgo.2
        refine hwired.connect_live h.loads h.pending (hfree ?_)
        simp [Link.reconnects, htimer, hepoch, hhold]
      · exact ⟨hwired, h.loads, fun hwanted => absurd ⟨hepoch, hwanted.hold⟩ hgo, h.pending⟩

theorem Link.Live.silent {s : Link} (h : s.Live) : s.silent.Live := by
  unfold Link.silent
  split_ifs
  · exact h.wired.scheduleRetry_live h.loads
  · exact h

/-! ### Holds that end -/

theorem retryHold_eq_none {s : Link} {resumed : Bool} :
    s.retryHold resumed = none ↔
      (s.networkKnown = true → s.networkOnline = false →
        isLoopbackOrigin s.credential.host = true) ∧ (resumed = false → s.idle = false) := by
  unfold Link.retryHold reconnectHold
  cases s.networkKnown <;> cases s.networkOnline <;>
    cases isLoopbackOrigin s.credential.host <;> cases resumed <;> cases s.idle <;> simp

theorem Link.Wired.resumeReconnect_live {s : Link} (h : s.Wired) (hloads : s.Loads)
    (hpending : s.state = .connecting → s.AttemptPending) (resumed : Bool)
    (hfree : (s.retryHold resumed).isNone = true → s.state = .offline → s.ownHelper = false) :
    (s.resumeReconnect resumed).Live := by
  unfold Link.resumeReconnect
  split_ifs with hkeep
  · refine ⟨h, hloads, fun hwanted hoff => ?_, hpending⟩
    have hhold : s.retryHold resumed = none := by
      rw [retryHold_eq_none]
      have hnone := retryHold_eq_none.mp hwanted.hold
      exact ⟨hnone.1, fun _ => hnone.2 rfl⟩
    simp [hwanted.enabled, hwanted.paired, hoff, h.noError hwanted.loadable, hhold] at hkeep
  · have hwired : Link.Wired { s with retryTimer := none } := { h with retry := nofun }
    refine hwired.connect_live hloads hpending (hfree ?_)
    simp only [Bool.or_eq_true, not_or] at hkeep
    simpa using hkeep.2

/-- What only the holds depend on has changed, and no hold has ended. -/
theorem Link.Live.of_holds {s : Link} (h : s.Live) {known online idle : Bool}
    (hhold : Link.retryHold { s with
        networkKnown := known, networkOnline := online, idle := idle } false = none →
      s.retryHold false = none) :
    Link.Live { s with networkKnown := known, networkOnline := online, idle := idle } :=
  ⟨{ h.wired with }, h.loads,
    fun hwanted => h.waits { hwanted with hold := hhold hwanted.hold }, h.pending⟩

theorem Link.Live.onlineChanged {s : Link} (h : s.Live) (online : Bool)
    (hfree : s.reconnects (.onlineChanged online) = true → s.state = .offline →
      s.ownHelper = false) : (s.onlineChanged online).Live := by
  unfold Link.onlineChanged
  simp only
  split_ifs with hends
  · have hwired : Link.Wired { s with networkOnline := online } := { h.wired with }
    refine hwired.resumeReconnect_live h.loads h.pending false fun hhold => hfree ?_
    rw [Link.reconnects, Bool.and_eq_true, Bool.and_eq_true]
    exact ⟨⟨hends.1, by simpa using hends.2⟩, hhold⟩
  · refine h.of_holds fun hhold => ?_
    rw [retryHold_eq_none] at hhold ⊢
    refine ⟨fun hknown hoff => hhold.1 hknown ?_, hhold.2⟩
    cases online with
    | false => rfl
    | true => simp [hoff] at hends

theorem Link.Live.knownChanged {s : Link} (h : s.Live) (known : Bool)
    (hfree : s.reconnects (.knownChanged known) = true → s.state = .offline →
      s.ownHelper = false) : (s.knownChanged known).Live := by
  unfold Link.knownChanged
  simp only
  split_ifs with hends
  · have hwired : Link.Wired { s with networkKnown := known } := { h.wired with }
    refine hwired.resumeReconnect_live h.loads h.pending false fun hhold => hfree ?_
    rw [Link.reconnects, Bool.and_eq_true, Bool.and_eq_true]
    exact ⟨⟨by simpa using hends.1, hends.2⟩, hhold⟩
  · refine h.of_holds fun hhold => ?_
    rw [retryHold_eq_none] at hhold ⊢
    refine ⟨fun hknown => hhold.1 ?_, hhold.2⟩
    cases known with
    | true => rfl
    | false => simp [hknown] at hends

theorem Link.Live.idleChanged {s : Link} (h : s.Live) (idle : Bool)
    (hfree : s.reconnects (.idleChanged idle) = true → s.state = .offline →
      s.ownHelper = false) : (s.idleChanged idle).Live := by
  unfold Link.idleChanged
  simp only
  split_ifs with hends
  · have hwired : Link.Wired { s with idle := idle } := { h.wired with }
    refine hwired.resumeReconnect_live h.loads h.pending true fun hhold => hfree ?_
    rw [Link.reconnects, Bool.and_eq_true, Bool.and_eq_true]
    exact ⟨⟨by simpa using hends.1, hends.2⟩, hhold⟩
  · refine h.of_holds fun hhold => ?_
    rw [retryHold_eq_none] at hhold ⊢
    refine ⟨hhold.1, fun _ => ?_⟩
    have hidle : idle = false := hhold.2 rfl
    simpa [hidle] using hends

/-! ### The socket -/

theorem Link.Live.socketOpened {s : Link} (h : s.Live) : s.socketOpened.Live := by
  unfold Link.socketOpened
  cases hitem : s.item with
  | none => exact h
  | some socket =>
      have hthere := h.wired.item (by rw [hitem]; rfl)
      have hwired : Link.Wired { s with item := some { socket with status := .open } } :=
        { h.wired with item := fun _ => hthere }
      simp only
      split_ifs with hactive hhears
      · exact h
      · exact ⟨{ hwired with }, h.loads, nofun, nofun⟩
      · refine ⟨hwired, h.loads, fun hwanted => h.waits { hwanted with }, fun hstate => ?_⟩
        rcases h.pending hstate with hticket | hhelper | hsocket
        · exact Or.inl hticket
        · exact Or.inr (Or.inl hhelper)
        · have hheard := hsocket.2.1
          rw [Link.hears, hitem] at hheard
          exact absurd hheard hhears

theorem Link.Live.socketEnded {s : Link} (h : s.Live) (status : SocketStatus) :
    (s.socketEnded status).Live := by
  unfold Link.socketEnded
  cases hitem : s.item with
  | none => exact h
  | some socket =>
      have hthere := h.wired.item (by rw [hitem]; rfl)
      have hwired : Link.Wired { s with item := some { socket with status := status } } :=
        { h.wired with item := fun _ => hthere }
      simp only
      split_ifs with hhears hup
      · refine ⟨hwired, h.loads, fun hwanted => h.waits { hwanted with }, fun hstate => ?_⟩
        rcases h.pending hstate with hticket | hhelper | hsocket
        · exact Or.inl hticket
        · exact Or.inr (Or.inl hhelper)
        · have hheard := hsocket.2.1
          rw [Link.hears, hitem] at hheard
          simp [Link.hears] at hhears hheard
          exact absurd hheard hhears
      · exact Link.Wired.scheduleRetry_live { hwired with } h.loads
      · refine ⟨{ hwired with }, h.loads, fun hwanted => h.waits { hwanted with },
          fun hstate => absurd (Or.inr hstate) hup⟩

theorem Link.Live.shellExited {s : Link} (h : s.Live) : s.shellExited.Live := by
  unfold Link.shellExited
  split_ifs
  · exact h.wired.scheduleRetry_live h.loads
  · exact h

/-! ### Runs -/

theorem Link.Live.step {s : Link} (h : s.Live) {event : Event} (hfree : Unhindered s event) :
    (s.step event).Live := by
  cases event with
  | fileLoaded data => exact h.fileLoaded data
  | fileFailed notFound => exact h.fileFailed notFound
  | setEnabled enabled => exact h.setEnabled enabled
  | connect => exact h.wired.connect_live h.loads h.pending (hfree rfl)
  | loaderCompleted =>
      simp only [Link.step]
      split_ifs with hloading
      · obtain ⟨hactive, hown⟩ := h.wired.loading hloading
        have hitem : s.item = none := by
          cases hsome : s.item with
          | none => rfl
          | some socket =>
              have hready := (h.wired.item (by rw [hsome]; rfl)).2
              rw [hloading] at hready
              cases hready
        exact h.wired.loaderLoaded_live hactive hitem hown h.pending
      · exact h
  | ticketAnswered answer => exact h.ticketAnswered answer
  | helperStopped exit => exact h.helperStopped exit
  | ticketTimedOut => exact h.ticketTimedOut
  | helperTimedOut => exact h.helperTimedOut
  | socketTimedOut => exact h.socketTimedOut
  | retryTimedOut => exact h.retryTimedOut hfree
  | silent => exact h.silent
  | onlineChanged online => exact h.onlineChanged online hfree
  | knownChanged known => exact h.knownChanged known hfree
  | idleChanged idle => exact h.idleChanged idle hfree
  | socketOpened => exact h.socketOpened
  | socketClosed => exact h.socketEnded .closed
  | socketFailed => exact h.socketEnded .error
  | shellExited => exact h.shellExited

theorem initial_live (enabled loadable networkKnown networkOnline idle : Bool) :
    (Link.initial enabled loadable networkKnown networkOnline idle).Live := by
  refine ⟨⟨nofun, nofun, nofun, nofun, nofun, nofun, fun _ => ⟨rfl, rfl⟩, nofun, rfl,
    fun _ => nofun, nofun⟩,
    nofun, fun hwanted => ?_, nofun⟩
  exact nomatch hwanted.paired

/-- As long as `connect` is not called from offline under a helper of the session,
a link that is wanted is on its way, or will be. -/
theorem link_not_stuck (enabled loadable networkKnown networkOnline idle : Bool)
    (events : List Event)
    (hfree : EachStep Link.step Unhindered
      (Link.initial enabled loadable networkKnown networkOnline idle) events) :
    ∀ t ∈ states Link.step (Link.initial enabled loadable networkKnown networkOnline idle) events,
      t.NotStuck := by
  intro t ht hwanted
  have hlive := hfree.states (fun _ _ h hstep => h.step hstep)
    (initial_live enabled loadable networkKnown networkOnline idle) t ht
  exact ⟨hlive.waits hwanted, hlive.pending⟩

/-! ### An attempt that nobody follows -/

def cloudCredential : Credential :=
  { Credential.none with
    httpBaseUrl := ascii "https://t3.example"
    accessToken := ascii "token"
    authMode := ascii "cloud"
    tokenType := ascii "DPoP" }

/-- The link comes up with the helper's url. -/
def cloudLinkUp : List Event :=
  [.loaderCompleted, .fileLoaded cloudCredential, .helperStopped .socketUrl, .socketOpened]

/-- A silent link is dropped; its socket reports the close under the next attempt,
whose helper then outlives another retry. -/
def lateClose : List Event :=
  [.silent, .retryTimedOut, .socketClosed, .retryTimedOut, .helperStopped .socketUrl,
    .socketClosed]

def strandedLink : Link :=
  (cloudLinkUp ++ lateClose).foldl Link.step (Link.initial true true true true false)

/-- The link that nothing speaks against stays offline, with no timer and no helper. -/
theorem lateClose_strands_link : ¬ strandedLink.NotStuck := by
  have hwanted : strandedLink.Wanted :=
    ⟨by decide +kernel, by decide +kernel, by decide +kernel, by decide +kernel⟩
  have hoff : strandedLink.state = .offline := by decide +kernel
  have htimer : strandedLink.retryTimer = none := by decide +kernel
  have hhelper : strandedLink.helper.running = false := by decide +kernel
  intro h
  rcases (h hwanted).1 hoff with hretry | hold
  · rw [htimer] at hretry
    cases hretry
  · rw [hhelper] at hold
    cases hold.1

/-- The close is reported before the next attempt, whose helper fails. -/
def promptClose : List Event :=
  [.silent, .socketClosed, .retryTimedOut, .helperStopped .failed, .retryTimedOut]

theorem link_not_stuck_promptClose :
    ((cloudLinkUp ++ promptClose).foldl Link.step
      (Link.initial true true true true false)).NotStuck := by
  refine link_not_stuck true true true true false (cloudLinkUp ++ promptClose) ?_ _
    (foldl_mem_states _ _)
  decide +kernel

end Connection

end T3

end CybexOS
