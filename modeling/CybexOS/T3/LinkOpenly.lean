/-
Runs of the T3 link: one attempt at a time, and no connected link is given up
without `dropped`, as long as attempts start from a quiet link.
-/
import CybexOS.T3.LinkProgress

namespace CybexOS

namespace T3

namespace Connection

/-! ### The law -/

/-- The loaded socket is an attempt, or the link. -/
def Link.active (s : Link) : Bool := s.item.any (·.active)

def Link.isOpen (s : Link) : Bool := s.item.any (·.status = .open)

def Link.up (s : Link) : Bool := s.state = .connecting || s.state = .connected

/-- The attempts of the session that are under way. -/
def Link.attempts (s : Link) : Nat :=
  (decide (s.ticketRequest = some s.sessionEpoch)).toNat + s.ownHelper.toNat +
    (s.active && s.hears).toNat

/-- No retry is armed for a link that is up, and one attempt is under way at most. -/
def Link.Single (s : Link) : Prop :=
  (s.up = true → s.retryTimer = none) ∧ s.attempts ≤ 1

/-- A connected link and its open socket stay, or `dropped` is emitted. -/
def Announced (s t : Link) : Prop :=
  s.drops < t.drops ∨
    (s.state = .connected → t.state = .connected) ∧ (s.isOpen = true → t.isOpen = true)

instance (s t : Link) : Decidable (Announced s t) := inferInstanceAs (Decidable (_ ∨ _))

/-- `connect` goes as far as a new attempt. -/
def Link.startsAttempt (s : Link) : Bool :=
  s.paired && s.enabled && s.loaderStatus = .ready &&
    !(if s.credential.helperOwned then s.helper.running else s.ticketRequest.isSome)

/-- A click, a file or an old helper's exit starts an attempt. -/
def Link.startsAt (s : Link) : Event → Bool
  | .connect => s.startsAttempt
  | .fileLoaded data =>
      s.fingerprint = some (credentialFingerprint data) && s.state ≠ .connected &&
        !s.helper.running && Link.startsAttempt { s with credential := data }
  | .helperStopped _ =>
      s.helper.running && !s.ownHelper && s.helper.reconnectEpoch = some s.sessionEpoch &&
        Link.startsAttempt { s with helper := { s.helper with running := false } }
  | _ => false

/-- A file takes back the attempt it has just started, or an earlier socket's end
that of its successor. -/
def Link.crosses (s : Link) : Event → Bool
  | .fileLoaded data =>
      if s.fingerprint = some (credentialFingerprint data) then
        s.helper.running && !s.ownHelper && s.state = .connecting
      else
        s.helper.running && s.enabled && s.loadable && data.paired && !data.helperOwned
  | .socketClosed | .socketFailed | .shellExited =>
      s.state = .connecting && s.hears && !s.active
  | _ => false

/-- Attempts start from a quiet link, and none is crossed by what came before it. -/
structure Undisturbed (s : Link) (event : Event) : Prop where
  starts : s.startsAt event = true → s.retryTimer = none ∧ s.active = false
  crosses : s.crosses event = false

instance (s : Link) (event : Event) : Decidable (Undisturbed s event) :=
  decidable_of_iff
    ((s.startsAt event = true → s.retryTimer = none ∧ s.active = false) ∧
      s.crosses event = false)
    ⟨fun h => ⟨h.1, h.2⟩, fun h => ⟨h.starts, h.crosses⟩⟩

/-! ### The invariant -/

/-- What a link has under way in each state. -/
structure Link.Sole (s : Link) : Prop where
  enabled : s.up = true → s.enabled = true
  paired : s.up = true → s.paired = true
  ready : s.up = true → s.loaderStatus = .ready
  timer : s.up = true → s.retryTimer = none
  off : s.enabled = false → s.retryTimer = none
  ticketing : s.ticketRequest.isSome = true →
    s.state = .connecting ∧ s.credential.helperOwned = false ∧ s.ownHelper = false ∧
      s.active = false
  helping : s.ownHelper = true →
    s.state = .connecting ∧ s.credential.helperOwned = true ∧ s.active = false
  socketing : s.active = true → s.up = true ∧ s.hears = true
  connected : s.state = .connected → s.active = true
  opened : s.isOpen = true → s.state = .connected
  handed : s.credential.helperOwned = true → s.helper.running = true → s.ownHelper = false →
    s.up = false

/-- A helper of an older session has stopped. -/
def Link.otherStopped (s : Link) : Link :=
  { s with
    helper := { s.helper with running := false, attempted := false, reconnectEpoch := none }
    cloudTicketTimeout := none }

/-- Nothing is under way. -/
structure Link.Quiet (s : Link) : Prop where
  down : s.up = false
  ticket : s.ticketRequest = none
  helper : s.ownHelper = false
  socket : s.active = false
  opened : s.isOpen = false
  off : s.enabled = false → s.retryTimer = none

theorem Link.Quiet.sole {s : Link} (h : s.Quiet) : s.Sole := by
  have hup : ∀ {p : Prop}, s.up = true → p := by
    intro p hup
    rw [h.down] at hup
    cases hup
  refine ⟨hup, hup, hup, hup, h.off, ?_, ?_, ?_, ?_, ?_, fun _ _ _ => h.down⟩
  · intro hticket
    rw [h.ticket] at hticket
    cases hticket
  · intro hown
    rw [h.helper] at hown
    cases hown
  · intro hactive
    rw [h.socket] at hactive
    cases hactive
  · intro hstate
    exact hup (by simp [Link.up, hstate])
  · intro hopen
    rw [h.opened] at hopen
    cases hopen

theorem Link.Sole.quiet {s : Link} (h : s.Sole) (hdown : s.up = false) : s.Quiet := by
  have hnot : s.state ≠ .connecting ∧ s.state ≠ .connected := by
    simpa [Link.up] using hdown
  refine ⟨hdown, ?_, ?_, ?_, ?_, h.off⟩
  · cases hticket : s.ticketRequest with
    | none => rfl
    | some epoch => exact absurd (h.ticketing (by rw [hticket]; rfl)).1 hnot.1
  · cases hown : s.ownHelper with
    | false => rfl
    | true => exact absurd (h.helping hown).1 hnot.1
  · cases hactive : s.active with
    | false => rfl
    | true =>
        have hup := (h.socketing hactive).1
        rw [hdown] at hup
        cases hup
  · cases hopen : s.isOpen with
    | false => rfl
    | true => exact absurd (h.opened hopen) hnot.2

theorem Link.Sole.single {s : Link} (h : s.Sole) : s.Single := by
  refine ⟨h.timer, ?_⟩
  unfold Link.attempts
  by_cases hticket : s.ticketRequest = some s.sessionEpoch
  · obtain ⟨-, -, hown, hactive⟩ := h.ticketing (by rw [hticket]; rfl)
    simp [hticket, hown, hactive]
  · cases hown : s.ownHelper with
    | true => simp [hticket, (h.helping hown).2.2]
    | false => simpa [hticket] using Bool.toNat_le _

/-! ### Attempts -/

theorem deactivate_item (item : Option Socket) :
    (item.map Socket.deactivate).any (·.active) = false ∧
      (item.map Socket.deactivate).any (·.status = .open) = false := by
  cases item with
  | none => exact ⟨rfl, rfl⟩
  | some socket =>
      refine ⟨rfl, ?_⟩
      simp only [Option.map_some, Option.any_some, Socket.deactivate]
      split_ifs with hlive
      · rfl
      · simp only [not_or] at hlive
        simpa using hlive.1

/-- After `scheduleRetry` nothing is under way. -/
theorem scheduleRetry_quiet {s : Link} (hticket : s.ticketRequest = none)
    (hown : s.ownHelper = false) (hoff : s.enabled = false → s.retryTimer = none) :
    s.scheduleRetry.Quiet := by
  have hstate := scheduleRetry_state s
  have hown' := scheduleRetry_ownHelper s
  refine ⟨by simp [Link.up, hstate.1, hstate.2], ?_, hown'.trans hown, ?_, ?_, ?_⟩
  all_goals unfold Link.scheduleRetry
  · split_ifs
    · exact hticket
    · exact hticket
  · split_ifs
    · exact (deactivate_item s.item).1
    · exact (deactivate_item s.item).1
  · split_ifs
    · exact (deactivate_item s.item).2
    · exact (deactivate_item s.item).2
  · split_ifs with hback
    · exact hoff
    · intro hdisabled
      simp only [Bool.or_eq_true, not_or] at hback
      simp [show s.breakOff.enabled = false from hdisabled] at hback

theorem scheduleRetry_drops (s : Link) : s.scheduleRetry.drops = s.drops + 1 := by
  unfold Link.scheduleRetry
  split_ifs
  · rfl
  · rfl

/-- A quiet link may change its state to another that is not up. -/
theorem Link.Quiet.of_state {s : Link} (h : s.Quiet) {state : LinkState}
    (hdown : state ≠ .connecting ∧ state ≠ .connected) : Link.Quiet { s with state := state } :=
  ⟨by simp [Link.up, hdown.1, hdown.2], h.ticket, h.helper, h.socket, h.opened, h.off⟩

theorem Link.Quiet.offline {s : Link} (h : s.Quiet) :
    Link.Quiet { s with state := .offline } :=
  h.of_state ⟨nofun, nofun⟩

theorem signedOut_down (s : Link) :
    s.stateWithoutCredential ≠ .connecting ∧ s.stateWithoutCredential ≠ .connected :=
  (stateWithoutCredential_ne s).2

theorem Link.Sole.startHelper {s : Link} (h : s.Sole) (howned : s.credential.helperOwned = true)
    (hpaired : s.paired = true) (henabled : s.enabled = true) (hready : s.loaderStatus = .ready)
    (htimer : s.retryTimer = none) (hactive : s.active = false) : s.startHelper.Sole := by
  have hticket : s.ticketRequest.isSome = true → False := by
    intro hticket
    have hbearer := (h.ticketing hticket).2.1
    rw [howned] at hbearer
    cases hbearer
  have hopen : s.isOpen = true → False := by
    intro hopen
    have hlinked := h.connected (h.opened hopen)
    rw [hactive] at hlinked
    cases hlinked
  have hown : s.startHelper.ownHelper = true := by
    simp [Link.ownHelper, Link.startHelper]
  refine ⟨fun _ => henabled, fun _ => hpaired, fun _ => hready, fun _ => htimer, fun _ => htimer,
    fun hsome => (hticket hsome).elim, fun _ => ⟨rfl, howned, hactive⟩, fun hsocket => ?_,
    fun hlinked => ?_, fun hopened => (hopen hopened).elim, fun _ _ hnot => ?_⟩
  · rw [show s.startHelper.active = s.active from rfl, hactive] at hsocket
    cases hsocket
  · cases hlinked
  · rw [hown] at hnot
    cases hnot

theorem Link.Sole.requestTicket {s : Link} (h : s.Sole)
    (hbearer : s.credential.helperOwned = false)
    (hpaired : s.paired = true) (henabled : s.enabled = true) (hready : s.loaderStatus = .ready)
    (htimer : s.retryTimer = none) (hactive : s.active = false) : s.requestTicket.Sole := by
  have hown : s.ownHelper = true → False := by
    intro hown
    have howned := (h.helping hown).2.1
    rw [hbearer] at howned
    cases howned
  have hfree : s.ownHelper = false := by simpa using hown
  have hopen : s.isOpen = true → False := by
    intro hopen
    have hlinked := h.connected (h.opened hopen)
    rw [hactive] at hlinked
    cases hlinked
  refine ⟨fun _ => henabled, fun _ => hpaired, fun _ => hready, fun _ => htimer, fun _ => htimer,
    fun _ => ⟨rfl, hbearer, hfree, hactive⟩, fun htrue => (hown htrue).elim, fun hsocket => ?_,
    fun hlinked => ?_, fun hopened => (hopen hopened).elim, fun howned => ?_⟩
  · rw [show s.requestTicket.active = s.active from rfl, hactive] at hsocket
    cases hsocket
  · cases hlinked
  · rw [show s.requestTicket.credential = s.credential from rfl, hbearer] at howned
    cases howned

/-- A `connect` that starts no second attempt keeps them apart. -/
theorem Link.Sole.connect {s : Link} (h : s.Sole)
    (hfresh : s.startsAttempt = true → s.retryTimer = none ∧ s.active = false) :
    s.connect.Sole := by
  have hdown : (s.up = true → False) → s.Quiet := fun hnot => h.quiet (by simpa using hnot)
  refine connect_cases s ?unpaired ?disabled ?notReady ?failed ?handOff ?helping ?startHelper
    ?asking ?requestTicket
  case unpaired =>
    intro hpaired
    refine ((hdown fun hup => ?_).of_state (signedOut_down s)).sole
    rw [h.paired hup] at hpaired
    cases hpaired
  case disabled => exact fun _ => h
  case notReady =>
    intro _ _ hready _
    have hquiet := (hdown fun hup => hready (h.ready hup)).offline
    exact (scheduleRetry_quiet hquiet.ticket hquiet.helper hquiet.off).sole
  case failed =>
    intro herror
    refine (hdown fun hup => ?_).offline.sole
    rw [h.ready hup] at herror
    cases herror
  case handOff =>
    intro howned hrunning hother
    have hown : s.ownHelper = false := by simp [Link.ownHelper, hother]
    have hquiet := h.quiet (h.handed howned hrunning hown)
    exact Link.Quiet.sole ⟨rfl, hquiet.ticket, hown, hquiet.socket, hquiet.opened, hquiet.off⟩
  case helping => exact fun _ _ => h
  case startHelper =>
    intro howned hpaired henabled hready hidle
    obtain ⟨htimer, hactive⟩ := hfresh (by
      simp [Link.startsAttempt, howned, hpaired, henabled, hready, hidle])
    exact h.startHelper howned hpaired henabled hready htimer hactive
  case asking =>
    intro _ _ _ _ hticket
    have hstate := (h.ticketing hticket).1
    rw [← hstate]
    exact h
  case requestTicket =>
    intro hbearer hpaired henabled hready hnone
    obtain ⟨htimer, hactive⟩ := hfresh (by
      simp [Link.startsAttempt, hbearer, hpaired, henabled, hready, hnone])
    exact h.requestTicket hbearer hpaired henabled hready htimer hactive

/-- What `connect` leaves alone. -/
theorem connect_frame (s : Link) :
    s.connect.credential = s.credential ∧ s.connect.enabled = s.enabled ∧
      (s.credential.helperOwned = false → s.connect.helper = s.helper) ∧
      (s.active = false → s.connect.active = false) ∧
      (s.loaderStatus = .ready → s.retryTimer = none → s.connect.retryTimer = none) ∧
      s.drops ≤ s.connect.drops := by
  refine connect_cases (motive := fun t => t.credential = s.credential ∧ t.enabled = s.enabled ∧
      (s.credential.helperOwned = false → t.helper = s.helper) ∧
      (s.active = false → t.active = false) ∧
      (s.loaderStatus = .ready → s.retryTimer = none → t.retryTimer = none) ∧ s.drops ≤ t.drops) s
    ?unpaired ?disabled ?notReady ?failed ?handOff ?helping ?startHelper ?asking ?requestTicket
  case notReady =>
    intro _ _ hready _
    have hdrops := scheduleRetry_drops { s with state := .offline }
    refine ⟨?_, ?_, ?_, ?_, fun htrue => absurd htrue hready, ?_⟩
    · unfold Link.scheduleRetry
      split_ifs
      · rfl
      · rfl
    · unfold Link.scheduleRetry
      split_ifs
      · rfl
      · rfl
    · intro _
      unfold Link.scheduleRetry
      split_ifs
      · rfl
      · rfl
    · intro _
      unfold Link.scheduleRetry
      split_ifs
      · exact (deactivate_item s.item).1
      · exact (deactivate_item s.item).1
    · rw [hdrops]
      exact Nat.le_succ _
  case handOff =>
    intro howned _ _
    refine ⟨rfl, rfl, fun hbearer => ?_, id, fun _ => id, le_rfl⟩
    rw [howned] at hbearer
    cases hbearer
  case startHelper =>
    intro howned _ _ _ _
    refine ⟨rfl, rfl, fun hbearer => ?_, id, fun _ => id, le_rfl⟩
    rw [howned] at hbearer
    cases hbearer
  all_goals intros; exact ⟨rfl, rfl, fun _ => rfl, id, fun _ => id, le_rfl⟩

/-! ### The loader -/

theorem loaderReady_of_no_url {s : Link} (h : s.pendingSocketEpoch = none) :
    s.loaderReady =
      if s.paired ∧ s.state ≠ .connected ∧ s.state ≠ .connecting then
        Link.connect { s with retryTimer := none }
      else s := by
  have hnone : s.activatePendingSocket = none := by
    simp [Link.activatePendingSocket, h]
  rw [Link.loaderReady, hnone]

/-- What a quiet link comes to when its loader does. -/
theorem Link.Quiet.loaderLoaded {s : Link} (h : s.Quiet) (hpending : s.pendingSocketEpoch = none) :
    s.loaderLoaded.Sole := by
  unfold Link.loaderLoaded
  split_ifs
  · have hquiet : Link.Quiet { s with
        loaderStatus := .ready, item := some ⟨false, none, .closed⟩ } :=
      ⟨h.down, h.ticket, h.helper, rfl, rfl, h.off⟩
    rw [loaderReady_of_no_url]
    · split_ifs
      · have hready : Link.Quiet { s with
            loaderStatus := .ready, item := some ⟨false, none, .closed⟩, retryTimer := none } :=
          ⟨h.down, h.ticket, h.helper, rfl, rfl, fun _ => rfl⟩
        exact hready.sole.connect fun _ => ⟨rfl, rfl⟩
      · exact hquiet.sole
    · exact hpending
  · have hquiet : (Link.loaderFailed { s with loaderStatus := .error, item := none }).Quiet :=
      ⟨rfl, h.ticket, h.helper, rfl, rfl, fun _ => rfl⟩
    exact hquiet.sole

theorem loaderLoaded_frame {s : Link} (hpending : s.pendingSocketEpoch = none)
    (htimer : s.retryTimer = none) :
    s.loaderLoaded.credential = s.credential ∧ s.loaderLoaded.enabled = s.enabled ∧
      (s.credential.helperOwned = false → s.loaderLoaded.helper = s.helper) ∧
      s.loaderLoaded.active = false ∧ s.loaderLoaded.retryTimer = none ∧
      s.drops ≤ s.loaderLoaded.drops := by
  unfold Link.loaderLoaded
  split_ifs
  · rw [loaderReady_of_no_url]
    · split_ifs
      · have hframe := connect_frame { s with
          loaderStatus := .ready, item := some ⟨false, none, .closed⟩, retryTimer := none }
        obtain ⟨hcredential, henabled, hhelper, hactive, hnone, hdrops⟩ := hframe
        exact ⟨hcredential, henabled, hhelper, hactive rfl, hnone rfl rfl, hdrops⟩
      · exact ⟨rfl, rfl, fun _ => rfl, rfl, htimer, le_rfl⟩
    · exact hpending
  · exact ⟨rfl, rfl, fun _ => rfl, rfl, rfl, le_rfl⟩

/-- A url's socket is the attempt that its ticket or helper was. -/
theorem openSocketUrl_sole {s : Link} (hstate : s.state = .connecting)
    (henabled : s.enabled = true) (hpaired : s.paired = true) (htimer : s.retryTimer = none)
    (hticket : s.ticketRequest = none) (hown : s.ownHelper = false)
    (hhelper : s.credential.helperOwned = true → s.helper.running = false) :
    s.openSocketUrl.Sole := by
  cases hloadable : s.loadable with
  | true =>
      rw [openSocketUrl_of_loadable hloadable]
      refine ⟨fun _ => henabled, fun _ => hpaired, fun _ => rfl, fun _ => htimer, fun _ => htimer,
        ?_, ?_, ?_, fun _ => rfl, nofun, ?_⟩
      · intro hsome
        rw [show s.ticketRequest = none from hticket] at hsome
        cases hsome
      · intro htrue
        rw [show s.ownHelper = true from htrue] at hown
        cases hown
      · intro _
        exact ⟨by simp [Link.up, hstate], by simp [Link.hears]⟩
      · intro howned hrunning
        rw [show s.helper.running = true from hrunning] at hhelper
        cases hhelper howned
  | false =>
      rw [openSocketUrl_of_missing hloadable]
      exact Link.Quiet.sole ⟨rfl, hticket, hown, rfl, rfl, fun _ => rfl⟩

/-! ### Sessions -/

theorem credentialFingerprint_helperOwned {data other : Credential}
    (h : credentialFingerprint data = credentialFingerprint other) :
    data.helperOwned = other.helperOwned := by
  have hmode : data.authMode = other.authMode := congrArg Fingerprint.authMode h
  have htype : data.tokenTypeOrBearer = other.tokenTypeOrBearer :=
    congrArg Fingerprint.tokenType h
  rw [Credential.helperOwned, Credential.helperOwned, hmode, htype]

theorem Link.Wired.resetTransport_quiet {s : Link} (h : s.Wired) : s.resetTransport.Quiet :=
  ⟨rfl, rfl, resetTransport_ownHelper h, rfl, rfl, fun _ => rfl⟩

theorem Link.Sole.connectIfDown {s : Link} (h : s.Sole) (htimer : s.retryTimer = none)
    (hactive : s.active = false) : s.connectIfDown.Sole := by
  unfold Link.connectIfDown
  split_ifs
  · exact h.connect fun _ => ⟨htimer, hactive⟩
  · exact h

theorem Link.Sole.setEnabled {s : Link} (hlive : s.Live) (h : s.Sole) (enabled : Bool) :
    (s.setEnabled enabled).Sole := by
  unfold Link.setEnabled
  by_cases hsame : enabled = s.enabled
  · rw [if_pos hsame]
    exact h
  rw [if_neg hsame]
  cases enabled with
  | true =>
      have hoff : s.enabled = false := by simpa using hsame
      have hdown : s.up = false := by
        cases hup : s.up with
        | false => rfl
        | true =>
            have hon := h.enabled hup
            rw [hoff] at hon
            cases hon
      have hquiet := h.quiet hdown
      rw [if_pos rfl]
      by_cases hactive : s.loaderActive = true
      · have hsame : Link.activateLoader { s with enabled := true } = { s with enabled := true } :=
          activateLoader_of_active hactive
        rw [hsame]
        have hon : Link.Quiet { s with enabled := true } :=
          ⟨hdown, hquiet.ticket, hquiet.helper, hquiet.socket, hquiet.opened, nofun⟩
        exact hon.sole.connectIfDown (h.off hoff) hquiet.socket
      · have hback : Link.activateLoader { s with enabled := true } =
            Link.loaderLoaded { s with enabled := true, loaderActive := true } :=
          activateLoader_of_inactive hactive
        rw [hback]
        have hon : Link.Quiet { s with enabled := true, loaderActive := true } :=
          ⟨hdown, hquiet.ticket, hquiet.helper, hquiet.socket, hquiet.opened, nofun⟩
        have hframe := @loaderLoaded_frame { s with enabled := true, loaderActive := true }
          hlive.wired.pendingSocket (h.off hoff)
        exact (hon.loaderLoaded hlive.wired.pendingSocket).connectIfDown hframe.2.2.2.2.1
          hframe.2.2.2.1
  | false =>
      rw [if_neg (by decide)]
      have hquiet := hlive.wired.resetTransport_quiet
      have hoff : (Link.resetTransport { s with enabled := false }).Quiet :=
        ⟨rfl, rfl, hquiet.helper, rfl, rfl, fun _ => rfl⟩
      simp only
      split_ifs
      · exact (hoff.of_state (signedOut_down _)).sole
      · exact hoff.sole

theorem Link.Sole.followCredential {s : Link} (h : s.Sole)
    (hcross : s.helper.running = true → s.ownHelper = false → s.state ≠ .connecting)
    (hfresh : s.state ≠ .connected → s.helper.running = false → s.startsAttempt = true →
      s.retryTimer = none ∧ s.active = false) : s.followCredential.Sole := by
  unfold Link.followCredential
  split_ifs with hpaired hstate hbusy hrunning
  · have hown : s.ownHelper = false := by simp [Link.ownHelper, hbusy.2]
    have hquiet := h.quiet (by simp [Link.up, hstate, hcross hbusy.1 hown])
    exact Link.Quiet.sole ⟨rfl, hquiet.ticket, hown, hquiet.socket, hquiet.opened, hquiet.off⟩
  · exact h.connect (hfresh hstate (by simpa using hrunning))
  · exact h
  · exact h
  · have hdown : s.up = false := by
      cases hup : s.up with
      | false => rfl
      | true => exact absurd (h.paired hup) hpaired
    exact ((h.quiet hdown).of_state (signedOut_down s)).sole

/-- A file of the same session changes nothing that is under way. -/
theorem Link.Sole.adoptSame {s : Link} (hlive : s.Live) (h : s.Sole) {data : Credential}
    (hsame : s.fingerprint = some (credentialFingerprint data)) :
    Link.Sole { s with credential := data } := by
  have hkey := hlive.wired.same _ hsame
  have hpaired := (credentialFingerprint_paired hkey).2
  have howned := credentialFingerprint_helperOwned hkey
  refine { h with
    paired := fun hup => ?_, ticketing := fun hticket => ?_, helping := fun hown => ?_
    handed := fun hmode => ?_ }
  · exact hpaired.trans (h.paired hup)
  · obtain ⟨hstate, hbearer, hfree⟩ := h.ticketing hticket
    exact ⟨hstate, howned.trans hbearer, hfree⟩
  · obtain ⟨hstate, hmode, hactive⟩ := h.helping hown
    exact ⟨hstate, howned.trans hmode, hactive⟩
  · exact h.handed (howned.symm.trans hmode)

/-- A credential whose loader comes back with it. -/
theorem Link.Quiet.followLoaded {s : Link} (h : s.Quiet) (hpending : s.pendingSocketEpoch = none)
    (htimer : s.retryTimer = none)
    (hcross : s.helper.running = true → s.enabled = true → s.loadable = true → s.paired = true →
      s.credential.helperOwned = true) : s.loaderLoaded.followCredential.Sole := by
  have hsole := h.loaderLoaded hpending
  obtain ⟨hcredential, henabled, hhelper, hactive, hnone, -⟩ := loaderLoaded_frame hpending htimer
  refine hsole.followCredential (fun hrunning hown hstate => ?_) fun _ _ _ => ⟨hnone, hactive⟩
  have hup : s.loaderLoaded.up = true := by simp [Link.up, hstate]
  cases howned : s.credential.helperOwned with
  | true =>
      have hdown := hsole.handed (by rw [hcredential, howned]) hrunning hown
      rw [hup] at hdown
      cases hdown
  | false =>
      have hloadable : s.loadable = true := by
        cases hmissing : s.loadable with
        | true => rfl
        | false =>
            rw [Link.loaderLoaded, if_neg (by simp [hmissing])] at hstate
            cases hstate
      have hpaired : s.paired = true := by
        rw [Link.paired, ← hcredential]
        exact hsole.paired hup
      have htrue := hcross (by rw [← hhelper howned, hrunning])
        (by rw [← henabled, hsole.enabled hup]) hloadable hpaired
      rw [howned] at htrue
      cases htrue

theorem Link.Sole.fileLoaded {s : Link} (hlive : s.Live) (h : s.Sole) {data : Credential}
    (hcareful : Undisturbed s (.fileLoaded data)) : (s.fileLoaded data).Sole := by
  have hcross := hcareful.crosses
  unfold Link.fileLoaded Link.adoptCredential
  by_cases hsame : s.fingerprint = some (credentialFingerprint data)
  · rw [if_pos hsame]
    have hadopted := h.adoptSame hlive hsame
    simp only [Link.crosses, if_pos hsame] at hcross
    by_cases hactive : s.loaderActive = true
    · have hthere : Link.activateLoader { s with credential := data } =
          { s with credential := data } := activateLoader_of_active hactive
      rw [hthere]
      refine hadopted.followCredential (fun hrunning hown => ?_) fun hstate hidle hstart => ?_
      · have hother : s.ownHelper = false := hown
        have hbusy : s.helper.running = true := hrunning
        simpa [hbusy, hother] using hcross
      · have hdown : s.state ≠ .connected := hstate
        have hfree : s.helper.running = false := hidle
        refine hcareful.starts ?_
        rw [Link.startsAt, hstart, Bool.and_true]
        simp [hsame, hdown, hfree]
    · have hoff : s.enabled = false := by
        cases hon : s.enabled with
        | false => rfl
        | true => exact absurd (hlive.loads hon (by rw [hsame]; rfl)) hactive
      have hback : Link.activateLoader { s with credential := data } =
          Link.loaderLoaded { s with credential := data, loaderActive := true } :=
        activateLoader_of_inactive hactive
      rw [hback]
      have hdown : s.up = false := by
        cases hup : s.up with
        | false => rfl
        | true =>
            have hon := h.enabled hup
            rw [hoff] at hon
            cases hon
      have hquiet := h.quiet hdown
      have hloaded : Link.Quiet { s with credential := data, loaderActive := true } :=
        ⟨hdown, hquiet.ticket, hquiet.helper, hquiet.socket, hquiet.opened, hquiet.off⟩
      refine hloaded.followLoaded hlive.wired.pendingSocket (h.off hoff) fun _ hon => ?_
      rw [show s.enabled = true from hon] at hoff
      cases hoff
  · rw [if_neg hsame]
    simp only [Link.crosses, if_neg hsame] at hcross
    have hquiet := hlive.wired.resetTransport_quiet
    have hloaded : Link.Quiet { s.resetTransport with
        fingerprint := some (credentialFingerprint data), credential := data
        loaderActive := true } :=
      ⟨rfl, rfl, hquiet.helper, rfl, rfl, fun _ => rfl⟩
    refine hloaded.followLoaded rfl rfl fun hrunning hon hloadable hpaired => ?_
    have hbusy : s.helper.running = true := hrunning
    have henabled : s.enabled = true := hon
    have hthere : s.loadable = true := hloadable
    have hdata : data.paired = true := hpaired
    simpa [hbusy, henabled, hthere, hdata] using hcross

theorem Link.Sole.fileFailed {s : Link} (hlive : s.Live) (notFound : Bool) :
    (s.fileFailed notFound).Sole := by
  have hquiet := hlive.wired.resetTransport_quiet
  refine Link.Quiet.sole ⟨?_, rfl, hquiet.helper, rfl, rfl, fun _ => rfl⟩
  cases notFound with
  | false => rfl
  | true => rfl

/-! ### Answers and timeouts -/

theorem signedOut_quiet {s : Link} (hticket : s.ticketRequest = none) (hown : s.ownHelper = false)
    (hactive : s.active = false) (hopen : s.isOpen = false)
    (hoff : s.enabled = false → s.retryTimer = none) :
    Link.Quiet { s with state := s.stateWithoutCredential } := by
  have hdown := signedOut_down s
  exact ⟨by simp [Link.up, hdown.1, hdown.2], hticket, hown, hactive, hopen, hoff⟩

theorem Link.Sole.not_open {s : Link} (h : s.Sole) (hstate : s.state = .connecting) :
    s.isOpen = false := by
  cases hopen : s.isOpen with
  | false => rfl
  | true =>
      have hlinked := h.opened hopen
      rw [hstate] at hlinked
      cases hlinked

/-- An active socket is the only attempt. -/
theorem Link.Sole.only_socket {s : Link} (h : s.Sole) (hactive : s.active = true) :
    s.ticketRequest = none ∧ s.ownHelper = false := by
  refine ⟨?_, ?_⟩
  · cases hticket : s.ticketRequest with
    | none => rfl
    | some epoch =>
        have hnone := (h.ticketing (by rw [hticket]; rfl)).2.2.2
        rw [hactive] at hnone
        cases hnone
  · cases hown : s.ownHelper with
    | false => rfl
    | true =>
        have hnone := (h.helping hown).2.2
        rw [hactive] at hnone
        cases hnone

theorem Link.Sole.ticketAnswered {s : Link} (hlive : s.Live) (h : s.Sole) (answer : TicketAnswer) :
    (s.ticketAnswered answer).Sole := by
  unfold Link.ticketAnswered
  cases hticket : s.ticketRequest with
  | none => exact h
  | some epoch =>
      have hepoch : epoch = s.sessionEpoch :=
        Option.some.inj (hticket.symm.trans (hlive.wired.ticket epoch hticket).1)
      obtain ⟨hstate, hbearer, hown, hactive⟩ := h.ticketing (by rw [hticket]; rfl)
      have hup : s.up = true := by simp [Link.up, hstate]
      simp only
      rw [if_neg (not_not.mpr hepoch)]
      cases answer with
      | ticket =>
          refine openSocketUrl_sole hstate (h.enabled hup) (h.paired hup) (h.timer hup) rfl hown ?_
          intro howned
          rw [show s.credential.helperOwned = true from howned] at hbearer
          cases hbearer
      | malformed => exact Link.Quiet.sole (scheduleRetry_quiet rfl hown h.off)
      | rejected =>
          exact Link.Quiet.sole (signedOut_quiet rfl hown hactive (h.not_open hstate) h.off)
      | failed => exact Link.Quiet.sole (scheduleRetry_quiet rfl hown h.off)

theorem Link.Sole.otherStopped {s : Link} (h : s.Sole) : s.otherStopped.Sole := by
  refine { h with ticketing := fun hticket => ?_, helping := nofun, handed := nofun }
  obtain ⟨hstate, hbearer, -, hactive⟩ := h.ticketing hticket
  exact ⟨hstate, hbearer, rfl, hactive⟩

theorem Undisturbed.handOff {s : Link} {exit : HelperExit}
    (h : Undisturbed s (.helperStopped exit)) (hrunning : s.helper.running = true)
    (hother : s.ownHelper = false) (hslot : s.helper.reconnectEpoch = some s.sessionEpoch)
    (hstart : s.otherStopped.startsAttempt = true) : s.retryTimer = none ∧ s.active = false := by
  refine h.starts ?_
  have hidle : Link.startsAttempt { s with
      helper := { s.helper with running := false } } = true := hstart
  rw [Link.startsAt, hidle]
  simp [hrunning, hother, hslot]

theorem Link.Sole.helperStopped {s : Link} (hlive : s.Live) (h : s.Sole) {exit : HelperExit}
    (hcareful : Undisturbed s (.helperStopped exit)) : (s.helperStopped exit).Sole := by
  unfold Link.helperStopped
  by_cases hrunning : s.helper.running = true
  · rw [if_neg (by simp [hrunning])]
    simp only
    rw [if_neg (by simp [hlive.wired.attempted hrunning])]
    by_cases hepoch : s.helper.attemptEpoch = some s.sessionEpoch
    · rw [if_neg (not_not.mpr hepoch)]
      have hown : s.ownHelper = true := by simp [Link.ownHelper, hrunning, hepoch]
      obtain ⟨hstate, howned, hactive⟩ := h.helping hown
      have hup : s.up = true := by simp [Link.up, hstate]
      have hticket : s.ticketRequest = none := by
        cases hticket : s.ticketRequest with
        | none => rfl
        | some epoch =>
            have hbearer := (h.ticketing (by rw [hticket]; rfl)).2.1
            rw [howned] at hbearer
            cases hbearer
      unfold Link.helperAnswered
      split_ifs
      · exact Link.Quiet.sole (scheduleRetry_quiet hticket rfl h.off)
      · cases exit with
        | socketUrl =>
            exact openSocketUrl_sole hstate (h.enabled hup) (h.paired hup) (h.timer hup) hticket rfl
              fun _ => rfl
        | malformed => exact Link.Quiet.sole (scheduleRetry_quiet hticket rfl h.off)
        | signInRequired =>
            exact Link.Quiet.sole (signedOut_quiet hticket rfl hactive (h.not_open hstate) h.off)
        | failed => exact Link.Quiet.sole (scheduleRetry_quiet hticket rfl h.off)
    · rw [if_pos hepoch]
      have hother : s.ownHelper = false := by simp [Link.ownHelper, hepoch]
      split_ifs with hgo
      · exact h.otherStopped.connect (hcareful.handOff hrunning hother hgo.1)
      · exact h.otherStopped
  · rw [if_pos (by simp [hrunning])]
    exact h

theorem Link.Sole.ticketTimedOut {s : Link} (h : s.Sole) : s.ticketTimedOut.Sole := by
  unfold Link.ticketTimedOut
  cases htimeout : s.ticketTimeout with
  | none => exact h
  | some epoch =>
      simp only
      split_ifs with hstale
      · exact { h with }
      · have hticket : s.ticketRequest.isSome = true := by
          rw [Option.isSome_iff_ne_none]
          intro hnone
          exact hstale (Or.inr hnone)
        exact Link.Quiet.sole (scheduleRetry_quiet rfl (h.ticketing hticket).2.2.1 h.off)

theorem Link.Sole.helperTimedOut {s : Link} (h : s.Sole) : s.helperTimedOut.Sole := by
  unfold Link.helperTimedOut
  cases htimeout : s.cloudTicketTimeout with
  | none => exact h
  | some epoch =>
      simp only
      split_ifs
      · exact { h with }
      · exact { h with }

theorem Link.Sole.socketTimedOut {s : Link} (h : s.Sole) : s.socketTimedOut.Sole := by
  unfold Link.socketTimedOut
  cases htimeout : s.socketConnectTimeout with
  | none => exact h
  | some epoch =>
      simp only
      split_ifs with hidle
      · exact { h with }
      · have hactive : s.active = true := by
          simp only [not_or] at hidle
          simpa [Link.active] using hidle.2.2
        obtain ⟨hticket, hown⟩ := h.only_socket hactive
        exact Link.Quiet.sole (scheduleRetry_quiet hticket hown h.off)

/-- A link that is not up starts an attempt once its timer is off. -/
theorem Link.Sole.connect_of_down {s : Link} (h : s.Sole) (hdown : s.up = false) :
    (Link.connect { s with retryTimer := none }).Sole := by
  have hquiet := h.quiet hdown
  have hfresh : Link.Quiet { s with retryTimer := none } :=
    ⟨hdown, hquiet.ticket, hquiet.helper, hquiet.socket, hquiet.opened, fun _ => rfl⟩
  exact hfresh.sole.connect fun _ => ⟨rfl, hquiet.socket⟩

theorem Link.Sole.retryTimedOut {s : Link} (h : s.Sole) : s.retryTimedOut.Sole := by
  unfold Link.retryTimedOut
  cases htimer : s.retryTimer with
  | none => exact h
  | some epoch =>
      simp only
      split_ifs
      · refine h.connect_of_down ?_
        cases hup : s.up with
        | false => rfl
        | true =>
            have hnone := h.timer hup
            rw [htimer] at hnone
            cases hnone
      · exact { h with timer := fun _ => rfl, off := fun _ => rfl }

theorem Link.Sole.silent {s : Link} (h : s.Sole) : s.silent.Sole := by
  unfold Link.silent
  split_ifs with hstate
  · obtain ⟨hticket, hown⟩ := h.only_socket (h.connected hstate)
    exact (scheduleRetry_quiet hticket hown h.off).sole
  · exact h

theorem Link.Sole.resumeReconnect {s : Link} (h : s.Sole) (resumed : Bool) :
    (s.resumeReconnect resumed).Sole := by
  unfold Link.resumeReconnect
  split_ifs with hkeep
  · exact h
  · have hoff : s.state = .offline := by
      by_contra hstate
      simp [hstate] at hkeep
    exact h.connect_of_down (by simp [Link.up, hoff])

theorem Link.Sole.onlineChanged {s : Link} (h : s.Sole) (online : Bool) :
    (s.onlineChanged online).Sole := by
  have hchanged : Link.Sole { s with networkOnline := online } := { h with }
  unfold Link.onlineChanged
  simp only
  split_ifs
  · exact hchanged.resumeReconnect false
  · exact hchanged

theorem Link.Sole.knownChanged {s : Link} (h : s.Sole) (known : Bool) :
    (s.knownChanged known).Sole := by
  have hchanged : Link.Sole { s with networkKnown := known } := { h with }
  unfold Link.knownChanged
  simp only
  split_ifs
  · exact hchanged.resumeReconnect false
  · exact hchanged

theorem Link.Sole.idleChanged {s : Link} (h : s.Sole) (idle : Bool) :
    (s.idleChanged idle).Sole := by
  have hchanged : Link.Sole { s with idle := idle } := { h with }
  unfold Link.idleChanged
  simp only
  split_ifs
  · exact hchanged.resumeReconnect true
  · exact hchanged

/-! ### The socket -/

theorem Link.Sole.socketOpened {s : Link} (h : s.Sole) : s.socketOpened.Sole := by
  unfold Link.socketOpened
  cases hitem : s.item with
  | none => exact h
  | some socket =>
      simp only
      split_ifs with hidle hhears
      · exact h
      · have hactive : s.active = true := by simpa [Link.active, hitem] using hidle
        have hup := (h.socketing hactive).1
        obtain ⟨hticket, hown⟩ := h.only_socket hactive
        refine ⟨fun _ => h.enabled hup, fun _ => h.paired hup, fun _ => h.ready hup,
          fun _ => h.timer hup, h.off, fun hsome => ?_, fun htrue => ?_, fun _ => ⟨rfl, hhears⟩,
          fun _ => ?_, fun _ => rfl, fun howned hrunning hother => ?_⟩
        · rw [show s.ticketRequest = none from hticket] at hsome
          cases hsome
        · rw [show s.ownHelper = true from htrue] at hown
          cases hown
        · simpa [Link.active] using hidle
        · have hdown := h.handed howned hrunning hother
          rw [hup] at hdown
          cases hdown
      · have hactive : s.active = true := by simpa [Link.active, hitem] using hidle
        have hheard := (h.socketing hactive).2
        rw [Link.hears, hitem] at hheard
        exact absurd hheard hhears

/-- Whoever is heard while the link is up is its only attempt. -/
theorem Link.Sole.only_heard {s : Link} (h : s.Sole) (hhears : s.hears = true)
    (hcross : (s.state = .connecting && s.hears && !s.active) = false) :
    s.ticketRequest = none ∧ s.ownHelper = false := by
  cases hactive : s.active with
  | true => exact h.only_socket hactive
  | false =>
      have hdown : s.up = false := by
        rw [Link.up, Bool.or_eq_false_iff, decide_eq_false_iff_not, decide_eq_false_iff_not]
        refine ⟨fun hstate => ?_, fun hstate => ?_⟩
        · simp [hstate, hhears, hactive] at hcross
        · have hlinked := h.connected hstate
          rw [hactive] at hlinked
          cases hlinked
      exact ⟨(h.quiet hdown).ticket, (h.quiet hdown).helper⟩

theorem Link.Sole.socketEnded {s : Link} (h : s.Sole) {status : SocketStatus}
    (hended : status ≠ .open)
    (hcross : (s.state = .connecting && s.hears && !s.active) = false) :
    (s.socketEnded status).Sole := by
  unfold Link.socketEnded
  cases hitem : s.item with
  | none => exact h
  | some socket =>
      have hactive : Link.active { s with item := some { socket with status := status } } =
          s.active := by
        simp [Link.active, hitem]
      have hheard : Link.hears { s with item := some { socket with status := status } } =
          s.hears := by
        simp [Link.hears, hitem]
      have hmarked : Link.Sole { s with item := some { socket with status := status } } := by
        refine { h with
          ticketing := fun hticket => ?_, helping := fun hown => ?_, socketing := fun hon => ?_
          connected := fun hstate => ?_, opened := fun hopen => ?_ }
        · rw [hactive]
          exact h.ticketing hticket
        · rw [hactive]
          exact h.helping hown
        · rw [hheard]
          exact h.socketing (hactive ▸ hon)
        · rw [hactive]
          exact h.connected hstate
        · simp [Link.isOpen, hended] at hopen
      simp only
      split_ifs with hdeaf hup
      · exact hmarked
      · have hhears : s.hears = true := by
          rw [hheard] at hdeaf
          simpa using hdeaf
        obtain ⟨hticket, hown⟩ := h.only_heard hhears hcross
        exact Link.Quiet.sole (scheduleRetry_quiet hticket hown h.off)
      · exact { hmarked with }

theorem Link.Sole.shellExited {s : Link} (h : s.Sole)
    (hcross : (s.state = .connecting && s.hears && !s.active) = false) :
    s.shellExited.Sole := by
  unfold Link.shellExited
  split_ifs with hhears
  · obtain ⟨hticket, hown⟩ := h.only_heard hhears hcross
    exact (scheduleRetry_quiet hticket hown h.off).sole
  · exact h

/-! ### Steps -/

theorem Link.Sole.unhindered {s : Link} (h : s.Sole) (event : Event) : Unhindered s event := by
  intro _ hoff
  exact (h.quiet (by simp [Link.up, hoff])).helper

theorem Link.Sole.step {s : Link} (hlive : s.Live) (h : s.Sole) {event : Event}
    (hcareful : Undisturbed s event) : (s.step event).Sole := by
  cases event with
  | fileLoaded data => exact h.fileLoaded hlive hcareful
  | fileFailed notFound => exact Link.Sole.fileFailed hlive notFound
  | setEnabled enabled => exact h.setEnabled hlive enabled
  | connect => exact h.connect hcareful.starts
  | loaderCompleted =>
      simp only [Link.step]
      split_ifs with hloading
      · have hdown : s.up = false := by
          cases hup : s.up with
          | false => rfl
          | true =>
              have hready := h.ready hup
              rw [hloading] at hready
              cases hready
        exact (h.quiet hdown).loaderLoaded hlive.wired.pendingSocket
      · exact h
  | ticketAnswered answer => exact h.ticketAnswered hlive answer
  | helperStopped exit => exact h.helperStopped hlive hcareful
  | ticketTimedOut => exact h.ticketTimedOut
  | helperTimedOut => exact h.helperTimedOut
  | socketTimedOut => exact h.socketTimedOut
  | retryTimedOut => exact h.retryTimedOut
  | silent => exact h.silent
  | onlineChanged online => exact h.onlineChanged online
  | knownChanged known => exact h.knownChanged known
  | idleChanged idle => exact h.idleChanged idle
  | socketOpened => exact h.socketOpened
  | socketClosed => exact h.socketEnded (by decide) hcareful.crosses
  | socketFailed => exact h.socketEnded (by decide) hcareful.crosses
  | shellExited => exact h.shellExited hcareful.crosses

theorem initial_sole (enabled loadable networkKnown networkOnline idle : Bool) :
    (Link.initial enabled loadable networkKnown networkOnline idle).Sole :=
  Link.Quiet.sole ⟨rfl, rfl, rfl, rfl, rfl, fun _ => rfl⟩

/-! ### Dropped links -/

theorem followCredential_drops (s : Link) : s.drops ≤ s.followCredential.drops := by
  unfold Link.followCredential
  split_ifs
  · exact le_rfl
  · exact (connect_frame s).2.2.2.2.2
  · exact le_rfl
  · exact le_rfl
  · exact le_rfl

theorem resetTransport_drops {s : Link} (hstate : s.state = .connected) :
    s.resetTransport.drops = s.drops + 1 := by
  simp [Link.resetTransport, hstate]

/-- `connect` does nothing to a connected link it may not start from. -/
theorem Link.Sole.connect_linked {s : Link} (h : s.Sole) (hstate : s.state = .connected)
    (hfresh : s.startsAttempt = true → s.retryTimer = none ∧ s.active = false) :
    s.connect = s := by
  have hup : s.up = true := by simp [Link.up, hstate]
  have hactive := h.connected hstate
  obtain ⟨hticket, hown⟩ := h.only_socket hactive
  have hnot : s.startsAttempt = true → False := by
    intro hstart
    have hidle := (hfresh hstart).2
    rw [hactive] at hidle
    cases hidle
  refine connect_cases (motive := fun t => t = s) s ?unpaired ?disabled ?notReady ?failed ?handOff
    ?helping ?startHelper ?asking ?requestTicket
  case unpaired =>
    intro hpaired
    rw [h.paired hup] at hpaired
    cases hpaired
  case disabled => exact fun _ => rfl
  case notReady => exact fun _ _ hready _ => absurd (h.ready hup) hready
  case failed =>
    intro herror
    rw [h.ready hup] at herror
    cases herror
  case handOff =>
    intro howned hrunning _
    have hdown := h.handed howned hrunning hown
    rw [hup] at hdown
    cases hdown
  case helping => exact fun _ _ => rfl
  case startHelper =>
    intro howned hpaired henabled hready hidle
    exact (hnot (by simp [Link.startsAttempt, howned, hpaired, henabled, hready, hidle])).elim
  case asking =>
    intro _ _ _ _ hsome
    rw [hticket] at hsome
    cases hsome
  case requestTicket =>
    intro hbearer hpaired henabled hready hnone
    exact (hnot (by simp [Link.startsAttempt, hbearer, hpaired, henabled, hready, hnone])).elim

theorem followCredential_linked {s : Link} (hpaired : s.paired = true)
    (hstate : s.state = .connected) : s.followCredential = s := by
  rw [Link.followCredential, if_pos hpaired, if_neg (not_not.mpr hstate)]

theorem Announced.of_linked {s t : Link} (hstate : t.state = .connected)
    (hitem : t.item = s.item) : Announced s t :=
  Or.inr ⟨fun _ => hstate, fun hopen => by rwa [Link.isOpen, hitem]⟩

theorem Announced.of_drops {s t : Link} (h : t.drops = s.drops + 1) : Announced s t :=
  Or.inl (by omega)

theorem Link.Sole.fileLoaded_announces {s : Link} (hlive : s.Live) (h : s.Sole)
    (hstate : s.state = .connected) (data : Credential) : Announced s (s.fileLoaded data) := by
  have hup : s.up = true := by simp [Link.up, hstate]
  unfold Link.fileLoaded Link.adoptCredential
  by_cases hsame : s.fingerprint = some (credentialFingerprint data)
  · have hloader := hlive.loads (h.enabled hup) (by rw [hsame]; rfl)
    have hthere : Link.activateLoader { s with credential := data } =
        { s with credential := data } := activateLoader_of_active hloader
    have hpaired := (credentialFingerprint_paired (hlive.wired.same _ hsame)).2
    have hstays : Link.followCredential { s with credential := data } =
        { s with credential := data } :=
      followCredential_linked (hpaired.trans (h.paired hup)) hstate
    rw [if_pos hsame, hthere, hstays]
    exact .of_linked hstate rfl
  · rw [if_neg hsame]
    have hback : Link.activateLoader { s.resetTransport with
          fingerprint := some (credentialFingerprint data), credential := data } =
        Link.loaderLoaded { s.resetTransport with
          fingerprint := some (credentialFingerprint data), credential := data
          loaderActive := true } :=
      activateLoader_of_inactive nofun
    rw [hback]
    have hloaded := (@loaderLoaded_frame { s.resetTransport with
      fingerprint := some (credentialFingerprint data), credential := data
      loaderActive := true } rfl rfl).2.2.2.2.2
    have hreset := resetTransport_drops hstate
    have hfollowed := followCredential_drops (Link.loaderLoaded { s.resetTransport with
      fingerprint := some (credentialFingerprint data), credential := data
      loaderActive := true })
    left
    have hfirst : s.drops + 1 ≤ _ := hreset ▸ hloaded
    exact hfirst.trans hfollowed

theorem Link.Sole.helperStopped_announces {s : Link} (hlive : s.Live) (h : s.Sole)
    (hstate : s.state = .connected) {exit : HelperExit}
    (hcareful : Undisturbed s (.helperStopped exit)) : Announced s (s.helperStopped exit) := by
  have hown := (h.only_socket (h.connected hstate)).2
  unfold Link.helperStopped
  by_cases hrunning : s.helper.running = true
  · rw [if_neg (by simp [hrunning])]
    simp only
    rw [if_neg (by simp [hlive.wired.attempted hrunning]),
      if_pos (by simpa [Link.ownHelper, hrunning] using hown)]
    split_ifs with hgo
    · have hstays : s.otherStopped.connect = s.otherStopped :=
        h.otherStopped.connect_linked hstate (hcareful.handOff hrunning hown hgo.1)
      have hannounced : Announced s s.otherStopped.connect := by
        rw [hstays]
        exact .of_linked hstate rfl
      exact hannounced
    · exact .of_linked hstate rfl
  · rw [if_pos (by simp [hrunning])]
    exact .of_linked hstate rfl

theorem socketEnded_announces {s : Link} (hstate : s.state = .connected) (hhears : s.hears = true)
    (status : SocketStatus) : Announced s (s.socketEnded status) := by
  unfold Link.socketEnded
  cases hitem : s.item with
  | none => exact .of_linked hstate rfl
  | some socket =>
      have hheard : Link.hears { s with item := some { socket with status := status } } = true := by
        rw [Link.hears, hitem] at hhears
        exact hhears
      simp only
      rw [if_neg (by rw [hheard]; decide), if_pos (Or.inl hstate)]
      exact .of_drops (scheduleRetry_drops _)

/-- A connected link goes down with `dropped` only. -/
theorem Link.Sole.linked_announces {s : Link} (hlive : s.Live) (h : s.Sole)
    (hstate : s.state = .connected) {event : Event} (hcareful : Undisturbed s event) :
    Announced s (s.step event) := by
  have hup : s.up = true := by simp [Link.up, hstate]
  have hactive := h.connected hstate
  have hhears := (h.socketing hactive).2
  obtain ⟨hticket, hown⟩ := h.only_socket hactive
  have hresume : ∀ (t : Link) (resumed : Bool), t.state = .connected → t.item = s.item →
      Announced s (t.resumeReconnect resumed) := by
    intro t resumed ht hitem
    have hstays : t.resumeReconnect resumed = t := by simp [Link.resumeReconnect, ht]
    rw [hstays]
    exact .of_linked ht hitem
  cases event with
  | fileLoaded data => exact h.fileLoaded_announces hlive hstate data
  | fileFailed notFound => exact .of_drops (resetTransport_drops hstate)
  | setEnabled enabled =>
      have hon := h.enabled hup
      simp only [Link.step, Link.setEnabled]
      cases enabled with
      | true =>
          rw [if_pos hon.symm]
          exact .of_linked hstate rfl
      | false =>
          rw [if_neg (by simp [hon]), if_neg (by decide)]
          refine .of_drops ?_
          split_ifs
          · exact resetTransport_drops hstate
          · exact resetTransport_drops hstate
  | connect =>
      rw [Link.step, h.connect_linked hstate hcareful.starts]
      exact .of_linked hstate rfl
  | loaderCompleted =>
      rw [Link.step, if_neg (by rw [h.ready hup]; decide)]
      exact .of_linked hstate rfl
  | ticketAnswered answer =>
      rw [Link.step, Link.ticketAnswered, hticket]
      exact .of_linked hstate rfl
  | helperStopped exit => exact h.helperStopped_announces hlive hstate hcareful
  | ticketTimedOut =>
      rw [Link.step, Link.ticketTimedOut]
      cases s.ticketTimeout with
      | none => exact .of_linked hstate rfl
      | some epoch =>
          simp only [hticket, or_true, if_true]
          exact .of_linked hstate rfl
  | helperTimedOut =>
      rw [Link.step, Link.helperTimedOut]
      cases s.cloudTicketTimeout with
      | none => exact .of_linked hstate rfl
      | some epoch =>
          simp only
          split_ifs
          · exact .of_linked hstate rfl
          · exact .of_linked hstate rfl
  | socketTimedOut =>
      rw [Link.step, Link.socketTimedOut]
      cases s.socketConnectTimeout with
      | none => exact .of_linked hstate rfl
      | some epoch =>
          simp only
          rw [if_pos (Or.inr (Or.inl (by rw [hstate]; decide)))]
          exact .of_linked hstate rfl
  | retryTimedOut =>
      rw [Link.step, Link.retryTimedOut, h.timer hup]
      exact .of_linked hstate rfl
  | silent =>
      rw [Link.step, Link.silent, if_pos hstate]
      exact .of_drops (scheduleRetry_drops s)
  | onlineChanged online =>
      simp only [Link.step, Link.onlineChanged]
      split_ifs
      · exact hresume _ false hstate rfl
      · exact .of_linked hstate rfl
  | knownChanged known =>
      simp only [Link.step, Link.knownChanged]
      split_ifs
      · exact hresume _ false hstate rfl
      · exact .of_linked hstate rfl
  | idleChanged idle =>
      simp only [Link.step, Link.idleChanged]
      split_ifs
      · exact hresume _ true hstate rfl
      · exact .of_linked hstate rfl
  | socketOpened =>
      rw [Link.step, Link.socketOpened]
      cases s.item with
      | none => exact .of_linked hstate rfl
      | some socket =>
          simp only
          split_ifs
          · exact .of_linked hstate rfl
          · exact Or.inr ⟨fun _ => rfl, fun _ => rfl⟩
          · exact Or.inr ⟨fun _ => hstate, fun _ => rfl⟩
  | socketClosed => exact socketEnded_announces hstate hhears .closed
  | socketFailed => exact socketEnded_announces hstate hhears .error
  | shellExited =>
      rw [Link.step, Link.shellExited, if_pos hhears]
      exact .of_drops (scheduleRetry_drops s)

theorem Link.Sole.announces {s : Link} (hlive : s.Live) (h : s.Sole) {event : Event}
    (hcareful : Undisturbed s event) : Announced s (s.step event) := by
  by_cases hstate : s.state = .connected
  · exact h.linked_announces hlive hstate hcareful
  · exact Or.inr ⟨fun hlinked => absurd hlinked hstate, fun hopen => absurd (h.opened hopen) hstate⟩

/-! ### Runs -/

/-- As long as attempts start from a quiet link and none is crossed by what came
before it, retries are off while the link is up, one attempt is under way at
most, and a connected link goes down with `dropped` only. -/
theorem link_replaced_openly (enabled loadable networkKnown networkOnline idle : Bool)
    (events : List Event)
    (hcareful : EachStep Link.step Undisturbed
      (Link.initial enabled loadable networkKnown networkOnline idle) events) :
    (∀ t ∈ states Link.step (Link.initial enabled loadable networkKnown networkOnline idle) events,
      t.Single) ∧
      EachStep Link.step (fun s event => Announced s (s.step event))
        (Link.initial enabled loadable networkKnown networkOnline idle) events := by
  have hstep : ∀ s event, s.Live ∧ s.Sole → Undisturbed s event →
      (s.step event).Live ∧ (s.step event).Sole := by
    intro s event h hevent
    exact ⟨h.1.step (h.2.unhindered event), h.2.step h.1 hevent⟩
  have hstart : (Link.initial enabled loadable networkKnown networkOnline idle).Live ∧
      (Link.initial enabled loadable networkKnown networkOnline idle).Sole :=
    ⟨initial_live _ _ _ _ _, initial_sole _ _ _ _ _⟩
  refine ⟨fun t ht => ?_, ?_⟩
  · exact (hcareful.states hstep hstart t ht).2.single
  · exact hcareful.of_invariant hstep (fun s event h hevent => h.2.announces h.1 hevent) hstart

/-! ### A link replaced behind its users' back -/

/-- A click on Reconnect while the link is up. -/
def clickConnected : List Event := cloudLinkUp ++ [.connect]

theorem click_replaces_link :
    ¬ EachStep Link.step (fun s event => Announced s (s.step event))
      (Link.initial true true true true false) clickConnected := by
  decide +kernel

/-- A dropped link, and a click once its retry has failed for good. -/
def clickSignedOut : List Event :=
  cloudLinkUp ++ [.silent, .socketClosed, .retryTimedOut, .helperStopped .signInRequired, .connect]

theorem link_replaced_openly_click :
    (clickSignedOut.foldl Link.step (Link.initial true true true true false)).Single := by
  have hcareful : EachStep Link.step Undisturbed (Link.initial true true true true false)
      clickSignedOut := by
    decide +kernel
  exact (link_replaced_openly true true true true false clickSignedOut hcareful).1 _
    (foldl_mem_states _ _)

end Connection

end T3

end CybexOS
