/-
Every step of a session keeps its requests answered once and its operations in
order, and a fit one answers with a value only what the drawer has seen.
-/
import CybexOS.Bluetooth.Consent

namespace CybexOS

namespace Bluetooth

open Json (PyValue)

/-! ### Invariants -/

/-- The requests of a session, by what is said of them. -/
structure SoundOf (pending : Option ℕ) (waited : List ℕ) (answers : List (ℕ × Answer))
    (requests : ℕ) (input : List Sent) : Prop where
  once : ∀ number ∈ waited, answers.countP (·.1 = number) = if pending = some number then 0 else 1
  willing : ∀ number value line, (number, Answer.accepted value line) ∈ answers →
    accepts line.message = true ∧ number ∈ line.seen
  known : ∀ number ∈ pending, number ∈ waited
  waitedBefore : ∀ number ∈ waited, number < requests
  answeredBefore : ∀ answered ∈ answers, answered.1 < requests
  aware : ∀ number ∈ pending, ∀ line ∈ input, accepts line.message = true → number ∈ line.seen

def Sound (s : Session) : Prop := SoundOf s.pending s.waited s.answers s.requests s.input

/-- The operations of a session; while one is in progress so many of its calls are
to be answered. -/
structure OrderlyOf (expected : ℕ) (closed : Bool) (device : Text) (canceled : Bool)
    (calls : List BusCall) (log : List Happening) : Prop where
  alternate : Alternate log
  obeyed : Obeyed log
  canceled : canceled = false → Happening.canceled ∉ current log
  progress : closed = false → inProgress log = decide (device ≠ [])
  chain : closed = false → chainCalls calls = if device = [] then 0 else expected

def Orderly (expected : ℕ) (s : Session) : Prop :=
  OrderlyOf expected s.closed s.device s.canceled s.calls s.log

/-! ### Events -/

namespace Session

/-- What neither an event nor the end of a prompt changes. -/
structure SameCourse (s t : Session) : Prop where
  device : t.device = s.device
  operation : t.operation = s.operation
  canceled : t.canceled = s.canceled
  calls : t.calls = s.calls
  log : t.log = s.log
  requests : t.requests = s.requests
  waited : t.waited = s.waited
  closed : s.closed = true → t.closed = true

theorem SameCourse.refl (s : Session) : SameCourse s s :=
  ⟨rfl, rfl, rfl, rfl, rfl, rfl, rfl, id⟩

theorem SameCourse.trans {s t u : Session} (h : SameCourse s t) (hnext : SameCourse t u) :
    SameCourse s u where
  device := hnext.device.trans h.device
  operation := hnext.operation.trans h.operation
  canceled := hnext.canceled.trans h.canceled
  calls := hnext.calls.trans h.calls
  log := hnext.log.trans h.log
  requests := hnext.requests.trans h.requests
  waited := hnext.waited.trans h.waited
  closed := fun hclosed => hnext.closed (h.closed hclosed)

theorem sameCourse_dropPending (s : Session) : SameCourse s s.dropPending := by
  unfold dropPending
  split <;> exact ⟨rfl, rfl, rfl, rfl, rfl, rfl, rfl, id⟩

theorem sameCourse_close (s : Session) : SameCourse s s.close := by
  unfold close
  split_ifs with hclosed
  · exact SameCourse.refl s
  · have hdrop := sameCourse_dropPending { s with closed := true }
    exact ⟨hdrop.device, hdrop.operation, hdrop.canceled, hdrop.calls, hdrop.log, hdrop.requests,
      hdrop.waited, fun _ => hdrop.closed rfl⟩

theorem closed_close (s : Session) : s.close.closed = true := by
  unfold close
  split_ifs with hclosed
  · exact hclosed
  · exact (sameCourse_dropPending { s with closed := true }).closed rfl

theorem sameCourse_emit (event : Event) (s : Session) : SameCourse s (s.emit event) := by
  unfold emit
  split_ifs
  · exact SameCourse.refl s
  · exact sameCourse_close s
  · exact ⟨rfl, rfl, rfl, rfl, rfl, rfl, rfl, id⟩

theorem closed_emit (event : Event) (s : Session) :
    (s.emit event).closed = (s.closed || s.broken) := by
  unfold emit
  split_ifs with hclosed hbroken
  · simp [hclosed]
  · simp [hbroken, closed_close]
  · simp [hclosed, hbroken]

theorem sameCourse_clearPrompt (s : Session) : SameCourse s s.clearPrompt :=
  (sameCourse_dropPending s).trans (sameCourse_emit _ _)

end Session

open Session

section

variable {s t : Session} {expected : ℕ}

theorem Orderly.of_sameCourse (h : Orderly expected s) (hsame : SameCourse s t) :
    Orderly expected t := by
  unfold Orderly at h ⊢
  rw [hsame.device, hsame.canceled, hsame.calls, hsame.log]
  refine ⟨h.alternate, h.obeyed, h.canceled, fun hclosed => h.progress ?_, fun hclosed =>
    h.chain ?_⟩
  all_goals
    by_contra hopen
    rw [hsame.closed (by simpa using hopen)] at hclosed
    cases hclosed

theorem Sound.dropPending (h : Sound s) : Sound s.dropPending := by
  unfold Session.dropPending
  split
  · next number hpending =>
      refine ⟨fun other hother => ?_, fun other value line hmem => ?_, by simp, h.waitedBefore, ?_,
        by simp⟩
      · have honce := h.once other hother
        rw [hpending] at honce
        by_cases hsame : number = other
        · simp [List.countP_cons, hsame, honce]
        · simpa [List.countP_cons, hsame] using honce
      · rcases List.mem_cons.mp hmem with heq | hmem
        · cases heq
        · exact h.willing other value line hmem
      · refine List.forall_mem_cons.mpr ⟨?_, h.answeredBefore⟩
        exact h.waitedBefore number (h.known number hpending)
  · exact h

theorem Sound.close (h : Sound s) : Sound s.close := by
  unfold Session.close
  split_ifs
  · exact h
  · have hclosed : Sound { s with closed := true } := h
    exact hclosed.dropPending

theorem Sound.emit (h : Sound s) (event : Event) : Sound (s.emit event) := by
  unfold Session.emit
  split_ifs
  · exact h
  · exact h.close
  · exact h

theorem Sound.clearPrompt (h : Sound s) : Sound s.clearPrompt := h.dropPending.emit _

theorem pending_dropPending (s : Session) : s.dropPending.pending = none := by
  unfold Session.dropPending
  split
  · rfl
  · next hpending => exact hpending

theorem Sound.call (h : Sound s) (path : Text) (method : Method) (done : Done) :
    Sound (s.call path method done) := by
  unfold Session.call
  split_ifs <;> exact h

theorem Sound.finish (h : Sound s) (error : Text) : Sound (s.finish error) := by
  have hfree : Sound s.clearPrompt.free := h.clearPrompt
  unfold Session.finish printEnd
  split_ifs
  · exact hfree.emit _
  · exact hfree.emit (.busy [] error)

theorem Sound.cancel (h : Sound s) : Sound s.cancel := by
  have hmarked : Sound s.markCanceled := h
  unfold Session.cancel
  dsimp only
  split_ifs
  · exact hmarked.clearPrompt
  · split
    · exact hmarked.clearPrompt.call _ _ _
    · exact hmarked.clearPrompt.call _ _ _
    · exact hmarked.clearPrompt

theorem Sound.discovery (h : Sound s) (enabled : Bool) : Sound (s.discovery enabled) := by
  unfold Session.discovery
  split_ifs
  · exact h
  all_goals
    have hbusy : Sound (s.setScanBusy true) := h
    exact (hbusy.emit _).call _ _ _

theorem Sound.complete (h : Sound s) (enabled : Bool) (error : Text) :
    Sound (s.complete enabled error) := by
  unfold Session.complete
  dsimp only
  split_ifs
  · have hscan : Sound ((s.setScanBusy false).setScan enabled) := h
    exact hscan.emit _
  · have hbusy : Sound (s.setScanBusy false) := h
    exact hbusy.emit _

theorem Sound.paired (h : Sound s) (error : Text) : Sound (s.paired error) := by
  unfold Session.paired
  split_ifs
  · exact h.finish _
  · exact (h.call _ _ _).finish _
  · exact h.clearPrompt.call _ _ _

theorem Sound.trusted (h : Sound s) (device error : Text) : Sound (s.trusted device error) := by
  unfold Session.trusted
  split_ifs
  · exact h.finish _
  · exact h.finish _
  · have hconnect : Sound (s.setOperation .connect) := h
    exact hconnect.call _ _ _

theorem Sound.replied (h : Sound s) (done : Done) (error : Text) : Sound (s.replied done error) := by
  cases done with
  | paired => exact h.paired error
  | trusted device => exact h.trusted device error
  | finish => exact h.finish error
  | complete enabled => exact h.complete enabled error
  | nothing => exact h

/-- A call that does not wait is answered at once. -/
theorem Sound.answer (h : Sound s) {number : ℕ} {answer : Answer} (hknown : number < s.requests)
    (hwaited : number ∉ s.waited) (hvalue : ∀ value line, answer ≠ .accepted value line) :
    Sound (s.answer number answer) where
  once := fun other hother => by
    have hne : number ≠ other := fun hsame => hwaited (hsame ▸ hother)
    have hcount : (s.answer number answer).answers.countP (·.1 = other) =
        s.answers.countP (·.1 = other) := by
      simp [Session.answer, List.countP_cons, hne]
    exact hcount.trans (h.once other hother)
  willing := fun other value line hmem => by
    rcases List.mem_cons.mp hmem with heq | hmem
    · exact absurd (Prod.mk.inj heq).2.symm (hvalue value line)
    · exact h.willing other value line hmem
  known := h.known
  waitedBefore := h.waitedBefore
  answeredBefore := List.forall_mem_cons.mpr ⟨hknown, h.answeredBefore⟩
  aware := h.aware

/-- A call starts to wait while no accepting reply is to be read. -/
theorem Sound.wait (h : Sound s) {number : ℕ} (kind : Kind) (hknown : number < s.requests)
    (hanswers : ∀ answered ∈ s.answers, answered.1 ≠ number) (hpending : s.pending = none)
    (hinput : ∀ line ∈ s.input, accepts line.message = false) : Sound (s.wait number kind) where
  once := fun other hother => by
    rcases List.mem_cons.mp hother with rfl | hother
    · have hnone : s.answers.countP (fun answered => decide (answered.1 = other)) = 0 := by
        rw [List.countP_eq_zero]
        simpa using hanswers
      simpa [Session.wait] using hnone
    · have honce := h.once other hother
      rw [hpending] at honce
      have hne : number ≠ other := by
        rintro rfl
        have hcount : s.answers.countP (fun answered => decide (answered.1 = number)) = 0 := by
          rw [List.countP_eq_zero]
          simpa using hanswers
        rw [hcount] at honce
        cases honce
      simpa [Session.wait, hne] using honce
  willing := h.willing
  known := by simp [Session.wait]
  waitedBefore := List.forall_mem_cons.mpr ⟨hknown, h.waitedBefore⟩
  answeredBefore := h.answeredBefore
  aware := fun other _ line hline haccepts => by
    rw [hinput line hline] at haccepts
    cases haccepts

theorem Sound.countCall (h : Sound s) : Sound s.countCall where
  once := h.once
  willing := h.willing
  known := h.known
  waitedBefore := fun number hnumber => Nat.lt_succ_of_lt (h.waitedBefore number hnumber)
  answeredBefore := fun answered hmem => Nat.lt_succ_of_lt (h.answeredBefore answered hmem)
  aware := h.aware

theorem Sound.agent (h : Sound s) {sender : Text} {agentCall : AgentCall} (hopen : s.closed = false)
    (hfit : s.waits sender agentCall = true → ∀ line ∈ s.input, accepts line.message = false) :
    Sound (s.countCall.agent s.requests sender agentCall) := by
  have hcount := h.countCall
  have hnew : s.requests < s.countCall.requests := Nat.lt_succ_self _
  have hfresh : s.requests ∉ s.waited := fun hmem => (h.waitedBefore _ hmem).false
  have hanswers : ∀ answered ∈ s.answers, answered.1 ≠ s.requests :=
    fun answered hmem => (h.answeredBefore answered hmem).ne
  have hrejected : Sound (s.countCall.answer s.requests .rejected) :=
    hcount.answer hnew hfresh fun _ _ h => by cases h
  have howns : s.countCall.owner = s.owner := rfl
  have hholds : s.countCall.device = s.device := rfl
  unfold Session.agent
  rw [howns, hholds]
  by_cases howner : sender ≠ s.owner
  · rw [if_pos howner]
    exact hrejected
  · rw [if_neg howner]
    split
    · have hsame := sameCourse_clearPrompt s.countCall
      have hreturned : Sound (s.countCall.clearPrompt.answer s.requests .returned) := by
        refine hcount.clearPrompt.answer ?_ ?_ fun _ _ h => by cases h
        · rw [hsame.requests]
          exact hnew
        · rw [hsame.waited]
          exact hfresh
      dsimp only
      split_ifs
      · exact hreturned.close
      · exact hreturned
    · next path prompt hprompt =>
        split_ifs with hdevice hbusy hdisplay
        · exact hrejected
        · exact hrejected
        · have hreturned : Sound (s.countCall.answer s.requests .returned) :=
            hcount.answer hnew hfresh fun _ _ h => by cases h
          exact hreturned.emit _
        · have hpending : s.pending = none := by
            rw [not_and, Option.not_isSome_iff_eq_none] at hbusy
            exact hbusy (by simpa using hdisplay)
          rw [not_or] at hdevice
          have hwaits : s.waits sender agentCall = true := by
            have howner' : sender = s.owner := by simpa using howner
            have hpath : path = s.device := by simpa using hdevice.2
            have hdevice' : s.device ≠ [] := hdevice.1
            simp [waits, hopen, howner', hpending, hdevice', hprompt, hpath,
              Bool.eq_false_iff.mpr hdisplay]
          exact (hcount.wait prompt.kind hnew hanswers hpending (hfit hwaits)).emit _

theorem Sound.giveValue (h : Sound s) {number : ℕ} {value : Value} {line : Sent}
    (hpending : s.pending = some number) (haccepts : accepts line.message = true)
    (hseen : number ∈ line.seen) : Sound (s.giveValue number value line) where
  once := fun other hother => by
    have honce := h.once other hother
    rw [hpending] at honce
    by_cases hsame : number = other
    · simp [Session.giveValue, List.countP_cons, hsame, honce]
    · simpa [Session.giveValue, List.countP_cons, hsame] using honce
  willing := fun other value line hmem => by
    rcases List.mem_cons.mp hmem with heq | hmem
    · cases heq
      exact ⟨haccepts, hseen⟩
    · exact h.willing other value line hmem
  known := by simp [Session.giveValue]
  waitedBefore := h.waitedBefore
  answeredBefore := by
    refine List.forall_mem_cons.mpr ⟨?_, h.answeredBefore⟩
    exact h.waitedBefore number (h.known number hpending)
  aware := by simp [Session.giveValue]

/-! ### Commands -/

theorem Sound.reply (h : Sound s) {line : Sent} {next : Session}
    (haction : isStr (field line.message "action") "reply" = true)
    (hline : accepts line.message = true → ∀ number ∈ s.pending, number ∈ line.seen)
    (hnext : s.reply line = .ok next) : Sound next := by
  unfold Session.reply at hnext
  split at hnext
  · cases hnext
    exact h
  · next number hpending =>
      split_ifs at hnext with haccept
      · cases hnext
        exact h.cancel
      · split at hnext
        · cases hnext
        · have haccepts : accepts line.message = true := by
            simp [accepts, haction, Bool.eq_true_of_not_eq_false haccept]
          cases hnext
          exact (h.giveValue hpending haccepts (hline haccepts number hpending)).emit _

theorem Sound.begin (h : Sound s) {operation : Operation} {message : PyValue} {next : Session}
    (hnext : s.begin operation message = .ok next) : Sound next := by
  unfold Session.begin at hnext
  split_ifs at hnext
  split at hnext
  · next device _ =>
      have haccept : Sound ((s.accept operation device).emit (.busy device [])) := by
        have hset : Sound (s.accept operation device) := h
        exact hset.emit _
      split_ifs at hnext
      dsimp only at hnext
      split at hnext <;> cases hnext <;> exact haccept.call _ _ _
  · cases hnext
  · cases hnext

theorem Sound.command (h : Sound s) {line : Sent} {next : Session}
    (hline : accepts line.message = true → ∀ number ∈ s.pending, number ∈ line.seen)
    (hnext : s.command line = .ok next) : Sound next := by
  unfold Session.command at hnext
  dsimp only at hnext
  split_ifs at hnext with hscan hcancel hreply hpair hconnect hdisconnect
  · cases hnext
    exact h.discovery _
  · cases hnext
    exact h.cancel
  · exact h.reply hreply hline hnext
  · exact h.begin hnext
  · exact h.begin hnext
  · exact h.begin hnext

theorem Sound.readLine (h : Sound s) {line : Sent}
    (hline : accepts line.message = true → ∀ number ∈ s.pending, number ∈ line.seen) :
    Sound (s.readLine line) := by
  unfold Session.readLine
  split
  · split
    · next next hnext => exact h.command hline hnext
    · exact h.emit _
  · exact h.emit _

theorem Sound.takeLine (h : Sound s) {line : Sent} {rest : List Sent}
    (hinput : s.input = line :: rest) : Sound (s.takeLine rest) where
  once := h.once
  willing := h.willing
  known := h.known
  waitedBefore := h.waitedBefore
  answeredBefore := h.answeredBefore
  aware := fun number hnumber other hother =>
    h.aware number hnumber other (hinput ▸ List.mem_cons_of_mem _ hother)

/-! ### Steps -/

theorem Sound.send (h : Sound s) {message : PyValue} (hfit : s.Fit (.send message)) :
    Sound (s.step (.send message)) where
  once := h.once
  willing := h.willing
  known := h.known
  waitedBefore := h.waitedBefore
  answeredBefore := h.answeredBefore
  aware := fun number hnumber line hline haccepts => by
    rcases List.mem_append.mp hline with hline | hline
    · exact h.aware number hnumber line hline haccepts
    · rw [List.mem_singleton.mp hline] at haccepts ⊢
      exact hfit haccepts number hnumber

theorem Sound.step (h : Sound s) {move : Move} (hfit : s.Fit move) : Sound (s.step move) := by
  cases move with
  | send message => exact h.send hfit
  | receive =>
      unfold Session.step
      dsimp only
      split <;> exact h
  | read =>
      unfold Session.step
      dsimp only
      split_ifs
      · exact h
      · split
        · exact h
        · next line rest hinput =>
            refine (h.takeLine hinput).readLine fun haccepts number hnumber => ?_
            exact h.aware number hnumber line (hinput ▸ List.mem_cons_self) haccepts
  | hangUp => exact h.close
  | agent sender agentCall =>
      unfold Session.step
      dsimp only
      split_ifs with hclosed
      · exact h
      · exact h.agent (Bool.eq_false_of_not_eq_true hclosed) hfit
  | reply index error =>
      unfold Session.step
      dsimp only
      split_ifs
      · exact h
      · split
        · exact h
        · have htaken : Sound (s.takeCall index) := h
          exact htaken.replied _ _
  | scanExpired =>
      unfold Session.step Session.scanExpired
      dsimp only
      split_ifs
      · exact h
      · have hstopped : Sound s.stopTimer := h
        exact hstopped.discovery _
      · exact h
  | breakPipe => exact h

/-! ### Operations -/

/-- An operation is in progress, unless the session is closed. -/
def Held (s : Session) : Prop := s.closed = false → s.device ≠ []

theorem Held.of_sameCourse (h : Held s) (hsame : SameCourse s t) : Held t := by
  intro hclosed
  rw [hsame.device]
  refine h ?_
  by_contra hopen
  rw [hsame.closed (by simpa using hopen)] at hclosed
  cases hclosed

theorem Held.call (h : Held s) (path : Text) (method : Method) (done : Done) :
    Held (s.call path method done) := by
  unfold Session.call
  split_ifs <;> exact h

theorem canceled_call (path : Text) (method : Method) (done : Done) :
    (s.call path method done).canceled = s.canceled := by
  unfold Session.call
  split_ifs <;> rfl

theorem Orderly.call (h : Orderly expected s) (path : Text) (method : Method) {done : Done}
    (hdone : done.isChain = false) : Orderly expected (s.call path method done) := by
  unfold Session.call
  split_ifs
  · exact h
  · refine ⟨h.alternate, h.obeyed, h.canceled, h.progress, fun hclosed => ?_⟩
    rw [chainCalls_append]
    simpa [hdone] using h.chain hclosed

/-- The next call of the operation in progress. -/
theorem Orderly.callChain (h : Orderly 0 s) (hheld : Held s) (path : Text) (method : Method)
    {done : Done} (hdone : done.isChain = true) : Orderly 1 (s.call path method done) := by
  unfold Session.call
  split_ifs with hclosed
  · refine ⟨h.alternate, h.obeyed, h.canceled, h.progress, fun hopen => ?_⟩
    rw [hclosed] at hopen
    cases hopen
  · refine ⟨h.alternate, h.obeyed, h.canceled, h.progress, fun hopen => ?_⟩
    have hchain := h.chain hopen
    rw [if_neg (hheld hopen)] at hchain ⊢
    rw [chainCalls_append, hchain]
    simp [hdone]

theorem Orderly.note (h : Orderly expected s) {entry : Happening}
    (hstep : entry = .trusting ∨ entry = .connecting) (hcanceled : s.canceled = false) :
    Orderly expected (s.note entry) := by
  have hclear := h.canceled hcanceled
  have hprogress : inProgress (entry :: s.log) = inProgress s.log := by
    rcases hstep with rfl | rfl <;> rfl
  have hcurrent : current (entry :: s.log) = entry :: current s.log := by
    rcases hstep with rfl | rfl <;> rfl
  refine ⟨⟨?_, ?_, h.alternate⟩, ⟨fun _ => hclear, h.obeyed⟩, fun _ => ?_, fun hclosed => ?_,
    h.chain⟩
  · rcases hstep with rfl | rfl <;> simp [Happening.isAccepted]
  · rcases hstep with rfl | rfl <;> simp
  · change Happening.canceled ∉ current (entry :: s.log)
    rw [hcurrent, List.mem_cons, not_or]
    refine ⟨?_, hclear⟩
    rcases hstep with rfl | rfl <;> simp
  · change inProgress (entry :: s.log) = _
    rw [hprogress]
    exact h.progress hclosed

theorem Orderly.markCanceled (h : Orderly expected s) : Orderly expected s.markCanceled :=
  ⟨⟨fun h => (by cases h), fun h => (by cases h), h.alternate⟩,
    ⟨fun h => (by rcases h with h | h <;> cases h), h.obeyed⟩, fun h => (by cases h), h.progress,
    h.chain⟩

theorem Orderly.cancel (h : Orderly expected s) : Orderly expected s.cancel := by
  have hcleared := h.markCanceled.of_sameCourse (sameCourse_clearPrompt s.markCanceled)
  unfold Session.cancel
  dsimp only
  split_ifs
  · exact hcleared
  · split
    · exact hcleared.call _ _ rfl
    · exact hcleared.call _ _ rfl
    · exact hcleared

/-- The operation ends when none of its calls is to be answered. -/
theorem Orderly.finish (h : Orderly 0 s) (hheld : Held s) (error : Text) :
    Orderly 1 (s.finish error) := by
  have hsame := sameCourse_clearPrompt s
  have hcleared := h.of_sameCourse hsame
  have hevent := sameCourse_emit (.busy [] error) s.clearPrompt.free
  have hclosed := closed_emit (.busy [] error) s.clearPrompt.free
  unfold Session.finish printEnd
  split_ifs with hend
  · have hover : (s.clearPrompt.free.emit (.busy [] error)).closed = true := by
      rw [hclosed]
      rcases hend with hend | hend <;> simp [hend]
    refine ⟨?_, ?_, ?_, fun hopen => ?_, fun hopen => ?_⟩
    · rw [hevent.log]
      exact hcleared.alternate
    · rw [hevent.log]
      exact hcleared.obeyed
    · rw [hevent.log, hevent.canceled]
      exact hcleared.canceled
    · rw [hover] at hopen
      cases hopen
    · rw [hover] at hopen
      cases hopen
  · rw [not_or] at hend
    have hopen : s.clearPrompt.closed = false := by simpa [Session.free] using hend.1
    have hopen' : s.closed = false := by
      by_contra hclosed
      rw [hsame.closed (by simpa using hclosed)] at hopen
      cases hopen
    have hprogress : inProgress s.clearPrompt.log = true := by
      rw [hcleared.progress hopen, hsame.device]
      simpa using hheld hopen'
    have hchain := hcleared.chain hopen
    rw [ite_self] at hchain
    refine ⟨⟨fun h => (by cases h), fun _ => ?_, ?_⟩, ⟨fun h => ?_, ?_⟩, fun hcanceled => ?_,
      fun _ => ?_, fun _ => ?_⟩
    · rw [hevent.log]
      exact hprogress
    · rw [hevent.log]
      exact hcleared.alternate
    · rcases h with h | h <;> cases h
    · rw [hevent.log]
      exact hcleared.obeyed
    · have hclear := hcleared.canceled (hevent.canceled.symm.trans hcanceled)
      change Happening.canceled ∉ current (Happening.ended :: _)
      have hcurrent (log : List Happening) :
          current (Happening.ended :: log) = Happening.ended :: current log := rfl
      rw [hcurrent, hevent.log, List.mem_cons, not_or]
      exact ⟨by simp, hclear⟩
    · change false = _
      rw [show (Session.note _ _).device = _ from hevent.device]
      rfl
    · change chainCalls (s.clearPrompt.free.emit (.busy [] error)).calls = _
      rw [hevent.calls]
      change chainCalls s.clearPrompt.calls = _
      rw [hchain, show (Session.note _ _).device = _ from hevent.device]
      rfl

theorem Orderly.emit (h : Orderly expected s) (event : Event) : Orderly expected (s.emit event) :=
  h.of_sameCourse (sameCourse_emit event s)

theorem Orderly.clearPrompt (h : Orderly expected s) : Orderly expected s.clearPrompt :=
  h.of_sameCourse (sameCourse_clearPrompt s)

theorem Orderly.discovery (h : Orderly expected s) (enabled : Bool) :
    Orderly expected (s.discovery enabled) := by
  unfold Session.discovery
  split_ifs
  · exact h
  all_goals
    have hbusy : Orderly expected (s.setScanBusy true) := h
    exact (hbusy.emit _).call _ _ rfl

theorem Orderly.complete (h : Orderly expected s) (enabled : Bool) (error : Text) :
    Orderly expected (s.complete enabled error) := by
  unfold Session.complete
  dsimp only
  split_ifs
  · have hscan : Orderly expected ((s.setScanBusy false).setScan enabled) := h
    exact hscan.emit _
  · have hbusy : Orderly expected (s.setScanBusy false) := h
    exact hbusy.emit _

theorem Orderly.paired (h : Orderly 0 s) (hheld : Held s) (error : Text) :
    Orderly 1 (s.paired error) := by
  unfold Session.paired
  split_ifs with hcanceled
  · exact h.finish hheld _
  · exact (h.call _ _ rfl).finish (hheld.call _ _ _) error
  · have hsame := sameCourse_clearPrompt s
    have hcall := h.clearPrompt.callChain (hheld.of_sameCourse hsame) s.device .setTrusted
      (show (Done.trusted s.device).isChain = true from rfl)
    refine hcall.note (Or.inl rfl) ?_
    rw [canceled_call, hsame.canceled]
    exact Bool.eq_false_of_not_eq_true hcanceled

theorem Orderly.trusted (h : Orderly 0 s) (hheld : Held s) (device error : Text) :
    Orderly 1 (s.trusted device error) := by
  unfold Session.trusted
  split_ifs with hcanceled
  · exact h.finish hheld _
  · exact h.finish hheld _
  · have hconnect : Orderly 0 (s.setOperation .connect) := h
    have hcall := hconnect.callChain hheld device .connect
      (show Done.finish.isChain = true from rfl)
    refine hcall.note (Or.inr rfl) ?_
    rw [canceled_call]
    exact Bool.eq_false_of_not_eq_true hcanceled

/-- The answer to a call of the operation. -/
theorem Orderly.replied (h : Orderly 0 s) (hheld : Held s) {done : Done}
    (hdone : done.isChain = true) (error : Text) : Orderly 1 (s.replied done error) := by
  cases done with
  | paired => exact h.paired hheld error
  | trusted device => exact h.trusted hheld device error
  | finish => exact h.finish hheld error
  | complete enabled => cases hdone
  | nothing => cases hdone

theorem Orderly.replied_other (h : Orderly 1 s) {done : Done} (hdone : done.isChain = false)
    (error : Text) : Orderly 1 (s.replied done error) := by
  cases done with
  | paired => cases hdone
  | trusted device => cases hdone
  | finish => cases hdone
  | complete enabled => exact h.complete enabled error
  | nothing => exact h

/-- A call that is answered is one of the operation, which has then none, or another one. -/
theorem Orderly.takeCall (h : Orderly 1 s) {index : ℕ} {busCall : BusCall}
    (hget : s.calls[index]? = some busCall) :
    if busCall.done.isChain then Orderly 0 (s.takeCall index) ∧ Held s
    else Orderly 1 (s.takeCall index) := by
  have herase := weight_eraseIdx (fun busCall => if busCall.done.isChain then 1 else 0) hget
  change chainCalls (s.calls.eraseIdx index) + _ = chainCalls s.calls at herase
  have htaken {expected : ℕ} (hchain : s.closed = false →
      chainCalls (s.calls.eraseIdx index) = if s.device = [] then 0 else expected) :
      Orderly expected (s.takeCall index) :=
    ⟨h.alternate, h.obeyed, h.canceled, h.progress, hchain⟩
  split_ifs with hdone
  · rw [if_pos hdone] at herase
    have hheld : Held s := by
      intro hclosed hdevice
      have hchain := h.chain hclosed
      rw [if_pos hdevice] at hchain
      omega
    refine ⟨htaken fun hclosed => ?_, hheld⟩
    have hchain := h.chain hclosed
    rw [if_neg (hheld hclosed)] at hchain
    rw [ite_self]
    omega
  · rw [if_neg hdone, Nat.add_zero] at herase
    refine htaken fun hclosed => ?_
    rw [herase]
    exact h.chain hclosed

theorem Orderly.agent (h : Orderly expected s) (number : ℕ) (sender : Text)
    (agentCall : AgentCall) : Orderly expected (s.agent number sender agentCall) := by
  have hanswer (t : Session) (ht : Orderly expected t) (answer : Answer) :
      Orderly expected (t.answer number answer) := ht
  unfold Session.agent
  by_cases howner : sender ≠ s.owner
  · rw [if_pos howner]
    exact h
  · rw [if_neg howner]
    split
    · dsimp only
      split_ifs
      · exact (hanswer _ h.clearPrompt .returned).of_sameCourse (sameCourse_close _)
      · exact h.clearPrompt
    · next path prompt _ =>
        split_ifs
        · exact h
        · exact h
        · exact (hanswer _ h .returned).emit _
        · have hwait : Orderly expected (s.wait number prompt.kind) := h
          exact hwait.emit _

theorem Orderly.reply (h : Orderly expected s) {line : Sent} {next : Session}
    (hnext : s.reply line = .ok next) : Orderly expected next := by
  unfold Session.reply at hnext
  split at hnext
  · cases hnext
    exact h
  · next number _ =>
      split_ifs at hnext
      · cases hnext
        exact h.cancel
      · split at hnext
        · cases hnext
        · next value _ =>
            have hgiven : Orderly expected (s.giveValue number value line) := h
            cases hnext
            exact hgiven.emit _

theorem isDevice_ne_nil {adapter path : Text} (h : isDevice adapter path = true) : path ≠ [] := by
  rintro rfl
  simp [isDevice, isAddress] at h

theorem Orderly.begin (h : Orderly 1 s) (hopen : s.closed = false) {operation : Operation}
    {message : PyValue} {next : Session} (hnext : s.begin operation message = .ok next) :
    Orderly 1 next := by
  unfold Session.begin at hnext
  split_ifs at hnext with hfree
  rw [not_not] at hfree
  split at hnext
  · next device _ =>
      split_ifs at hnext with hdevice
      have hprogress := h.progress hopen
      have hchain := h.chain hopen
      rw [hfree] at hprogress
      rw [if_pos hfree] at hchain
      have haccept : Orderly 0 (s.accept operation device) := by
        refine ⟨⟨fun _ => by simpa using hprogress, fun h => (by cases h), h.alternate⟩,
          ⟨fun h => (by rcases h with h | h <;> cases h), h.obeyed⟩, fun _ => ?_, fun _ => ?_,
          fun _ => ?_⟩
        · simp [Session.accept, Session.note, current, Happening.isAccepted]
        · simp [Session.accept, Session.note, inProgress, isDevice_ne_nil hdevice]
        · rw [ite_self]
          exact hchain
      have hheld : Held (s.accept operation device) := fun _ => isDevice_ne_nil hdevice
      have hevent := haccept.emit (.busy device [])
      have hheld' := hheld.of_sameCourse (sameCourse_emit (.busy device []) _)
      dsimp only at hnext
      split at hnext <;> cases hnext
      · exact hevent.callChain hheld' _ _ rfl
      · exact hevent.callChain hheld' _ _ rfl
      · exact hevent.callChain hheld' _ _ rfl
  · cases hnext
  · cases hnext

theorem Orderly.command (h : Orderly 1 s) (hopen : s.closed = false) {line : Sent}
    {next : Session} (hnext : s.command line = .ok next) : Orderly 1 next := by
  unfold Session.command at hnext
  dsimp only at hnext
  split_ifs at hnext
  · cases hnext
    exact h.discovery _
  · cases hnext
    exact h.cancel
  · exact h.reply hnext
  · exact h.begin hopen hnext
  · exact h.begin hopen hnext
  · exact h.begin hopen hnext

theorem Orderly.step (h : Orderly 1 s) (move : Move) : Orderly 1 (s.step move) := by
  cases move with
  | send message => exact h
  | receive =>
      unfold Session.step
      dsimp only
      split <;> exact h
  | read =>
      unfold Session.step
      dsimp only
      split_ifs with hclosed
      · exact h
      · split
        · exact h
        · next line rest _ =>
            have htaken : Orderly 1 (s.takeLine rest) := h
            unfold Session.readLine
            split
            · split
              · next next hnext =>
                  exact htaken.command (Bool.eq_false_of_not_eq_true hclosed) hnext
              · exact htaken.emit _
            · exact htaken.emit _
  | hangUp => exact h.of_sameCourse (sameCourse_close s)
  | agent sender agentCall =>
      unfold Session.step
      dsimp only
      split_ifs
      · exact h
      · have hcount : Orderly 1 s.countCall := h
        exact hcount.agent _ _ _
  | reply index error =>
      unfold Session.step
      dsimp only
      split_ifs
      · exact h
      · split
        · exact h
        · next busCall hget =>
            have htaken := h.takeCall hget
            split_ifs at htaken with hdone
            · have hheld : Held (s.takeCall index) := htaken.2
              exact htaken.1.replied hheld hdone error
            · exact htaken.replied_other (Bool.eq_false_of_not_eq_true hdone) error
  | scanExpired =>
      unfold Session.step Session.scanExpired
      dsimp only
      split_ifs
      · exact h
      · have hstopped : Orderly 1 s.stopTimer := h
        exact hstopped.discovery _
      · exact h
  | breakPipe => exact h

/-! ### Ends -/

theorem remaining_call_le (path : Text) (method : Method) (done : Done) :
    remaining (s.call path method done).calls ≤ remaining s.calls + done.rank := by
  unfold Session.call
  split_ifs
  · exact Nat.le_add_right _ _
  · exact (weight_append _ s.calls ⟨path, method, done⟩).le

theorem calls_finish (error : Text) : (s.finish error).calls = s.calls := by
  have hcleared := (sameCourse_clearPrompt s).calls
  have hevent := (sameCourse_emit (.busy [] error) s.clearPrompt.free).calls
  unfold Session.finish printEnd
  split_ifs
  · exact hevent.trans hcleared
  · exact hevent.trans hcleared

/-- After the answer to a call of the operation less of it is to come. -/
theorem remaining_replied {done : Done} (hdone : done.isChain = true)
    (hnone : remaining s.calls = 0) (error : Text) :
    remaining (s.replied done error).calls < done.rank := by
  have hfinish (t : Session) (ht : remaining t.calls = 0) (text : Text) :
      remaining (t.finish text).calls = 0 := by
    rw [calls_finish, ht]
  cases done with
  | paired =>
      change remaining (s.paired error).calls < 3
      unfold Session.paired
      split_ifs
      · rw [hfinish s hnone]
        decide
      · have hcall := @remaining_call_le s s.device .cancelPairing .nothing
        rw [hnone] at hcall
        rw [hfinish _ (Nat.le_zero.mp hcall)]
        decide
      · have hcall := @remaining_call_le s.clearPrompt s.device .setTrusted (.trusted s.device)
        rw [(sameCourse_clearPrompt s).calls, hnone] at hcall
        exact Nat.lt_succ_of_le hcall
  | trusted device =>
      change remaining (s.trusted device error).calls < 2
      unfold Session.trusted
      split_ifs
      · rw [hfinish s hnone]
        decide
      · rw [hfinish s hnone]
        decide
      · have hcall := @remaining_call_le (s.setOperation .connect) device .connect .finish
        rw [show remaining (s.setOperation .connect).calls = 0 from hnone] at hcall
        exact Nat.lt_succ_of_le hcall
  | finish =>
      change remaining (s.finish error).calls < 1
      rw [hfinish s hnone]
      decide
  | complete enabled => cases hdone
  | nothing => cases hdone

theorem Orderly.ends (h : Orderly 1 s) : Ends s := by
  intro hopen
  have hprogress := h.progress hopen
  have hchain := h.chain hopen
  refine ⟨?_, fun index busCall error hget hdone => ?_⟩
  · rw [hprogress, decide_eq_true_iff]
    constructor
    · intro hdevice
      rw [if_neg hdevice] at hchain
      have hpos : 0 < chainCalls s.calls := by
        rw [hchain]
        exact Nat.one_pos
      obtain ⟨index, busCall, hget, hvalue⟩ := weight_pos hpos
      have hrank : 0 < busCall.done.rank := by
        by_contra hzero
        simp [Done.isChain, hzero] at hvalue
      have herase := weight_eraseIdx (fun busCall => busCall.done.rank) hget
      unfold remaining
      omega
    · intro hpos hdevice
      rw [if_pos hdevice] at hchain
      rw [remaining_of_chainCalls hchain] at hpos
      exact absurd hpos (Nat.lt_irrefl 0)
  · have htaken := h.takeCall hget
    rw [if_pos hdone] at htaken
    have hnone : remaining (s.takeCall index).calls = 0 := by
      have htakenChain := htaken.1.chain hopen
      rw [ite_self] at htakenChain
      exact remaining_of_chainCalls htakenChain
    have herase := weight_eraseIdx (fun busCall => busCall.done.rank) hget
    have hstep : s.step (.reply index error) = (s.takeCall index).replied busCall.done error := by
      simp [Session.step, hopen, hget]
    have hless := remaining_replied hdone hnone error
    rw [hstep]
    refine hless.trans_le ?_
    unfold remaining
    omega

end

/-! ### Runs -/

section

variable (adapter owner : Text) (moves : List Move)

theorem sound_opened : Sound (opened adapter owner) := by
  refine ⟨?_, ?_, ?_, ?_, ?_, ?_⟩ <;> simp [opened]

theorem orderly_opened : Orderly 1 (opened adapter owner) := by
  refine ⟨trivial, trivial, ?_, ?_, ?_⟩ <;> simp [opened, current, inProgress, chainCalls, weight]

/-- In a session in which no accepting reply can meet another request, consent
belongs to the prompt that was shown; operations come one at a time, end, and do
not go on after they were canceled. -/
theorem fit_session_consensual
    (hfit : EachStep Session.step Session.Fit (opened adapter owner) moves) :
    ∀ s ∈ states Session.step (opened adapter owner) moves, Consensual s := by
  have hstep (s : Session) (move : Move) (h : Sound s ∧ Orderly 1 s) (hfit : s.Fit move) :
      Sound (s.step move) ∧ Orderly 1 (s.step move) :=
    ⟨h.1.step hfit, h.2.step move⟩
  intro s hs
  obtain ⟨hsound, horderly⟩ :=
    hfit.states hstep ⟨sound_opened adapter owner, orderly_opened adapter owner⟩ s hs
  exact ⟨⟨hsound.once, hsound.willing⟩, horderly.alternate, horderly.obeyed, horderly.ends⟩

end

/-! ### A session -/

def ADAPTER : Text := ascii "/org/bluez/hci0"

def DEVICE : Text := ascii "/org/bluez/hci0/dev_00_11_22_33_44_55"

def pairMessage : PyValue :=
  .obj [(ascii "action", .str (ascii "pair")), (ascii "device", .str DEVICE)]

def acceptMessage : PyValue :=
  .obj [(ascii "action", .str (ascii "reply")), (ascii "accept", .bool true)]

/-- The drawer pairs and is shown a code. -/
def shown : List Move :=
  [.send pairMessage, .read, .agent (ascii ":1.4") (.requestConfirmation DEVICE 111111), .receive,
    .receive, .receive]

/-- It confirms the code, and the device is paired, trusted and connected. -/
def pairing : List Move :=
  shown ++ [.send acceptMessage, .read, .reply 0 [], .reply 0 [], .reply 0 []]

/-- The code is replaced while the confirmation is on its way. -/
def replaced : List Move :=
  shown ++ [.send acceptMessage, .agent (ascii ":1.4") .cancel,
    .agent (ascii ":1.4") (.requestConfirmation DEVICE 222222), .read]

instance (s : Session) (move : Move) : Decidable (s.Fit move) :=
  match move with
  | .send message =>
      inferInstanceAs (Decidable (accepts message = true → ∀ number ∈ s.pending, number ∈ s.seen))
  | .agent sender agentCall =>
      inferInstanceAs (Decidable (s.waits sender agentCall = true →
        ∀ line ∈ s.input, accepts line.message = false))
  | .receive | .read | .hangUp | .reply _ _ | .scanExpired | .breakPipe => isTrue trivial

theorem fit_session_consensual_pairing :
    Consensual (pairing.foldl Session.step (opened ADAPTER (ascii ":1.4"))) :=
  fit_session_consensual ADAPTER (ascii ":1.4") pairing (by decide +kernel) _
    (foldl_mem_states _ _)

/-- The confirmation of the first code confirms the second. -/
theorem replaced_confirmed :
    ¬ ∀ s ∈ states Session.step (opened ADAPTER (ascii ":1.4")) replaced, Consensual s := by
  intro h
  have hlast := h _ (foldl_mem_states (opened ADAPTER (ascii ":1.4")) replaced)
  have hanswers : (replaced.foldl Session.step (opened ADAPTER (ascii ":1.4"))).answers =
      [(2, .accepted .nothing ⟨acceptMessage, [0]⟩), (1, .returned), (0, .canceled)] := rfl
  have hseen := hlast.consent.willing 2 .nothing ⟨acceptMessage, [0]⟩ (by simp [hanswers])
  exact absurd hseen.2 (by decide)

/-- The device is trusted and then connected, once. -/
example : (pairing.foldl Session.step (opened ADAPTER (ascii ":1.4"))).log =
    [.ended, .connecting, .trusting, .accepted .pair DEVICE] := by
  decide +kernel

end Bluetooth

end CybexOS
