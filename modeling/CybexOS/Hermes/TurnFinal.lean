/-
A run that was completed stays completed, as long as it is not named again once
its reader is gone and its journal holds nothing but metadata after the end.
-/
import CybexOS.Hermes.Readers

namespace CybexOS

namespace Hermes

namespace Frame

def stream : Frame → Text
  | .delta run _ | .complete run _ | .status run _ | .info run _ => run

def completes : Frame → Bool
  | .complete .. => true
  | _ => false

/-- The frame must not follow the end of its run. -/
def disturbs : Frame → Bool
  | .delta .. | .complete .. => true
  | .status _ now => now = .working ∨ now = .reconnecting
  | .info _ working => working

end Frame

/-- After the end of a run, nothing disturbs it. -/
def Final (log : List Frame) : Prop :=
  log.Pairwise fun earlier later =>
    earlier.completes → earlier.stream = later.stream → later.disturbs = false

instance (log : List Frame) : Decidable (Final log) :=
  inferInstanceAs (Decidable (List.Pairwise _ _))

/-- The events that a run may still report after its end. -/
def StreamEvent.Late : StreamEvent → Prop
  | .approval | .clarify | .done _ | .streamEnd | .metadata | .other => True
  | _ => False

instance : (event : StreamEvent) → Decidable event.Late
  | .approval | .clarify | .done _ | .streamEnd | .metadata | .other => isTrue trivial
  | .token _ | .interimAssistant .. | .reasoning | .tool | .toolComplete | .compressing
  | .compressed | .cancel _ | .error => isFalse id

/-- A live reader that goes by the marker `remote_stream_completed`. -/
def Stage.Marked : Stage → Prop
  | .settling _ | .closing true | .cancelled | .ended => False
  | _ => True

theorem Stage.Marked.live {stage : Stage} (h : stage.Marked) : stage.Live := by
  cases stage with
  | settling ending => trivial
  | closing terminal => trivial
  | cancelled => exact h
  | ended => exact h
  | _ => trivial

namespace Streams

/-- `message.complete` was broadcast for the run. -/
def Completed (b : Streams) (stream : Text) : Prop :=
  ∃ frame ∈ b.log, frame.completes = true ∧ frame.stream = stream

instance (b : Streams) (stream : Text) : Decidable (b.Completed stream) :=
  inferInstanceAs (Decidable (∃ frame ∈ b.log, _))

/-- How often `message.complete` was broadcast for the run. -/
def completions (b : Streams) (stream : Text) : Nat :=
  b.log.countP fun frame => frame.completes && frame.stream == stream

/-- A reader follows the stream and is marked to have completed it. -/
def Holds (b : Streams) (stream : Text) : Prop :=
  b.current = some stream ∧ b.Busy ∧ b.completed = some stream

instance (b : Streams) (stream : Text) : Decidable (b.Holds stream) :=
  inferInstanceAs (Decidable (_ ∧ _))

/-- The move does not lead the bridge back to a run that was completed. -/
def Guarded (b : Streams) : StreamMove → Prop
  | .names stream => ¬ b.Completed stream
  | .attaches stream | .asks stream => b.Completed stream → b.Holds stream
  -- a start that waited finds the stream neither replaced nor completed
  | .startEnds index => ∀ call ∈ b.starts[index]?, ∀ stream ∈ call.next,
      b.current = none ∧ ¬ b.Completed stream
  | .handles reader event => b.Completed (b.stream reader) → event.Late
  -- a cancelled reader does not take the marker of a later one away
  | .unwinds reader => b.stage reader = .cancelled → b.current ≠ some (b.stream reader)
  | _ => True

instance (b : Streams) : (move : StreamMove) → Decidable (b.Guarded move)
  | .names _ => inferInstanceAs (Decidable (¬ _))
  | .attaches _ | .asks _ | .handles .. => inferInstanceAs (Decidable (_ → _))
  | .startEnds index => inferInstanceAs (Decidable (∀ call ∈ b.starts[index]?, _))
  | .unwinds _ => inferInstanceAs (Decidable (_ → _ ≠ _))
  | .interrupts _ | .stops | .looks _ | .begins .. | .opens _ | .refused _ | .unopened _
  | .idles _ | .breaks _ | .closed _ | .answers .. | .settles _ | .wakes .. => isTrue trivial

/-- The move makes a reader complete the run. -/
def Completes (b : Streams) (stream : Text) : StreamMove → Prop
  | .handles reader event => b.stage reader = .reading ∧ b.stream reader = stream ∧
      match event with
      | .done _ | .cancel _ | .error | .streamEnd => True
      | _ => False
  | .answers reader answer =>
      b.stage reader = .asking ∧ b.stream reader = stream ∧ answer = .inactive
  | _ => False

/-! ### What was completed -/

theorem completed_say {b : Streams} {frame : Frame} {stream : Text} :
    (b.say frame).Completed stream ↔
      b.Completed stream ∨ (frame.completes = true ∧ frame.stream = stream) := by
  unfold Completed say
  simp only [List.mem_append, List.mem_singleton, or_and_right, exists_or, exists_eq_left]

theorem completed_say_of_not {b : Streams} {frame : Frame} (h : frame.completes = false)
    {stream : Text} : (b.say frame).Completed stream ↔ b.Completed stream := by
  rw [completed_say, h]
  simp

theorem Final.append {log : List Frame} {frame : Frame} (h : Final log)
    (hquiet : (∃ earlier ∈ log, earlier.completes = true ∧ earlier.stream = frame.stream) →
      frame.disturbs = false) : Final (log ++ [frame]) := by
  unfold Final
  rw [List.pairwise_append]
  refine ⟨h, List.pairwise_singleton _ _, fun earlier hearlier later hlater hends hsame => ?_⟩
  rw [List.mem_singleton.mp hlater] at hsame ⊢
  exact hquiet ⟨earlier, hearlier, hends, hsame⟩

theorem Final.countP_le_one {log : List Frame} (h : Final log) (stream : Text) :
    (log.countP fun frame => frame.completes && frame.stream == stream) ≤ 1 := by
  induction log with
  | nil => exact Nat.zero_le 1
  | cons frame log ih =>
      obtain ⟨hhead, htail⟩ := List.pairwise_cons.mp h
      rw [List.countP_cons]
      split_ifs with hends
      · rw [Bool.and_eq_true, beq_iff_eq] at hends
        have hnone : (log.countP fun frame => frame.completes && frame.stream == stream) = 0 := by
          refine List.countP_eq_zero.mpr fun later hlater hagain => ?_
          rw [Bool.and_eq_true, beq_iff_eq] at hagain
          have hquiet := hhead later hlater hends.1 (hends.2.trans hagain.2.symm)
          cases later with
          | complete stream text => cases hquiet
          | delta stream chunk => cases hagain.1
          | status stream status => cases hagain.1
          | info stream working => cases hagain.1
        rw [hnone]
      · exact ih htail

/-- A run that was completed was completed once. -/
theorem completions_eq_one {b : Streams} (h : Final b.log) {stream : Text}
    (hcompleted : b.Completed stream) : b.completions stream = 1 := by
  obtain ⟨frame, hframe, hends, hsame⟩ := hcompleted
  refine Nat.le_antisymm (Final.countP_le_one h stream) (List.countP_pos_iff.mpr ⟨frame, hframe, ?_⟩)
  rw [hends, hsame, Bool.true_and, beq_self_eq_true]

/-! ### Readers -/

/-- The log is final, the marker tells the truth, and only the reader of the
current stream is live. -/
structure Steady (b : Streams) : Prop where
  final : Final b.log
  genuine : ∀ stream ∈ b.completed, b.Completed stream
  follows : b.OneReader

/-- Moreover that reader knows when its run was completed. -/
structure Sound (b : Streams) : Prop extends Steady b where
  marked : ∀ reader, (b.stage reader).Marked → b.Completed (b.stream reader) →
    b.completed = some (b.stream reader)
  settled : ∀ reader ending, b.stage reader = .settling ending → b.Completed (b.stream reader)

theorem Steady.say {b : Streams} (h : b.Steady) {frame : Frame}
    (hquiet : b.Completed frame.stream → frame.disturbs = false) : (b.say frame).Steady where
  final := Final.append h.final hquiet
  genuine := fun stream hstream => completed_say.mpr (Or.inl (h.genuine stream hstream))
  follows := h.follows

/-- A live reader goes on to a stage that fits what it knows. -/
theorem Steady.turn {b : Streams} (h : b.Steady) {reader : Nat} (hlive : (b.stage reader).Live)
    {stage : Stage} (hmarked : stage.Marked → b.Completed (b.stream reader) →
      b.completed = some (b.stream reader))
    (hsettled : ∀ ending, stage = .settling ending → b.Completed (b.stream reader)) :
    (b.turn reader stage).Sound := by
  refine ⟨⟨h.final, h.genuine, h.follows.turn hlive stage⟩, fun other hother hcompleted => ?_,
    fun other ending hother => ?_⟩
  · obtain rfl := h.follows.live_turn hlive hother.live
    rw [stage_turn_self] at hother
    rw [stream_turn] at hcompleted ⊢
    exact hmarked hother hcompleted
  · obtain rfl := h.follows.live_turn hlive (show ((b.turn reader stage).stage other).Live by
      rw [hother]
      trivial)
    rw [stage_turn_self] at hother
    rw [stream_turn]
    exact hsettled ending hother

/-- A state without a live reader. -/
theorem Steady.of_dead {b : Streams} (hfinal : Final b.log)
    (hgenuine : ∀ stream ∈ b.completed, b.Completed stream)
    (hdead : ∀ reader, ¬ (b.stage reader).Live) : b.Sound where
  final := hfinal
  genuine := hgenuine
  follows := OneReader.of_dead hdead
  marked := fun reader hreader => absurd hreader.live (hdead reader)
  settled := fun reader ending hreader => absurd (by rw [hreader]; trivial) (hdead reader)

theorem Steady.leave {b : Streams} (h : b.Steady) {reader : Nat}
    (hlive : (b.stage reader).Live) : (b.leave reader).Sound := by
  refine Steady.of_dead ?_ ?_ (h.follows.dead_leave hlive)
  · unfold Streams.leave
    dsimp only
    rw [if_pos (h.follows reader hlive).2]
    exact h.final
  · unfold Streams.leave
    dsimp only
    rw [if_pos (h.follows reader hlive).2]
    exact fun stream hstream => by cases hstream

/-- Leaving without the current stream only gives up the task. -/
theorem Sound.unwind {b : Streams} (h : b.Sound) {reader : Nat}
    (hother : b.current ≠ some (b.stream reader)) : (b.leave reader).Sound := by
  have hsame : ∀ other, ((b.leave reader).stage other).Live →
      (b.leave reader).stage other = b.stage other := by
    intro other hlive
    refine stage_leave_of_ne b ?_
    rintro rfl
    rw [stage_leave_self] at hlive
    exact hlive
  refine ⟨⟨?_, ?_, h.follows.unwind hother⟩, fun other hmarked hcompleted => ?_,
    fun other ending hsettling => ?_⟩
  · rw [log_leave]
    exact h.final
  · rw [leave_of_ne hother]
    exact h.genuine
  · rw [hsame other hmarked.live] at hmarked
    rw [stream_leave] at hcompleted ⊢
    rw [leave_of_ne hother] at hcompleted ⊢
    exact h.marked other hmarked hcompleted
  · rw [hsame other (by rw [hsettling]; trivial)] at hsettling
    rw [stream_leave, leave_of_ne hother]
    exact h.settled other ending hsettling

theorem Sound.say {b : Streams} (h : b.Sound) {frame : Frame} (hends : frame.completes = false)
    (hquiet : b.Completed frame.stream → frame.disturbs = false) : (b.say frame).Sound where
  toSteady := h.toSteady.say hquiet
  marked := fun reader hmarked hcompleted =>
    h.marked reader hmarked ((completed_say_of_not hends).mp hcompleted)
  settled := fun reader ending hsettling =>
    completed_say.mpr (Or.inl (h.settled reader ending hsettling))

theorem Sound.turn {b : Streams} (h : b.Sound) {reader : Nat} (hnow : (b.stage reader).Marked)
    {stage : Stage} (hnext : ∀ ending, stage ≠ .settling ending) : (b.turn reader stage).Sound :=
  h.toSteady.turn hnow.live (fun _ => h.marked reader hnow) fun ending hsettling =>
    absurd hsettling (hnext ending)

theorem Sound.readOn {b : Streams} (h : b.Sound) {reader : Nat} (hnow : (b.stage reader).Marked) :
    (b.readOn reader).Sound := by
  unfold Streams.readOn
  split_ifs
  · exact h.turn hnow nofun
  · exact h.turn hnow nofun

theorem Sound.loop {b : Streams} (h : b.Sound) {reader : Nat} (hnow : (b.stage reader).Marked)
    (known : Bool) : (b.loop reader known).Sound := by
  unfold Streams.loop
  split_ifs
  · exact h.turn hnow nofun
  · exact h.toSteady.leave hnow.live

theorem Sound.append {b : Streams} (h : b.Sound) {reader : Nat} {chunk : Text}
    (hopen : ¬ b.Completed (b.stream reader)) : (b.append reader chunk).Sound := by
  unfold Streams.append
  split_ifs
  · exact h
  · have htext : ({ b with text := b.text ++ chunk.take (maxRemoteStreamEvent - b.text.length) } :
        Streams).Sound := ⟨⟨h.final, h.genuine, h.follows⟩, h.marked, h.settled⟩
    exact htext.say rfl fun hcompleted => absurd hcompleted hopen

theorem append_stage (b : Streams) (reader : Nat) (chunk : Text) (other : Nat) :
    (b.append reader chunk).stage other = b.stage other := by
  unfold append
  rw [apply_ite Streams.stage, ite_apply]
  exact ite_self _

/-! ### Completing a run -/

theorem settledStatus_quiet (b : Streams) (stream : Text) :
    (Frame.status stream b.settledStatus).disturbs = false := by
  unfold settledStatus
  split_ifs
  · rfl
  · rfl

/-- A completed run is settled. -/
theorem Steady.settle {b : Streams} (h : b.Steady) {reader : Nat}
    (hlive : (b.stage reader).Live) (hcompleted : b.Completed (b.stream reader))
    (ending : Ending) : (b.settle reader ending).Sound := by
  have hsaid : (b.say (.status (b.stream reader) b.settledStatus)).Steady :=
    h.say fun _ => settledStatus_quiet b _
  have hkept : (b.say (.status (b.stream reader) b.settledStatus)).Completed (b.stream reader) :=
    completed_say.mpr (Or.inl hcompleted)
  cases ending with
  | done =>
      have hmarked : ({ b.say (.status (b.stream reader) b.settledStatus) with
          completed := some (b.stream reader) } : Streams).Steady := by
        refine ⟨hsaid.final, fun stream hstream => ?_, h.follows⟩
        obtain rfl := Option.some.inj hstream
        exact hkept
      refine hmarked.turn hlive (fun _ _ => rfl) fun stage hstage => ?_
      split_ifs at hstage
  | cancel =>
      exact (h.say fun _ => rfl).turn hlive nofun nofun
  | streamEnd => exact hsaid.turn hlive nofun nofun
  | inactive => exact hsaid.leave hlive

theorem settle_completed {b : Streams} {stream : Text} (h : b.Completed stream) (reader : Nat)
    (ending : Ending) : (b.settle reader ending).Completed stream := by
  cases ending with
  | done => exact completed_say.mpr (Or.inl h)
  | cancel => exact completed_say.mpr (Or.inl h)
  | streamEnd => exact completed_say.mpr (Or.inl h)
  | inactive =>
      unfold Completed Streams.settle
      rw [log_leave]
      exact completed_say.mpr (Or.inl h)

/-- A run that is not over yet is completed. -/
theorem Sound.complete {b : Streams} (h : b.Sound) {reader : Nat}
    (hlive : (b.stage reader).Live) (hopen : ¬ b.Completed (b.stream reader))
    (ending : Ending) (snapshot : Bool) :
    (b.complete reader ending snapshot).Sound ∧
      (b.complete reader ending snapshot).Completed (b.stream reader) := by
  have htold : (b.say (.complete (b.stream reader) b.text)).Steady :=
    h.toSteady.say fun hcompleted => absurd hcompleted hopen
  have hcompleted : (b.say (.complete (b.stream reader) b.text)).Completed (b.stream reader) :=
    completed_say.mpr (Or.inr ⟨rfl, rfl⟩)
  unfold Streams.complete
  dsimp only
  split_ifs
  · exact ⟨htold.settle hlive hcompleted ending, settle_completed hcompleted reader ending⟩
  · exact ⟨htold.turn hlive nofun fun _ _ => hcompleted, hcompleted⟩

/-- An unmarked run is not over for a reader that goes by the marker. -/
theorem Sound.open_of_unmarked {b : Streams} (h : b.Sound) {reader : Nat}
    (hnow : (b.stage reader).Marked) (hunmarked : b.completed ≠ some (b.stream reader)) :
    ¬ b.Completed (b.stream reader) :=
  fun hcompleted => hunmarked (h.marked reader hnow hcompleted)

theorem Sound.handle {b : Streams} (h : b.Sound) {reader : Nat} (hnow : (b.stage reader).Marked)
    {event : StreamEvent} (hlate : b.Completed (b.stream reader) → event.Late) :
    (b.handle reader event).Sound := by
  cases event with
  | token chunk =>
      refine (h.append hlate).readOn ?_
      rw [append_stage]
      exact hnow
  | interimAssistant alreadyStreamed chunk =>
      unfold Streams.handle
      dsimp only
      split_ifs
      · exact h.readOn hnow
      · refine (h.append hlate).readOn ?_
        rw [append_stage]
        exact hnow
  | reasoning =>
      refine (h.say rfl fun hcompleted => ?_).readOn hnow
      exact (hlate hcompleted).elim
  | tool =>
      refine (h.say rfl fun hcompleted => ?_).readOn hnow
      exact (hlate hcompleted).elim
  | toolComplete =>
      refine (h.say rfl fun hcompleted => ?_).readOn hnow
      exact (hlate hcompleted).elim
  | approval => exact (h.say rfl fun _ => rfl).readOn hnow
  | clarify => exact (h.say rfl fun _ => rfl).readOn hnow
  | compressing =>
      have hsaid : (b.say (.status (b.stream reader) .working)).Sound :=
        h.say rfl fun hcompleted => (hlate hcompleted).elim
      refine (hsaid.say rfl fun hcompleted => ?_).readOn hnow
      exact (hlate ((completed_say_of_not rfl).mp hcompleted)).elim
  | compressed =>
      have hsaid : (b.say (.status (b.stream reader) .working)).Sound :=
        h.say rfl fun hcompleted => (hlate hcompleted).elim
      refine (hsaid.say rfl fun hcompleted => ?_).readOn hnow
      exact (hlate ((completed_say_of_not rfl).mp hcompleted)).elim
  | done snapshot =>
      unfold Streams.handle
      dsimp only
      split_ifs with hmarked
      · exact h.readOn hnow
      · exact (h.complete hnow.live (h.open_of_unmarked hnow hmarked) .done snapshot).1
  | cancel snapshot => exact (h.complete hnow.live hlate .cancel snapshot).1
  | error =>
      have htold : (b.say (.complete (b.stream reader) b.text)).Steady :=
        h.toSteady.say fun hcompleted => (hlate hcompleted).elim
      exact (htold.say fun _ => rfl).turn hnow.live nofun nofun
  | streamEnd =>
      unfold Streams.handle
      dsimp only
      split_ifs with hmarked
      · exact h.turn hnow nofun
      · exact (h.complete hnow.live (h.open_of_unmarked hnow hmarked) .streamEnd false).1
  | metadata => exact (h.say rfl fun _ => rfl).readOn hnow
  | other =>
      refine (h.say rfl fun hcompleted => ?_).readOn hnow
      exact decide_eq_false fun hunmarked => hunmarked (h.marked reader hnow hcompleted)

theorem Sound.answer {b : Streams} (h : b.Sound) {reader : Nat} (hnow : (b.stage reader).Marked)
    (answer : StreamStatus) : (b.answer reader answer).Sound := by
  cases answer with
  | signIn => exact (h.say rfl fun _ => rfl).toSteady.leave hnow.live
  | inactive =>
      unfold Streams.answer
      dsimp only
      split_ifs with hmarked
      · exact h.toSteady.leave hnow.live
      · exact (h.complete hnow.live (h.open_of_unmarked hnow hmarked) .inactive false).1
  | reattach =>
      unfold Streams.answer
      dsimp only
      split_ifs with hmarked
      · exact h.turn hnow nofun
      · refine (h.say rfl fun hcompleted => ?_).turn hnow nofun
        exact absurd hcompleted (h.open_of_unmarked hnow hmarked)
  | gaveUp => exact (h.say rfl fun _ => rfl).toSteady.leave hnow.live

/-! ### Starting and stopping -/

theorem Sound.halt {b : Streams} (h : b.Sound) : b.halt.Sound := by
  have hkept : b.halt.log = b.log ∧ b.halt.completed = b.completed := by
    unfold Streams.halt
    cases b.task with
    | none => exact ⟨rfl, rfl⟩
    | some stopped => exact ⟨rfl, rfl⟩
  refine Steady.of_dead (hkept.1 ▸ h.final) (fun stream hstream => ?_) h.follows.dead_halt
  rw [hkept.2] at hstream
  unfold Completed
  rw [hkept.1]
  exact h.genuine stream hstream

theorem Sound.starts {b : Streams} (h : b.Sound) (starts : List Start) :
    ({ b with starts := starts } : Streams).Sound :=
  ⟨⟨h.final, h.genuine, h.follows⟩, h.marked, h.settled⟩

theorem Sound.forget {b : Streams} (h : b.Sound) : b.forget.Sound := by
  unfold Streams.forget
  split_ifs with hnone
  · exact Steady.of_dead h.final (fun stream hstream => by cases hstream)
      (h.follows.dead_of_none hnone)
  · exact h

/-- A reader is started for a run that is not over. -/
theorem Sound.start {b : Streams} (h : b.Sound) (hnone : b.current = none) {stream : Text}
    (hopen : ¬ b.Completed stream) : (b.start stream).Sound := by
  refine ⟨⟨h.final, fun other hnever => (by cases hnever), fun reader hlive => ?_⟩,
    fun reader hmarked hcompleted => ?_, fun reader ending hsettling => ?_⟩
  · obtain rfl := h.follows.live_start hnone hlive
    exact ⟨rfl, by rw [stream_start]; rfl⟩
  · obtain rfl := h.follows.live_start hnone hmarked.live
    rw [stream_start] at hcompleted
    exact absurd hcompleted hopen
  · obtain rfl := h.follows.live_start hnone (show ((b.start stream).stage reader).Live by
      rw [hsettling]
      trivial)
    rw [stage_start] at hsettling
    cases hsettling

theorem Sound.mark {b : Streams} (h : b.Sound) {stream : Text} {status : Option Status}
    (hquiet : b.Completed stream → ∀ now ∈ status, (Frame.status stream now).disturbs = false) :
    (b.mark stream status).Sound := by
  cases status with
  | none => exact h
  | some now => exact h.say rfl fun hcompleted => hquiet hcompleted now rfl

theorem Sound.attach {b : Streams} (h : b.Sound) {stream : Text} {status : Option Status}
    (hguarded : b.Completed stream → b.Holds stream)
    (hquiet : b.completed = some stream → ∀ now ∈ status,
      (Frame.status stream now).disturbs = false) : (b.attach stream status).Sound := by
  unfold Streams.attach
  split_ifs with hheld hfree
  · exact h.mark fun hcompleted => hquiet (hguarded hcompleted).2.2
  · have hopen : ¬ b.Completed stream := by
      intro hcompleted
      cases hfree.2.symm.trans (hguarded hcompleted).1
    exact (h.start hfree.2 hopen).mark fun hcompleted => absurd hcompleted hopen
  · exact h.halt.starts _

theorem Sound.resume {b : Streams} (h : b.Sound) {call : Start}
    (hguarded : ∀ stream ∈ call.next, b.current = none ∧ ¬ b.Completed stream) :
    (b.resume call).Sound := by
  unfold Streams.resume
  cases hnext : call.next with
  | none => exact h.forget
  | some stream =>
      obtain ⟨hnone, hopen⟩ := hguarded stream hnext
      have hforgot : b.forget.current = none ∧ ¬ b.forget.Completed stream := by
        unfold Streams.forget
        rw [if_pos hnone]
        exact ⟨hnone, hopen⟩
      exact (h.forget.start hforgot.1 hforgot.2).mark fun hcompleted =>
        absurd hcompleted hforgot.2

/-! ### Runs -/

theorem marked_of_eq {b : Streams} {reader : Nat} {stage : Stage} (h : b.stage reader = stage)
    (hmarked : stage.Marked) : (b.stage reader).Marked := by
  rw [h]
  exact hmarked

theorem Sound.step {b : Streams} (h : b.Sound) {move : StreamMove} (hguarded : b.Guarded move) :
    (b.step move).Sound := by
  cases move with
  | names stream => exact h.say rfl fun hcompleted => absurd hcompleted hguarded
  | attaches stream => exact h.attach hguarded fun _ _ hnever => by cases hnever
  | asks stream =>
      refine h.attach hguarded fun hmarked now hnow => ?_
      rw [if_pos hmarked] at hnow
      rw [← Option.some.inj hnow]
      rfl
  | interrupts stream => exact h.say rfl fun _ => rfl
  | stops => exact h.halt.starts _
  | startEnds index =>
      unfold Streams.step
      dsimp only
      split
      · rename_i call hcall
        split_ifs
        · exact (h.starts _).resume fun stream hnext => hguarded call hcall stream hnext
        · exact h
      · exact h
  | looks away => exact ⟨⟨h.final, h.genuine, h.follows⟩, h.marked, h.settled⟩
  | begins reader known =>
      unfold Streams.step
      dsimp only
      split_ifs with hstage
      · exact h.loop (marked_of_eq hstage trivial) known
      · exact h
  | opens reader =>
      unfold Streams.step
      dsimp only
      split_ifs with hstage
      · exact h.turn (marked_of_eq hstage trivial) nofun
      · exact h.turn (marked_of_eq hstage trivial) nofun
      · exact h
  | refused reader =>
      unfold Streams.step
      dsimp only
      split_ifs with hstage
      · exact (h.say rfl fun _ => rfl).toSteady.leave (marked_of_eq hstage trivial).live
      · exact h
  | unopened reader =>
      unfold Streams.step
      dsimp only
      split_ifs with hstage
      · exact h.turn (marked_of_eq hstage trivial) nofun
      · exact h.toSteady.leave (marked_of_eq hstage trivial).live
      · exact h
  | handles reader event =>
      unfold Streams.step
      dsimp only
      split_ifs with hstage
      · exact h.handle (marked_of_eq hstage trivial) hguarded
      · exact h
  | idles reader =>
      unfold Streams.step
      dsimp only
      split_ifs with hstage
      · exact h.readOn (marked_of_eq hstage trivial)
      · exact h
  | breaks reader =>
      unfold Streams.step
      dsimp only
      split_ifs with hstage
      · exact h.turn (marked_of_eq hstage trivial) nofun
      · exact h
  | closed reader =>
      unfold Streams.step
      dsimp only
      split
      · rename_i terminal hstage
        have hlive : (b.stage reader).Live := by
          rw [hstage]
          trivial
        split_ifs with hover
        · exact h.toSteady.leave hlive
        · obtain ⟨hopen, -⟩ := not_or.mp hover
          rw [Bool.not_eq_true] at hopen
          subst hopen
          exact h.turn (marked_of_eq hstage trivial) nofun
      · exact h
  | answers reader answer =>
      unfold Streams.step
      dsimp only
      split_ifs with hstage
      · exact h.answer (marked_of_eq hstage trivial) answer
      · exact h
  | settles reader =>
      unfold Streams.step
      dsimp only
      split
      · rename_i ending hstage
        have hlive : (b.stage reader).Live := by
          rw [hstage]
          trivial
        exact h.toSteady.settle hlive (h.settled reader ending hstage) ending
      · exact h
  | wakes reader known =>
      unfold Streams.step
      dsimp only
      split_ifs with hstage
      · exact h.loop (marked_of_eq hstage trivial) known
      · exact h
  | unwinds reader =>
      unfold Streams.step
      dsimp only
      split_ifs with hstage
      · exact h.unwind (hguarded hstage)
      · exact h

/-- A move that completes a run leaves it completed. -/
theorem Sound.completes {b : Streams} (h : b.Sound) {move : StreamMove}
    (hguarded : b.Guarded move) {stream : Text} (hmove : b.Completes stream move) :
    (b.step move).Completed stream := by
  cases move with
  | handles reader event =>
      obtain ⟨hstage, rfl, hevent⟩ := hmove
      have hnow := marked_of_eq hstage trivial
      unfold Streams.step
      dsimp only
      rw [if_pos hstage]
      cases event with
      | done snapshot =>
          unfold Streams.handle
          dsimp only
          split_ifs with hmarked
          · exact h.genuine _ hmarked
          · exact (h.complete hnow.live (h.open_of_unmarked hnow hmarked) .done snapshot).2
      | cancel snapshot => exact (h.complete hnow.live hguarded .cancel snapshot).2
      | error => exact completed_say.mpr (Or.inl (completed_say.mpr (Or.inr ⟨rfl, rfl⟩)))
      | streamEnd =>
          unfold Streams.handle
          dsimp only
          split_ifs with hmarked
          · exact h.genuine _ hmarked
          · exact (h.complete hnow.live (h.open_of_unmarked hnow hmarked) .streamEnd false).2
      | _ => exact hevent.elim
  | answers reader answer =>
      obtain ⟨hstage, rfl, rfl⟩ := hmove
      have hnow := marked_of_eq hstage trivial
      unfold Streams.step Streams.answer
      dsimp only
      rw [if_pos hstage]
      split_ifs with hmarked
      · unfold Completed
        rw [log_leave]
        exact h.genuine _ hmarked
      · exact (h.complete hnow.live (h.open_of_unmarked hnow hmarked) .inactive false).2
  | _ => exact hmove.elim

theorem quiet_sound : quiet.Sound :=
  Steady.of_dead List.Pairwise.nil (fun _ hnever => by cases hnever) fun _ => id

/-- A run that is answered, done and over, with its reader gone. -/
def answered : List StreamMove :=
  [.attaches (ascii "r1"), .begins 0 true, .opens 0, .handles 0 (.token (ascii "Hi")),
    .handles 0 (.done true), .handles 0 .streamEnd, .closed 0]

/-- A run that is named again between its end and the end of its journal. -/
def namedInTime : List StreamMove :=
  [.attaches (ascii "r1"), .begins 0 true, .opens 0, .handles 0 (.token (ascii "Hi")),
    .handles 0 (.done true), .attaches (ascii "r1"), .asks (ascii "r1"), .handles 0 .metadata,
    .handles 0 .streamEnd, .closed 0]

end Streams

end Hermes

end CybexOS
