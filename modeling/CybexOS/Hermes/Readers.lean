/-
The live readers of a conversation: there is one at most, the task of the
conversation, and it follows the current stream.
-/
import CybexOS.Hermes.Streams

namespace CybexOS

namespace Hermes

/-- A reader that is neither over nor on its way out. -/
def Stage.Live : Stage → Prop
  | .cancelled | .ended => False
  | _ => True

namespace Streams

/-- Only the task is live, and it follows the current stream. -/
def OneReader (b : Streams) : Prop :=
  ∀ reader, (b.stage reader).Live → b.task = some reader ∧ b.current = some (b.stream reader)

theorem stage_turn_self (b : Streams) (reader : Nat) (stage : Stage) :
    (b.turn reader stage).stage reader = stage := by
  unfold Streams.stage turn
  dsimp only
  rw [Function.update_self]

theorem stage_turn_of_ne (b : Streams) {reader other : Nat} (h : other ≠ reader) (stage : Stage) :
    (b.turn reader stage).stage other = b.stage other := by
  unfold Streams.stage turn
  dsimp only
  rw [Function.update_of_ne h]

theorem stream_turn (b : Streams) (reader : Nat) (stage : Stage) (other : Nat) :
    (b.turn reader stage).stream other = b.stream other := by
  unfold Streams.stream turn
  dsimp only
  by_cases hsame : other = reader
  · rw [hsame, Function.update_self]
    rfl
  · rw [Function.update_of_ne hsame]

theorem stage_leave_self (b : Streams) (reader : Nat) : (b.leave reader).stage reader = .ended := by
  rw [← stage_turn_self b reader .ended]
  unfold leave
  rw [apply_ite Streams.stage, ite_apply]
  exact ite_self _

theorem stage_leave_of_ne (b : Streams) {reader other : Nat} (h : other ≠ reader) :
    (b.leave reader).stage other = b.stage other := by
  rw [← stage_turn_of_ne b h .ended]
  unfold leave
  rw [apply_ite Streams.stage, ite_apply]
  exact ite_self _

theorem stream_leave (b : Streams) (reader other : Nat) :
    (b.leave reader).stream other = b.stream other := by
  rw [← stream_turn b reader .ended other]
  unfold leave
  rw [apply_ite Streams.stream, ite_apply]
  exact ite_self _

theorem log_leave (b : Streams) (reader : Nat) : (b.leave reader).log = b.log := by
  unfold leave
  rw [apply_ite Streams.log]
  exact ite_self _

/-- A reader that leaves while another stream is current. -/
theorem leave_of_ne {b : Streams} {reader : Nat} (h : b.current ≠ some (b.stream reader)) :
    b.leave reader = { b.turn reader .ended with
      task := if b.task = some reader then none else b.task } := by
  unfold leave
  exact if_neg h

namespace OneReader

variable {b : Streams} (h : b.OneReader) {reader : Nat}

include h

/-- The live reader is the only one. -/
theorem eq_of_live {other : Nat} (hreader : (b.stage reader).Live) (hother : (b.stage other).Live) :
    other = reader :=
  Option.some.inj ((h other hother).1.symm.trans (h reader hreader).1)

theorem live_turn (hlive : (b.stage reader).Live) {stage : Stage} {other : Nat}
    (hother : ((b.turn reader stage).stage other).Live) : other = reader := by
  by_contra hne
  rw [stage_turn_of_ne b hne] at hother
  exact hne (h.eq_of_live hlive hother)

theorem turn (hlive : (b.stage reader).Live) (stage : Stage) : (b.turn reader stage).OneReader := by
  intro other hother
  obtain rfl := h.live_turn hlive hother
  rw [stream_turn]
  exact h other hlive

/-- Nothing is live once the live reader has left. -/
theorem dead_leave (hlive : (b.stage reader).Live) (other : Nat) :
    ¬ ((b.leave reader).stage other).Live := by
  intro hother
  by_cases hsame : other = reader
  · rw [hsame, stage_leave_self] at hother
    exact hother
  · rw [stage_leave_of_ne b hsame] at hother
    exact hsame (h.eq_of_live hlive hother)

/-- Leaving while another stream is current only gives up the task. -/
theorem unwind (hother : b.current ≠ some (b.stream reader)) : (b.leave reader).OneReader := by
  intro other hlive
  have hne : other ≠ reader := by
    rintro rfl
    rw [stage_leave_self] at hlive
    exact hlive
  rw [stage_leave_of_ne b hne] at hlive
  obtain ⟨htask, hcurrent⟩ := h other hlive
  rw [stream_leave, leave_of_ne hother]
  refine ⟨?_, hcurrent⟩
  dsimp only
  rw [if_neg fun hmine => hne (Option.some.inj (htask.symm.trans hmine))]
  exact htask

theorem dead_of_none (hnone : b.current = none) (other : Nat) : ¬ (b.stage other).Live := by
  intro hlive
  cases hnone.symm.trans (h other hlive).2

theorem dead_halt (other : Nat) : ¬ (b.halt.stage other).Live := by
  intro hlive
  unfold Streams.halt at hlive
  cases htask : b.task with
  | none =>
      rw [htask] at hlive
      cases htask.symm.trans (h other hlive).1
  | some stopped =>
      rw [htask] at hlive
      by_cases hsame : other = stopped
      · rw [hsame, stage_turn_self] at hlive
        cases hstage : b.stage stopped with
        | _ =>
            rw [hstage] at hlive
            exact hlive
      · rw [stage_turn_of_ne _ hsame] at hlive
        exact hsame (Option.some.inj ((h other hlive).1.symm.trans htask))

/-- Where nothing is current, only the reader that is started is live. -/
theorem live_start (hnone : b.current = none) {stream : Text} {other : Nat}
    (hlive : ((b.start stream).stage other).Live) : other = b.made := by
  by_contra hne
  refine h.dead_of_none hnone other ?_
  unfold Streams.stage Streams.start at hlive
  dsimp only at hlive
  rw [Function.update_of_ne hne] at hlive
  exact hlive

end OneReader

theorem OneReader.of_dead {b : Streams} (h : ∀ reader, ¬ (b.stage reader).Live) : b.OneReader :=
  fun reader hlive => absurd hlive (h reader)

theorem readers_start (b : Streams) (stream : Text) :
    (b.start stream).readers b.made = ⟨stream, .created⟩ :=
  Function.update_self _ _ _

theorem stage_start (b : Streams) (stream : Text) : (b.start stream).stage b.made = .created := by
  unfold Streams.stage
  rw [readers_start]

theorem stream_start (b : Streams) (stream : Text) : (b.start stream).stream b.made = stream := by
  unfold Streams.stream
  rw [readers_start]

end Streams

end Hermes

end CybexOS
