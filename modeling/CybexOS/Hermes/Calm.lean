/-
Moves of a conversation's streams that start no reader and add nothing to the
text of a run, and the one thing that handling an event does besides.
-/
import CybexOS.Hermes.Readers

namespace CybexOS

namespace Hermes

/-- A reader that still takes lines from its connection. -/
def Stage.Reads : Stage → Prop
  | .reading | .settling .done => True
  | _ => False

theorem Stage.Reads.live {stage : Stage} (h : stage.Reads) : stage.Live := by
  cases stage with
  | reading => trivial
  | settling ending => trivial
  | _ => exact h.elim

/-- The text that a frame adds to the message of a run. -/
def Frame.said (stream : Text) : Frame → Text
  | .delta other chunk => if other = stream then chunk else []
  | _ => []

/-- The text that an event adds to the message of its run. -/
def StreamEvent.chunk : StreamEvent → Text
  | .token chunk => chunk
  | .interimAssistant alreadyStreamed chunk => if alreadyStreamed then [] else chunk
  | _ => []

namespace Streams

/-- The texts of the deltas that were broadcast for a run. -/
def said (b : Streams) (stream : Text) : Text := b.log.flatMap (Frame.said stream)

/-- No reader is started, and nothing is observed. -/
structure Calm (b b' : Streams) : Prop where
  one : b'.OneReader
  live : ∀ reader, (b'.stage reader).Live →
    (b.stage reader).Live ∧ b'.stream reader = b.stream reader ∧ b'.cursor = b.cursor
  reads : ∀ reader, (b'.stage reader).Reads → (b.stage reader).Reads
  connects : ∀ reader, b'.stage reader = .connecting → b.stage reader = .connecting
  said : ∀ stream, b'.said stream = b.said stream

theorem Calm.refl {b : Streams} (h : b.OneReader) : Calm b b :=
  ⟨h, fun _ hlive => ⟨hlive, rfl, rfl⟩, fun _ => id, fun _ => id, fun _ => rfl⟩

theorem Calm.trans {b c d : Streams} (h : Calm b c) (h' : Calm c d) : Calm b d where
  one := h'.one
  live := fun reader hlive => by
    obtain ⟨hmiddle, hstream, hcursor⟩ := h'.live reader hlive
    obtain ⟨hfirst, hstream', hcursor'⟩ := h.live reader hmiddle
    exact ⟨hfirst, hstream.trans hstream', hcursor.trans hcursor'⟩
  reads := fun reader hreads => h.reads reader (h'.reads reader hreads)
  connects := fun reader hconnects => h.connects reader (h'.connects reader hconnects)
  said := fun stream => (h'.said stream).trans (h.said stream)

/-- After a calm move of which nothing is live, nothing is observed. -/
theorem Calm.of_dead {b b' : Streams} (hdead : ∀ reader, ¬ (b'.stage reader).Live)
    (hsaid : ∀ stream, b'.said stream = b.said stream) : Calm b b' where
  one := OneReader.of_dead hdead
  live := fun reader hlive => absurd hlive (hdead reader)
  reads := fun reader hreads => absurd hreads.live (hdead reader)
  connects := fun reader hconnects => absurd (by rw [hconnects]; trivial) (hdead reader)
  said := hsaid

section

variable {b : Streams} (h : b.OneReader)

include h

theorem Calm.say {frame : Frame} (hquiet : ∀ stream, frame.said stream = []) :
    Calm b (b.say frame) where
  one := h
  live := fun _ hlive => ⟨hlive, rfl, rfl⟩
  reads := fun _ => id
  connects := fun _ => id
  said := fun stream => by
    unfold Streams.said Streams.say
    dsimp only
    rw [List.flatMap_append, List.flatMap_singleton, hquiet, List.append_nil]

theorem Calm.turn {reader : Nat} (hlive : (b.stage reader).Live) {stage : Stage}
    (hreads : stage.Reads → (b.stage reader).Reads) (hconnects : stage ≠ .connecting) :
    Calm b (b.turn reader stage) where
  one := h.turn hlive stage
  live := fun other hother => by
    obtain rfl := h.live_turn hlive hother
    exact ⟨hlive, stream_turn b other stage other, rfl⟩
  reads := fun other hother => by
    obtain rfl := h.live_turn hlive hother.live
    rw [stage_turn_self] at hother
    exact hreads hother
  connects := fun other hother => by
    obtain rfl := h.live_turn hlive (show ((b.turn reader stage).stage other).Live by
      rw [hother]
      trivial)
    rw [stage_turn_self] at hother
    exact absurd hother hconnects
  said := fun _ => rfl

theorem Calm.leave {reader : Nat} (hlive : (b.stage reader).Live) : Calm b (b.leave reader) :=
  Calm.of_dead (h.dead_leave hlive) fun stream => by
    unfold Streams.said
    rw [log_leave]

theorem Calm.readOn {reader : Nat} (hreads : (b.stage reader).Reads) :
    Calm b (b.readOn reader) := by
  unfold Streams.readOn
  split_ifs
  · exact Calm.turn h hreads.live (fun _ => hreads) nofun
  · exact Calm.turn h hreads.live (fun _ => hreads) nofun

theorem Calm.unwind {reader : Nat} (hother : b.current ≠ some (b.stream reader)) :
    Calm b (b.leave reader) := by
  have hsame : ∀ other, ((b.leave reader).stage other).Live →
      (b.leave reader).stage other = b.stage other := by
    intro other hlive
    refine stage_leave_of_ne b ?_
    rintro rfl
    rw [stage_leave_self] at hlive
    exact hlive
  refine ⟨h.unwind hother, fun other hlive => ?_, fun other hreads => ?_,
    fun other hconnects => ?_, fun stream => ?_⟩
  · rw [stream_leave, ← hsame other hlive]
    exact ⟨hlive, rfl, by rw [leave_of_ne hother]; rfl⟩
  · rw [← hsame other hreads.live]
    exact hreads
  · rw [← hsame other (by rw [hconnects]; trivial)]
    exact hconnects
  · unfold Streams.said
    rw [log_leave]

theorem Calm.status (stream : Text) (status : Status) : Calm b (b.say (.status stream status)) :=
  Calm.say h fun _ => rfl

theorem Calm.settle {reader : Nat} (hlive : (b.stage reader).Live) {ending : Ending}
    (hreads : ending = .done → (b.stage reader).Reads) : Calm b (b.settle reader ending) := by
  have hidle := Calm.status h (b.stream reader) .idle
  have hsettled := Calm.status h (b.stream reader) b.settledStatus
  cases ending with
  | done =>
      have hmarked : Calm b { b.say (.status (b.stream reader) b.settledStatus) with
          completed := some (b.stream reader) } :=
        ⟨hsettled.one, hsettled.live, hsettled.reads, hsettled.connects, hsettled.said⟩
      exact hmarked.trans (Calm.readOn hmarked.one (hreads rfl))
  | cancel => exact hidle.trans (Calm.turn hidle.one hlive nofun nofun)
  | streamEnd => exact hsettled.trans (Calm.turn hsettled.one hlive nofun nofun)
  | inactive => exact hsettled.trans (Calm.leave hsettled.one hlive)

theorem Calm.complete {reader : Nat} (hlive : (b.stage reader).Live) (ending : Ending)
    (hreads : ending = .done → (b.stage reader).Reads) (snapshot : Bool) :
    Calm b (b.complete reader ending snapshot) := by
  have htold : Calm b (b.say (.complete (b.stream reader) b.text)) := Calm.say h fun _ => rfl
  unfold Streams.complete
  dsimp only
  split_ifs
  · exact htold.trans (Calm.settle htold.one hlive hreads)
  · refine htold.trans (Calm.turn htold.one hlive (fun hsettling => ?_) nofun)
    cases ending with
    | done => exact hreads rfl
    | _ => exact hsettling.elim

theorem Calm.answer {reader : Nat} (hlive : (b.stage reader).Live) (answer : StreamStatus) :
    Calm b (b.answer reader answer) := by
  have herror := Calm.status h (b.stream reader) .error
  cases answer with
  | signIn => exact herror.trans (Calm.leave herror.one hlive)
  | inactive =>
      unfold Streams.answer
      dsimp only
      split_ifs
      · exact Calm.leave h hlive
      · exact Calm.complete h hlive .inactive nofun false
  | reattach =>
      unfold Streams.answer
      dsimp only
      split_ifs
      · exact Calm.turn h hlive nofun nofun
      · have hsaid := Calm.status h (b.stream reader) .reconnecting
        exact hsaid.trans (Calm.turn hsaid.one hlive nofun nofun)
  | gaveUp => exact herror.trans (Calm.leave herror.one hlive)

theorem Calm.halt : Calm b b.halt := by
  refine Calm.of_dead h.dead_halt fun stream => ?_
  unfold Streams.said Streams.halt
  cases b.task with
  | none => rfl
  | some stopped => rfl

theorem Calm.starts (starts : List Start) : Calm b { b with starts := starts } :=
  ⟨h, fun _ hlive => ⟨hlive, rfl, rfl⟩, fun _ => id, fun _ => id, fun _ => rfl⟩

theorem Calm.forget : Calm b b.forget := by
  unfold Streams.forget
  split_ifs with hnone
  · exact Calm.of_dead (h.dead_of_none hnone) fun _ => rfl
  · exact Calm.refl h

theorem Calm.mark (stream : Text) (status : Option Status) : Calm b (b.mark stream status) := by
  cases status with
  | none => exact Calm.refl h
  | some now => exact Calm.status h stream now

/-- After its text, an event only moves its reader. -/
theorem Calm.handle {reader : Nat} (hreading : b.stage reader = .reading)
    (event : StreamEvent) : Calm (b.append reader event.chunk) (b.handle reader event) := by
  have hreads : (b.stage reader).Reads := by
    rw [hreading]
    trivial
  have happend : ∀ chunk, (b.append reader chunk).OneReader ∧
      (b.append reader chunk).stage reader = b.stage reader := by
    intro chunk
    unfold Streams.append
    split_ifs
    · exact ⟨h, rfl⟩
    · exact ⟨h, rfl⟩
  have hread : ∀ chunk, Calm (b.append reader chunk) ((b.append reader chunk).readOn reader) := by
    intro chunk
    refine Calm.readOn (happend chunk).1 ?_
    rw [(happend chunk).2]
    exact hreads
  have hworking := Calm.status h (b.stream reader) .working
  have hwaiting := Calm.status h (b.stream reader) .waiting
  have hinfo : ∀ working, Calm b (b.say (.info (b.stream reader) working)) :=
    fun _ => Calm.say h fun _ => rfl
  cases event with
  | token chunk => exact hread chunk
  | interimAssistant alreadyStreamed chunk =>
      cases alreadyStreamed with
      | true => exact Calm.readOn h hreads
      | false => exact hread chunk
  | reasoning => exact (hinfo true).trans (Calm.readOn (hinfo true).one hreads)
  | tool => exact hworking.trans (Calm.readOn hworking.one hreads)
  | toolComplete => exact hworking.trans (Calm.readOn hworking.one hreads)
  | approval => exact hwaiting.trans (Calm.readOn hwaiting.one hreads)
  | clarify => exact hwaiting.trans (Calm.readOn hwaiting.one hreads)
  | compressing =>
      have htold : Calm _ ((b.say (.status (b.stream reader) .working)).say
        (.info (b.stream reader) true)) := Calm.say hworking.one fun _ => rfl
      exact (hworking.trans htold).trans (Calm.readOn htold.one hreads)
  | compressed =>
      have htold : Calm _ ((b.say (.status (b.stream reader) .working)).say
        (.info (b.stream reader) true)) := Calm.say hworking.one fun _ => rfl
      exact (hworking.trans htold).trans (Calm.readOn htold.one hreads)
  | done snapshot =>
      change Calm b (b.handle reader (.done snapshot))
      unfold Streams.handle
      dsimp only
      split_ifs
      · exact Calm.readOn h hreads
      · exact Calm.complete h hreads.live .done (fun _ => hreads) snapshot
  | cancel snapshot => exact Calm.complete h hreads.live .cancel nofun snapshot
  | error =>
      have htold : Calm b (b.say (.complete (b.stream reader) b.text)) := Calm.say h fun _ => rfl
      have hfailed := htold.trans (Calm.status htold.one (b.stream reader) .error)
      exact hfailed.trans (Calm.turn hfailed.one hreads.live nofun nofun)
  | streamEnd =>
      change Calm b (b.handle reader .streamEnd)
      unfold Streams.handle
      dsimp only
      split_ifs
      · exact Calm.turn h hreads.live nofun nofun
      · exact Calm.complete h hreads.live .streamEnd nofun false
  | metadata => exact (hinfo false).trans (Calm.readOn (hinfo false).one hreads)
  | other => exact (hinfo _).trans (Calm.readOn (hinfo _).one hreads)

end

/-- What `append` changes is what it says. -/
theorem append_spec (b : Streams) (reader : Nat) (chunk : Text) :
    (b.append reader chunk).readers = b.readers ∧ (b.append reader chunk).cursor = b.cursor ∧
      (b.append reader chunk).task = b.task ∧ (b.append reader chunk).current = b.current ∧
      ∀ stream, (b.append reader chunk).said stream =
        b.said stream ++ if b.stream reader = stream then chunk else [] := by
  unfold append
  split_ifs with hnil
  · refine ⟨rfl, rfl, rfl, rfl, fun stream => ?_⟩
    rw [hnil, ite_self, List.append_nil]
  · refine ⟨rfl, rfl, rfl, rfl, fun stream => ?_⟩
    unfold said say
    dsimp only
    rw [List.flatMap_append, List.flatMap_singleton]
    rfl

/-- The move only moves a reader that is there, or stops it. -/
def Plain (b : Streams) : StreamMove → Prop
  | .attaches _ | .asks _ | .startEnds _ | .begins .. | .opens _ | .handles .. | .wakes .. => False
  | .unwinds reader => b.stage reader = .cancelled → b.current ≠ some (b.stream reader)
  | _ => True

theorem Calm.step {b : Streams} (h : b.OneReader) {move : StreamMove} (hplain : b.Plain move) :
    Calm b (b.step move) := by
  have hlive : ∀ {reader stage}, b.stage reader = stage → stage.Live → (b.stage reader).Live :=
    fun hstage hlive => hstage ▸ hlive
  cases move with
  | names stream => exact Calm.status h stream .working
  | interrupts stream => exact Calm.status h stream .idle
  | stops =>
      have hhalt := Calm.halt h
      exact hhalt.trans (Calm.starts hhalt.one _)
  | looks away => exact ⟨h, fun _ hlive => ⟨hlive, rfl, rfl⟩, fun _ => id, fun _ => id, fun _ => rfl⟩
  | refused reader =>
      unfold Streams.step
      dsimp only
      split_ifs with hstage
      · have herror := Calm.status h (b.stream reader) .error
        exact herror.trans (Calm.leave herror.one (hlive hstage trivial))
      · exact Calm.refl h
  | unopened reader =>
      unfold Streams.step
      dsimp only
      split_ifs with hstage
      · exact Calm.turn h (hlive hstage trivial) nofun nofun
      · exact Calm.leave h (hlive hstage trivial)
      · exact Calm.refl h
  | idles reader =>
      unfold Streams.step
      dsimp only
      split_ifs with hstage
      · refine Calm.readOn h ?_
        rw [hstage]
        trivial
      · exact Calm.refl h
  | breaks reader =>
      unfold Streams.step
      dsimp only
      split_ifs with hstage
      · exact Calm.turn h (hlive hstage trivial) nofun nofun
      · exact Calm.refl h
  | closed reader =>
      unfold Streams.step
      dsimp only
      split
      · rename_i terminal hstage
        split_ifs
        · exact Calm.leave h (hlive hstage trivial)
        · exact Calm.turn h (hlive hstage trivial) nofun nofun
      · exact Calm.refl h
  | answers reader answer =>
      unfold Streams.step
      dsimp only
      split_ifs with hstage
      · exact Calm.answer h (hlive hstage trivial) answer
      · exact Calm.refl h
  | settles reader =>
      unfold Streams.step
      dsimp only
      split
      · rename_i ending hstage
        refine Calm.settle h (hlive hstage trivial) fun hdone => ?_
        rw [hstage, hdone]
        trivial
      · exact Calm.refl h
  | unwinds reader =>
      unfold Streams.step
      dsimp only
      split_ifs with hstage
      · exact Calm.unwind h (hplain hstage)
      · exact Calm.refl h
  | _ => exact hplain.elim

end Streams

end Hermes

end CybexOS
