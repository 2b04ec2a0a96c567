/-
Runs of the wallpaper palette: it belongs to the wallpaper, and a cached one is
confirmed unless the image is selected again while its stat is running.
-/
import CybexOS.Runs
import CybexOS.Wallpaper.Palette

namespace CybexOS

namespace Wallpaper

section

variable {P : Type}

/-! ### The property -/

namespace Palettes

/-- The palette comes from an entry for the selected path, or was generated for it. -/
def FromPath (s : Palettes P) (palette : P) : Prop :=
  (∃ entry, s.used = some entry ∧ entry.identity = s.wallpaperIdentity ∧
    entry.palette = palette) ∨
  (s.used = none ∧ (s.wallpaperIdentity, palette) ∈ s.generated)

/-- No timer, process or deferred call is pending. -/
def Quiet (s : Palettes P) : Prop :=
  s.timer = false ∧ s.stat = false ∧ s.generation = false ∧ s.deferred = false

/-- There is a palette or an error, and a palette from the cache is confirmed by
a stat that was started after the selection. -/
def Settled (s : Palettes P) : Prop :=
  s.busy = false ∧ (s.ready = true ∨ s.error ≠ []) ∧
    (s.ready = true → ∀ entry ∈ s.used, entry.fingerprint ∈ s.stamps)

/-- The mode is wallpaper, and one is selected. -/
def Wanted (s : Palettes P) : Prop := s.mode = ascii "wallpaper" ∧ s.wall ≠ []

instance (s : Palettes P) : Decidable s.Quiet := inferInstanceAs (Decidable (_ ∧ _ ∧ _ ∧ _))

instance (s : Palettes P) : Decidable s.Wanted := inferInstanceAs (Decidable (_ ∧ _))

end Palettes

structure Belongs (s : Palettes P) : Prop where
  path : s.ready = true → ∃ palette, s.variants = some palette ∧ s.FromPath palette
  settled : s.Wanted → s.Quiet → s.Settled

/-- A change selects the image whose stat is still running. -/
def Palettes.Reselects (s : Palettes P) (identity : Text) : Prop :=
  identity ≠ s.wallpaperIdentity ∧ s.stat = true ∧ identity = s.activeIdentity

/-- No image is selected again while its stat is running. -/
def Unreselected (s : Palettes P) : PaletteEvent P → Prop
  | .wallChanges wall => ¬s.Reselects (s.dir ++ 47 :: wall)
  | .dirChanges dir => ¬s.Reselects (dir ++ 47 :: s.wall)
  | _ => True

instance (s : Palettes P) (identity : Text) : Decidable (s.Reselects identity) :=
  inferInstanceAs (Decidable (_ ∧ _ ∧ _))

instance (s : Palettes P) : (event : PaletteEvent P) → Decidable (Unreselected s event)
  | .wallChanges wall => inferInstanceAs (Decidable ¬s.Reselects (s.dir ++ 47 :: wall))
  | .dirChanges dir => inferInstanceAs (Decidable ¬s.Reselects (dir ++ 47 :: s.wall))
  | .modeChanges _ => isTrue trivial
  | .cacheLoads _ => isTrue trivial
  | .timerFires => isTrue trivial
  | .statEnds _ => isTrue trivial
  | .generationEnds _ _ _ => isTrue trivial
  | .runsDeferred => isTrue trivial

/-! ### What is going on -/

/-- The running stages; a stat of the selected image was started after the selection. -/
structure Stages (s : Palettes P) : Prop where
  active : s.stat = true ∨ s.generation = true → s.activeIdentity ≠ []
  apart : s.stat = true → s.generation = false
  fresh : s.stat = true → s.activeIdentity = s.wallpaperIdentity → s.fresh = true

structure Sound (s : Palettes P) : Prop where
  stages : Stages s
  path : s.ready = true → ∃ palette, s.variants = some palette ∧ s.FromPath palette
  timer : s.timer = true → s.queuedIdentity = [] ∨ s.queuedIdentity = s.wallpaperIdentity
  queued : s.Wanted → s.queuedIdentity ≠ [] →
    s.timer = true ∨ s.stat = true ∨ s.generation = true ∨ s.deferred = true
  settled : s.Wanted → s.Settled ∨ s.queuedIdentity ≠ [] ∨ s.deferred = true ∨ s.stat = true ∨
    (s.generation = true ∧ s.ready = false)

theorem Sound.belongs {s : Palettes P} (h : Sound s) : Belongs s := by
  refine ⟨h.path, fun hwanted hquiet => ?_⟩
  obtain ⟨htimer, hstat, hgeneration, hdeferred⟩ := hquiet
  rcases h.settled hwanted with hsettled | hqueued | hother | hother | hother
  · exact hsettled
  · rcases h.queued hwanted hqueued with hother | hother | hother | hother
    · cases htimer.symm.trans hother
    · cases hstat.symm.trans hother
    · cases hgeneration.symm.trans hother
    · cases hdeferred.symm.trans hother
  · cases hdeferred.symm.trans hother
  · cases hstat.symm.trans hother
  · cases hgeneration.symm.trans hother.1

theorem wallpaperIdentity_ne_nil (s : Palettes P) : s.wallpaperIdentity ≠ [] := by
  unfold Palettes.wallpaperIdentity
  simp

/-! ### Requests -/

variable {s : Palettes P}

/-- A request forgets what was shown for another image, and looks again. -/
theorem Stages.requestCurrent (h : Stages s) : Sound s.requestCurrent := by
  unfold Palettes.requestCurrent
  dsimp only
  split_ifs with hmode hnone
  · refine ⟨⟨h.active, h.apart, h.fresh⟩, nofun, nofun, fun _ hne => absurd rfl hne, ?_⟩
    exact fun hwanted => absurd hwanted.1 hmode
  · have hwall : s.wall = [] := hnone.resolve_left (wallpaperIdentity_ne_nil s)
    refine ⟨⟨h.active, h.apart, h.fresh⟩, nofun, nofun, ?_, ?_⟩
    · exact fun hwanted => absurd hwall hwanted.2
    · exact fun hwanted => absurd hwall hwanted.2
  · have hqueued := wallpaperIdentity_ne_nil s
    cases hread : readCache s.cache s.wallpaperIdentity none with
    | none =>
        exact ⟨⟨h.active, h.apart, h.fresh⟩, nofun, fun _ => .inr rfl, fun _ _ => .inl rfl,
          fun _ => .inr (.inl hqueued)⟩
    | some entry =>
        dsimp only
        unfold Palettes.usePalette
        rw [if_pos ⟨hqueued, rfl⟩]
        refine ⟨⟨h.active, h.apart, h.fresh⟩, fun _ => ⟨entry.palette, rfl, ?_⟩,
          fun _ => .inr rfl, fun _ _ => .inl rfl, fun _ => .inr (.inl hqueued)⟩
        exact .inl ⟨entry, rfl, readCache_identity hread, rfl⟩

theorem Sound.selects (h : Sound s) {dir wall : Text} (hfit : ¬s.Reselects (dir ++ 47 :: wall))
    (hsame : dir ++ 47 :: wall = s.wallpaperIdentity → dir = s.dir ∧ wall = s.wall) :
    Sound (s.selects dir wall) := by
  unfold Palettes.selects
  split_ifs with heq
  · obtain ⟨rfl, rfl⟩ := hsame heq
    exact h
  · refine Stages.requestCurrent ⟨h.stages.active, h.stages.apart, fun hstat hactive => ?_⟩
    exact absurd ⟨heq, hstat, hactive.symm⟩ hfit

/-- The timer starts a stat of the selected image. -/
theorem Sound.startQueued (h : Sound s) (htimer : s.timer = true) :
    Sound ({ s with timer := false } : Palettes P).startQueued := by
  unfold Palettes.startQueued
  dsimp only
  split_ifs with hbusy hother
  · refine ⟨⟨h.stages.active, h.stages.apart, h.stages.fresh⟩, h.path, nofun,
      fun _ hne => .inr ?_, h.settled⟩
    rcases hbusy with hstat | hgeneration | hnil
    · exact .inl hstat
    · exact .inr (.inl hgeneration)
    · exact absurd hnil hne
  · refine absurd ((h.timer htimer).resolve_left fun hnil => ?_) hother
    exact hbusy (.inr (.inr hnil))
  · have hgeneration : s.generation = false :=
      Bool.eq_false_iff.mpr fun heq => hbusy (.inr (.inl heq))
    have hqueued : s.queuedIdentity ≠ [] := fun hnil => hbusy (.inr (.inr hnil))
    exact ⟨⟨fun _ => hqueued, fun _ => hgeneration, fun _ _ => rfl⟩, h.path, nofun,
      fun _ hne => absurd rfl hne, fun _ => .inr (.inr (.inr (.inl rfl)))⟩

/-! ### Ends of the stages -/

/-- A state between the stages. -/
structure Between (s : Palettes P) : Prop where
  stat : s.stat = false
  generation : s.generation = false
  path : s.ready = true → ∃ palette, s.variants = some palette ∧ s.FromPath palette
  timer : s.timer = true → s.queuedIdentity = [] ∨ s.queuedIdentity = s.wallpaperIdentity

theorem stages_of_none (hstat : s.stat = false) (hgeneration : s.generation = false) :
    Stages s := by
  refine ⟨?_, fun heq => ?_, fun heq => ?_⟩
  · rintro (heq | heq)
    · cases hstat.symm.trans heq
    · cases hgeneration.symm.trans heq
  · cases hstat.symm.trans heq
  · cases hstat.symm.trans heq

/-- A request that waits is made again. -/
theorem Between.deferred (h : Between s) (hdeferred : s.deferred = true) : Sound s :=
  ⟨stages_of_none h.stat h.generation, h.path, h.timer, fun _ _ => .inr (.inr (.inr hdeferred)),
    fun _ => .inr (.inr (.inl hdeferred))⟩

/-- Nothing waits, and the palette is settled. -/
theorem Between.settled (h : Between s) (hqueued : s.queuedIdentity = [])
    (hsettled : s.Wanted → s.Settled ∨ s.deferred = true) : Sound s := by
  refine ⟨stages_of_none h.stat h.generation, h.path, h.timer,
    fun _ hne => absurd hqueued hne, fun hwanted => ?_⟩
  rcases hsettled hwanted with hdone | hdeferred
  · exact .inl hdone
  · exact .inr (.inr (.inl hdeferred))

theorem Between.usePalette (h : Between s) {palette : P} {used : Option (Entry P)}
    (hfrom : (∃ entry, used = some entry ∧ entry.identity = s.wallpaperIdentity ∧
      entry.palette = palette) ∨ (used = none ∧ (s.wallpaperIdentity, palette) ∈ s.generated))
    (hconfirmed : ∀ entry ∈ used, entry.fingerprint ∈ s.stamps) :
    Sound (s.usePalette s.wallpaperIdentity palette used) ∧
      (s.usePalette s.wallpaperIdentity palette used).queuedIdentity = [] := by
  unfold Palettes.usePalette
  rw [if_pos ⟨wallpaperIdentity_ne_nil s, rfl⟩]
  refine ⟨Between.settled ⟨h.stat, h.generation, fun _ => ⟨palette, rfl, hfrom⟩, fun _ => .inl rfl⟩
    rfl fun _ => .inl ⟨rfl, .inl rfl, fun _ => hconfirmed⟩, rfl⟩

theorem Between.finishStat (h : Between s) (hactive : s.activeIdentity ≠ []) {output : Text}
    (hconfirmed : s.activeIdentity = s.wallpaperIdentity → fingerprint output ∈ s.stamps) :
    Sound (s.finishStat output) := by
  have hgenerates : Sound { s with
      variants := none, ready := false, error := [], busy := true,
      activeStamp := fingerprint output, generation := true } :=
    ⟨⟨fun _ => hactive, fun heq => (by cases h.stat.symm.trans heq),
      fun heq => (by cases h.stat.symm.trans heq)⟩, nofun, h.timer,
      fun _ _ => .inr (.inr (.inl rfl)), fun _ => .inr (.inr (.inr (.inr ⟨rfl, rfl⟩)))⟩
  unfold Palettes.finishStat
  dsimp only
  by_cases hother : ¬resultIsCurrent s.activeIdentity s.wallpaperIdentity ∨
      s.mode ≠ ascii "wallpaper"
  · rw [if_pos hother]
    exact Between.deferred ⟨h.stat, h.generation, h.path, h.timer⟩ rfl
  · rw [if_neg hother]
    have hidentity : s.activeIdentity = s.wallpaperIdentity :=
      (not_not.mp (not_or.mp hother).1).2
    by_cases hstamp : fingerprint output ≠ []
    · rw [if_pos hstamp]
      cases hread : readCache s.cache s.activeIdentity (some (fingerprint output)) with
      | none => exact hgenerates
      | some entry =>
          have hfingerprint := readCache_fingerprint hread
          have hentry := readCache_identity hread
          have hbetween : Between { s with activeIdentity := [] } :=
            ⟨h.stat, h.generation, h.path, h.timer⟩
          have hstamps : ∀ other ∈ some entry, other.fingerprint ∈ s.stamps := by
            intro other hsome
            obtain rfl := Option.mem_some_iff.mp hsome
            rw [hfingerprint]
            exact hconfirmed hidentity
          obtain ⟨hsound, hnil⟩ := hbetween.usePalette
            (.inl ⟨entry, rfl, hentry.trans hidentity, rfl⟩) hstamps
          dsimp only
          rw [hidentity]
          unfold Palettes.drainQueue
          rw [if_neg fun hne => hne hnil]
          exact hsound
    · rw [if_neg hstamp]
      exact hgenerates

theorem Sound.statEnds (h : Sound s) (hstat : s.stat = true) {output : Text} :
    Sound (s.statEnds output) := by
  have hactive := h.stages.active (.inl hstat)
  have hbetween {stamps : List Text} :
      Between { s with stat := false, fresh := false, stamps := stamps } :=
    ⟨rfl, h.stages.apart hstat, h.path, h.timer⟩
  unfold Palettes.statEnds
  dsimp only
  rw [if_pos ⟨hstat, hactive⟩]
  refine hbetween.finishStat hactive fun hidentity => ?_
  have hfresh : s.fresh = true := h.stages.fresh hstat hidentity
  dsimp only
  rw [if_pos hfresh]
  exact List.mem_append_right _ List.mem_cons_self

/-- A generation has ended; one for the selected image has settled the palette. -/
structure Finished (current : Prop) (s : Palettes P) : Prop extends Between s where
  settled : s.Wanted → s.queuedIdentity = [] → current ∨ s.ready = true →
    s.Settled ∨ s.deferred = true

/-- A request that waits is made again. -/
theorem Finished.sound {current : Prop} [Decidable current] (h : Finished current s) :
    Sound (if (¬current ∧ s.ready = false) ∨ s.queuedIdentity ≠ [] then
      { s with deferred := true } else s) := by
  split_ifs with hagain
  · exact Between.deferred ⟨h.stat, h.generation, h.path, h.timer⟩ rfl
  · obtain ⟨hready, hqueued⟩ := not_or.mp hagain
    have hnil : s.queuedIdentity = [] := not_not.mp hqueued
    refine h.toBetween.settled hnil fun hwanted => h.settled hwanted hnil ?_
    by_contra hneither
    obtain ⟨hcurrent, hfalse⟩ := not_or.mp hneither
    exact hready ⟨hcurrent, Bool.eq_false_iff.mpr hfalse⟩

/-- Without a palette for the selected image there is an error. -/
theorem Between.failed (h : Between s) {current : Prop} {error : Text} (herror : error ≠ []) :
    Finished current { s with
      activeIdentity := [], activeStamp := [], ready := false, busy := false, error := error } :=
  ⟨⟨h.stat, h.generation, nofun, h.timer⟩, fun _ _ _ => .inl ⟨rfl, .inr herror, nofun⟩⟩

/-- The palette of another image is only kept. -/
theorem Between.stale (h : Between s) {current : Prop} (hcurrent : ¬current)
    {cache : List (Entry P)} {generated : List (Text × P)}
    (hgenerated : ∀ item ∈ s.generated, item ∈ generated)
    (hsettled : s.Wanted → s.Settled ∨ s.queuedIdentity ≠ [] ∨ s.deferred = true ∨
      s.ready = false) :
    Finished current { s with
      activeIdentity := [], activeStamp := [], cache := cache, generated := generated } := by
  refine ⟨⟨h.stat, h.generation, fun hready => ?_, h.timer⟩, fun hwanted hnil hready => ?_⟩
  · obtain ⟨palette, hvariants, hfrom⟩ := h.path hready
    refine ⟨palette, hvariants, ?_⟩
    rcases hfrom with hentry | ⟨hnone, hmem⟩
    · exact .inl hentry
    · exact .inr ⟨hnone, hgenerated _ hmem⟩
  · rcases hsettled hwanted with hdone | hqueued | hdeferred | hfalse
    · exact .inl hdone
    · exact absurd hnil hqueued
    · exact .inr hdeferred
    · cases hfalse.symm.trans (hready.resolve_left hcurrent)

/-- The palette of the selected image is shown. -/
theorem Between.shows (h : Between s) {current : Prop} {palette : P}
    {cache : List (Entry P)} {generated : List (Text × P)}
    (hmem : (s.wallpaperIdentity, palette) ∈ generated) :
    Finished current (Palettes.usePalette { s with
      activeIdentity := [], activeStamp := [], cache := cache, generated := generated }
      s.wallpaperIdentity palette none) := by
  unfold Palettes.usePalette
  rw [if_pos ⟨wallpaperIdentity_ne_nil s, rfl⟩]
  exact ⟨⟨h.stat, h.generation, fun _ => ⟨palette, rfl, .inr ⟨rfl, hmem⟩⟩, fun _ => .inl rfl⟩,
    fun _ _ _ => .inl ⟨rfl, .inl rfl, fun _ => nofun⟩⟩

theorem Between.finishGeneration (h : Between s) {exitCode : ℤ} {output : Option P} {writes : Bool}
    (hsettled : s.Wanted → s.Settled ∨ s.queuedIdentity ≠ [] ∨ s.deferred = true ∨
      s.ready = false) :
    Sound (s.finishGeneration exitCode output writes) := by
  have hkept (palette : P) : ∀ item ∈ s.generated,
      item ∈ s.generated ++ [(s.activeIdentity, palette)] :=
    fun _ hmem => List.mem_append_left _ hmem
  unfold Palettes.finishGeneration
  refine Finished.sound ?_
  by_cases hcurrent : resultIsCurrent s.activeIdentity s.wallpaperIdentity ∧
      s.mode = ascii "wallpaper"
  · have hidentity : s.activeIdentity = s.wallpaperIdentity := hcurrent.1.2
    simp only [if_pos hcurrent]
    by_cases hexit : exitCode = 0
    · simp only [if_pos hexit]
      cases output with
      | none => exact h.failed (by decide)
      | some palette =>
          dsimp only
          rw [hidentity]
          exact h.shows (List.mem_append_right _ List.mem_cons_self)
    · simp only [if_neg hexit]
      exact h.failed (generationError_ne_nil exitCode)
  · simp only [if_neg hcurrent]
    by_cases hexit : exitCode = 0
    · simp only [if_pos hexit]
      cases output with
      | none => exact h.stale hcurrent (fun _ hmem => hmem) hsettled
      | some palette => exact h.stale hcurrent (hkept palette) hsettled
    · simp only [if_neg hexit]
      exact h.stale hcurrent (fun _ hmem => hmem) hsettled

theorem Sound.generationEnds (h : Sound s) (hgeneration : s.generation = true) {exitCode : ℤ}
    {output : Option P} {writes : Bool} : Sound (s.generationEnds exitCode output writes) := by
  have hactive := h.stages.active (.inr hgeneration)
  have hstat : s.stat = false := by
    refine Bool.eq_false_iff.mpr fun hstat => ?_
    cases hgeneration.symm.trans (h.stages.apart hstat)
  unfold Palettes.generationEnds
  dsimp only
  rw [if_pos ⟨hgeneration, hactive⟩]
  have hbetween : Between { s with generation := false } := ⟨hstat, rfl, h.path, h.timer⟩
  refine hbetween.finishGeneration fun hwanted => ?_
  rcases h.settled hwanted with hdone | hqueued | hdeferred | hother | hready
  · exact .inl hdone
  · exact .inr (.inl hqueued)
  · exact .inr (.inr (.inl hdeferred))
  · cases hstat.symm.trans hother
  · exact .inr (.inr (.inr hready.2))

/-! ### Runs -/

theorem Sound.step (h : Sound s) {event : PaletteEvent P} (hfit : Unreselected s event) :
    Sound (s.step event) := by
  cases event with
  | wallChanges wall =>
      refine h.selects hfit fun hsame => ⟨rfl, ?_⟩
      exact (List.cons.inj (List.append_cancel_left hsame)).2
  | dirChanges dir =>
      refine h.selects hfit fun hsame => ⟨?_, rfl⟩
      exact List.append_cancel_right hsame
  | modeChanges mode =>
      unfold Palettes.step
      dsimp only
      split_ifs
      · exact h
      · exact Stages.requestCurrent ⟨h.stages.active, h.stages.apart, h.stages.fresh⟩
  | cacheLoads entries =>
      exact Stages.requestCurrent ⟨h.stages.active, h.stages.apart, h.stages.fresh⟩
  | timerFires =>
      unfold Palettes.step
      dsimp only
      split_ifs with htimer
      · exact h.startQueued htimer
      · exact h
  | statEnds output =>
      unfold Palettes.step
      dsimp only
      split_ifs with hstat
      · exact h.statEnds hstat
      · exact h
  | generationEnds exitCode output writes =>
      unfold Palettes.step
      dsimp only
      split_ifs with hgeneration
      · exact h.generationEnds hgeneration
      · exact h
  | runsDeferred =>
      unfold Palettes.step
      dsimp only
      split_ifs
      · exact Stages.requestCurrent ⟨h.stages.active, h.stages.apart, h.stages.fresh⟩
      · exact h

theorem sound_completed (dir wall mode : Text) (cache : List (Entry P)) :
    Sound (completed dir wall mode cache) :=
  Stages.requestCurrent (stages_of_none rfl rfl)

/-- In every run in which no image is selected again while its stat is running,
the palette belongs to the wallpaper. -/
theorem unreselected_runs_belong {dir wall mode : Text} {cache : List (Entry P)}
    {events : List (PaletteEvent P)}
    (hrun : EachStep Palettes.step Unreselected (completed dir wall mode cache) events) :
    ∀ s ∈ states Palettes.step (completed dir wall mode cache) events, Belongs s := by
  have hstep (s : Palettes P) (event : PaletteEvent P) (h : Sound s)
      (hfit : Unreselected s event) : Sound (s.step event) := h.step hfit
  have hall : ∀ s ∈ states Palettes.step (completed dir wall mode cache) events, Sound s :=
    hrun.states hstep (sound_completed dir wall mode cache)
  exact fun s hs => (hall s hs).belongs

end

/-! ### A selection during the stat -/

/-- The image `a`, with a cached palette. -/
def cachedImage : List (Entry ℕ) := [⟨ascii "/w/a", ascii "1 1", 0⟩]

/-- Another image is selected while the stat of the first one is running, and
then the first one again. -/
def selectedAgain : List (PaletteEvent ℕ) :=
  [.timerFires, .wallChanges (ascii "b"), .wallChanges (ascii "a"), .timerFires,
    .statEnds (ascii "1 1")]

/-- The stat from before is taken for the new selection, whose own is dropped. -/
theorem selectedAgain_unconfirmed :
    ¬ ∀ (dir wall mode : Text) (cache : List (Entry ℕ)) (events : List (PaletteEvent ℕ)),
      ∀ s ∈ states Palettes.step (completed dir wall mode cache) events, Belongs s := by
  intro h
  have hlast := h (ascii "/w") (ascii "a") (ascii "wallpaper") cachedImage selectedAgain _
    (foldl_mem_states _ _)
  obtain ⟨-, -, hconfirmed⟩ := hlast.settled (by decide +kernel) (by decide +kernel)
  have hstamps : (selectedAgain.foldl Palettes.step
      (completed (ascii "/w") (ascii "a") (ascii "wallpaper") cachedImage)).stamps = [] := by
    decide +kernel
  have hentry := hconfirmed (by decide +kernel) ⟨ascii "/w/a", ascii "1 1", 0⟩ (by decide +kernel)
  rw [hstamps] at hentry
  exact absurd hentry List.not_mem_nil

/-- Another image is selected after the stat, and then the first one again. -/
def selectedAfter : List (PaletteEvent ℕ) :=
  [.timerFires, .statEnds (ascii "1 1"), .wallChanges (ascii "b"), .wallChanges (ascii "a"),
    .timerFires, .statEnds (ascii "1 1")]

theorem unreselected_runs_belong_selectedAfter :
    Belongs (selectedAfter.foldl Palettes.step
      (completed (ascii "/w") (ascii "a") (ascii "wallpaper") cachedImage)) :=
  unreselected_runs_belong (by decide +kernel) _ (foldl_mem_states _ _)

end Wallpaper

end CybexOS
