/-
Night light and the idle inhibitor follow their settings, unless a setting is on
again when the process that it had stopped exits.
-/
import CybexOS.Runs
import CybexOS.Shell.SysInfo

namespace CybexOS

namespace Shell

/-! ### Night light -/

namespace NightLight

variable {s : NightLight}

/-- No timer is running and no process is ending. -/
def Quiet (s : NightLight) : Prop :=
  s.confirm = false ∧ s.retry = false ∧ s.warmthRestart = false ∧ s.proc.ending = false

/-- The process runs if the light is on, with the current warmth, and is shown so. -/
structure Follows (s : NightLight) : Prop where
  running : s.proc.running = s.nightLight
  warmth : ∀ warmth ∈ s.proc.run, warmth = s.warmth
  effective : s.effective = s.proc.running
  pending : s.pending = false

/-- A run that was not asked to exit is confirmed or will be, and has the current
warmth or will be restarted. -/
structure Serving (s : NightLight) (warmth : ℤ) : Prop where
  proc : s.proc = ⟨some warmth, false, false⟩
  current : warmth = s.warmth ∨ s.warmthRestart = true
  confirmed : s.confirm = true ∨ s.effective = true ∧ s.pending = false

/-- What holds of the process whatever the setting. -/
inductive Loose (s : NightLight) : Prop
  | idle (hproc : s.proc = .idle)
  | serving (warmth : ℤ) (h : s.Serving warmth)
  | ending (warmth : ℤ) (hproc : s.proc = ⟨some warmth, true, false⟩)

/-- The light is off, or it waits for another try, or its process runs or ends. -/
inductive Standing (s : NightLight) : Prop
  | off (hproc : s.proc = .idle) (hlight : s.nightLight = false) (heffective : s.effective = false)
      (hpending : s.pending = false)
  | failed (hproc : s.proc = .idle) (hlight : s.nightLight = true) (hretry : s.retry = true)
  | serving (warmth : ℤ) (h : s.Serving warmth) (hlight : s.nightLight = true)
  | ending (warmth : ℤ) (hproc : s.proc = ⟨some warmth, true, false⟩)

theorem Standing.loose (h : s.Standing) : s.Loose := by
  rcases h with ⟨hproc, -, -, -⟩ | ⟨hproc, -, -⟩ | ⟨warmth, h, -⟩ | ⟨warmth, hproc⟩
  · exact .idle hproc
  · exact .idle hproc
  · exact .serving warmth h
  · exact .ending warmth hproc

theorem Standing.follows (h : s.Standing) (hquiet : s.Quiet) : s.Follows := by
  obtain ⟨hconfirm, hretry, hwarmth, hending⟩ := hquiet
  rcases h with ⟨hproc, hlight, heffective, hpending⟩ | ⟨-, -, htrue⟩ | ⟨warmth, h, hlight⟩ |
    ⟨warmth, hproc⟩
  · refine ⟨?_, ?_, ?_, hpending⟩
    · rw [hproc, hlight]
      rfl
    · rw [hproc]
      nofun
    · rw [hproc, heffective]
      rfl
  · exact absurd (hretry.symm.trans htrue) (by decide)
  · obtain ⟨heffective, hpending⟩ :=
      h.confirmed.resolve_left fun htrue => absurd (hconfirm.symm.trans htrue) (by decide)
    have hcurrent :=
      h.current.resolve_right fun htrue => absurd (hwarmth.symm.trans htrue) (by decide)
    refine ⟨?_, fun held hheld => ?_, ?_, hpending⟩
    · rw [h.proc, hlight]
      rfl
    · rw [h.proc] at hheld
      exact (Option.mem_some_iff.mp hheld).symm.trans hcurrent
    · rw [h.proc, heffective]
      rfl
  · rw [hproc] at hending
    cases hending

theorem standing_startSunset (hproc : s.proc = .idle) (hlight : s.nightLight = true) :
    s.startSunset.Standing := by
  refine .serving s.warmth ⟨?_, .inl rfl, .inl rfl⟩ hlight
  unfold startSunset
  rw [hproc]
  rfl

/-- Whatever was asked for before, the process gets to the setting. -/
theorem Loose.sync (h : s.Loose) : s.syncNightLight.Standing := by
  unfold syncNightLight
  rcases h with hproc | ⟨warmth, h⟩ | ⟨warmth, hproc⟩
  · have hrunning : ¬s.proc.running = true := by rw [hproc]; decide
    rw [if_neg hrunning, if_neg hrunning]
    split_ifs with hlight
    · exact standing_startSunset hproc hlight
    · exact .off hproc (eq_false_of_ne_true hlight) rfl rfl
  · have hrunning : s.proc.running = true := by rw [h.proc]; rfl
    rw [if_pos hrunning, if_pos hrunning]
    split_ifs with hlight
    · exact .serving warmth ⟨h.proc, h.current, h.confirmed⟩ hlight
    · exact .ending warmth (by rw [h.proc]; rfl)
  · have hrunning : s.proc.running = true := by rw [hproc]; rfl
    rw [if_pos hrunning, if_pos hrunning]
    split_ifs
    · exact .ending warmth hproc
    · exact .ending warmth (by rw [hproc]; rfl)

/-- The setting and the retry timer are not of the process. -/
theorem Loose.agree (h : s.Loose) (nightLight retry : Bool) :
    Loose { s with nightLight := nightLight, retry := retry } := by
  rcases h with hproc | ⟨warmth, h⟩ | ⟨warmth, hproc⟩
  · exact .idle hproc
  · exact .serving warmth ⟨h.proc, h.current, h.confirmed⟩
  · exact .ending warmth hproc

theorem Loose.setNightLight (h : s.Loose) (value : Bool) : (s.setNightLight value).Loose := by
  unfold NightLight.setNightLight
  split_ifs
  · exact h
  · exact (h.agree value s.retry).sync.loose

theorem Standing.setNightLight (h : s.Standing) (value : Bool) :
    (s.setNightLight value).Standing := by
  unfold NightLight.setNightLight
  split_ifs
  · exact h
  · exact (h.loose.agree value s.retry).sync

theorem Standing.setWarmth (h : s.Standing) (value : ℤ) : (s.setWarmth value).Standing := by
  unfold NightLight.setWarmth
  split_ifs
  · exact h
  · rcases h with ⟨hproc, hlight, heffective, hpending⟩ | ⟨hproc, hlight, hretry⟩ | ⟨warmth, h, hlight⟩ |
      ⟨warmth, hproc⟩
    · exact .off hproc hlight heffective hpending
    · exact .failed hproc hlight hretry
    · exact .serving warmth ⟨h.proc, .inr rfl, h.confirmed⟩ hlight
    · exact .ending warmth hproc

/-- The process that the setting had stopped does not exit with the setting on. -/
def ExitFit (s : NightLight) : Prop := ¬(s.lifecycle = .stopping ∧ s.nightLight = true)

theorem Standing.exit (h : s.Standing) (hfit : s.ExitFit) (status : Option ℤ) :
    (s.exit status).Standing := by
  have hexited (hrunning : s.proc.running ≠ false) : s.proc.exited = .idle := by
    rcases h with ⟨hproc, -, -, -⟩ | ⟨hproc, -, -⟩ | ⟨warmth, h, -⟩ | ⟨warmth, hproc⟩
    · rw [hproc]
      rfl
    · rw [hproc]
      rfl
    · rw [h.proc]
      rfl
    · rw [hproc]
      rfl
  unfold NightLight.exit
  dsimp only
  split_ifs with hrunning hrestarting hstopping
  · exact h
  · exact standing_startSunset (hexited hrunning) hrestarting.2
  · have hlight : s.nightLight = false := by
      rcases hstopping with hstopping | hlight
      · exact eq_false_of_ne_true fun hlight => hfit ⟨hstopping, hlight⟩
      · exact hlight
    exact .off (hexited hrunning) hlight rfl rfl
  · have hlight : s.nightLight = true := by
      by_contra hlight
      exact hstopping (.inr (eq_false_of_ne_true hlight))
    exact .failed (hexited hrunning) hlight rfl

theorem Standing.confirm (h : s.Standing) : s.confirmed.Standing := by
  unfold confirmed
  rcases h with ⟨hproc, hlight, heffective, hpending⟩ | ⟨hproc, hlight, hretry⟩ | ⟨warmth, h, hlight⟩ |
    ⟨warmth, hproc⟩
  · have hrunning : s.proc.running = false := by rw [hproc]; rfl
    rw [if_pos (.inl hrunning)]
    exact .off hproc hlight heffective hpending
  · have hrunning : s.proc.running = false := by rw [hproc]; rfl
    rw [if_pos (.inl hrunning)]
    exact .failed hproc hlight hretry
  · have hrunning : s.proc.running = true := by rw [h.proc]; rfl
    rw [if_neg (by simp [hrunning, hlight])]
    exact .serving warmth ⟨h.proc, h.current, .inr ⟨rfl, rfl⟩⟩ hlight
  · split_ifs
    · exact .ending warmth hproc
    · exact .ending warmth hproc

theorem Standing.retry (h : s.Standing) : s.retried.Standing := by
  unfold retried
  split_ifs with hlight
  · exact (h.loose.agree s.nightLight false).sync
  · rcases h with ⟨hproc, hlight, heffective, hpending⟩ | ⟨-, htrue, -⟩ | ⟨-, -, htrue⟩ |
      ⟨warmth, hproc⟩
    · exact .off hproc hlight heffective hpending
    · exact absurd htrue hlight
    · exact absurd htrue hlight
    · exact .ending warmth hproc

/-- The process of an old warmth is asked to exit; without one, one is started. -/
theorem Standing.warm (h : s.Standing) : s.warmed.Standing := by
  unfold warmed
  rcases h with ⟨hproc, hlight, heffective, hpending⟩ | ⟨hproc, hlight, hretry⟩ |
    ⟨warmth, h, hlight⟩ | ⟨warmth, hproc⟩
  · rw [if_neg (by simp [hlight]), if_neg (by simp [hlight])]
    exact .off hproc hlight heffective hpending
  · have hrunning : ¬s.proc.running = true := by rw [hproc]; decide
    rw [if_neg fun hboth => hrunning hboth.2, if_pos hlight]
    have hloose : Loose { s with warmthRestart := false } := .idle hproc
    exact hloose.sync
  · have hrunning : s.proc.running = true := by rw [h.proc]; rfl
    rw [if_pos ⟨hlight, hrunning⟩]
    exact .ending warmth (by rw [h.proc]; rfl)
  · have hrunning : s.proc.running = true := by rw [hproc]; rfl
    split_ifs with hboth hlight
    · exact .ending warmth (by rw [hproc]; rfl)
    · exact absurd ⟨hlight, hrunning⟩ hboth
    · exact .ending warmth hproc

end NightLight

/-! ### The idle inhibitor -/

namespace IdleInhibit

variable {s : IdleInhibit}

/-- No timer is running and no process is ending. -/
def Quiet (s : IdleInhibit) : Prop :=
  s.confirm = false ∧ s.retry = false ∧ s.proc.ending = false

/-- The process runs if idle is inhibited, and is shown so. -/
structure Follows (s : IdleInhibit) : Prop where
  running : s.proc.running = s.inhibited
  effective : s.effective = s.proc.running
  pending : s.pending = false

/-- A run that was not asked to exit is confirmed or will be. -/
structure Serving (s : IdleInhibit) : Prop where
  proc : s.proc = ⟨some (), false, false⟩
  confirmed : s.confirm = true ∨ s.effective = true ∧ s.pending = false

/-- What holds of the process whatever the mode. -/
inductive Loose (s : IdleInhibit) : Prop
  | idle (hproc : s.proc = .idle)
  | serving (h : s.Serving)
  | ending (hproc : s.proc = ⟨some (), true, false⟩)

/-- Idle is not inhibited, or it waits for another try, or the process runs or ends. -/
inductive Standing (s : IdleInhibit) : Prop
  | off (hproc : s.proc = .idle) (hmode : s.inhibited = false) (heffective : s.effective = false)
      (hpending : s.pending = false)
  | failed (hproc : s.proc = .idle) (hmode : s.inhibited = true) (hretry : s.retry = true)
  | serving (h : s.Serving) (hmode : s.inhibited = true)
  | ending (hproc : s.proc = ⟨some (), true, false⟩)

theorem Standing.loose (h : s.Standing) : s.Loose := by
  rcases h with ⟨hproc, -, -, -⟩ | ⟨hproc, -, -⟩ | ⟨h, -⟩ | hproc
  · exact .idle hproc
  · exact .idle hproc
  · exact .serving h
  · exact .ending hproc

theorem Standing.follows (h : s.Standing) (hquiet : s.Quiet) : s.Follows := by
  obtain ⟨hconfirm, hretry, hending⟩ := hquiet
  rcases h with ⟨hproc, hmode, heffective, hpending⟩ | ⟨-, -, htrue⟩ | ⟨h, hmode⟩ | hproc
  · refine ⟨?_, ?_, hpending⟩
    · rw [hproc, hmode]
      rfl
    · rw [hproc, heffective]
      rfl
  · exact absurd (hretry.symm.trans htrue) (by decide)
  · obtain ⟨heffective, hpending⟩ :=
      h.confirmed.resolve_left fun htrue => absurd (hconfirm.symm.trans htrue) (by decide)
    refine ⟨?_, ?_, hpending⟩
    · rw [h.proc, hmode]
      rfl
    · rw [h.proc, heffective]
      rfl
  · rw [hproc] at hending
    cases hending

/-- Whatever was asked for before, the process gets to the mode. -/
theorem Loose.sync (h : s.Loose) : s.syncIdleInhibit.Standing := by
  unfold syncIdleInhibit
  rcases h with hproc | h | hproc
  · have hrunning : ¬s.proc.running = true := by rw [hproc]; decide
    rw [if_neg hrunning, if_neg hrunning]
    split_ifs with hmode
    · exact .serving ⟨by rw [hproc]; rfl, .inl rfl⟩ hmode
    · exact .off hproc (eq_false_of_ne_true hmode) rfl rfl
  · have hrunning : s.proc.running = true := by rw [h.proc]; rfl
    rw [if_pos hrunning, if_pos hrunning]
    split_ifs with hmode
    · exact .serving ⟨h.proc, h.confirmed⟩ hmode
    · exact .ending (by rw [h.proc]; rfl)
  · have hrunning : s.proc.running = true := by rw [hproc]; rfl
    rw [if_pos hrunning, if_pos hrunning]
    split_ifs
    · exact .ending hproc
    · exact .ending (by rw [hproc]; rfl)

/-- The settings, the clock and the battery are not of the process. -/
theorem Loose.agree {t : IdleInhibit} (h : s.Loose) (hproc : t.proc = s.proc)
    (hconfirm : t.confirm = s.confirm) (heffective : t.effective = s.effective)
    (hpending : t.pending = s.pending) : t.Loose := by
  rcases h with hidle | h | hending
  · exact .idle (hproc.trans hidle)
  · refine .serving ⟨hproc.trans h.proc, ?_⟩
    rw [hconfirm, heffective, hpending]
    exact h.confirmed
  · exact .ending (hproc.trans hending)

theorem Loose.changeMode (h : s.Loose) (mode : IdleMode) : (s.changeMode mode).Loose := by
  unfold IdleInhibit.changeMode
  split_ifs
  · exact h
  · have hloose : Loose { s with mode := mode } := h.agree rfl rfl rfl rfl
    exact hloose.sync.loose

theorem Loose.enterMode (h : s.Loose) (mode : IdleMode) (now : ℤ) :
    (s.enterMode mode now).Standing := by
  have huntil {t : IdleInhibit} (ht : t.Loose) (untilMs : ℤ) : (t.setUntil untilMs).Loose :=
    ht.agree rfl rfl rfl rfl
  have hclock {t : IdleInhibit} (ht : t.Loose) : (t.setClock now).Loose :=
    ht.agree rfl rfl rfl rfl
  unfold IdleInhibit.enterMode
  refine (hclock ?_).sync
  split_ifs
  · exact huntil ((huntil h _).changeMode mode) _
  · exact huntil (h.changeMode mode) _
  · exact (huntil h _).changeMode mode
  · exact h.changeMode mode

theorem Loose.setIdleInhibitMode (h : s.Loose) (mode : Option IdleMode) (now : ℤ) :
    (s.setIdleInhibitMode mode now).Standing := by
  unfold IdleInhibit.setIdleInhibitMode
  dsimp only
  split_ifs
  · exact (h.enterMode _ now).loose.enterMode _ now
  · exact h.enterMode _ now

theorem Standing.changeMode (h : s.Standing) (mode : IdleMode) : (s.changeMode mode).Standing := by
  unfold IdleInhibit.changeMode
  split_ifs
  · exact h
  · have hloose : Loose { s with mode := mode } := h.loose.agree rfl rfl rfl rfl
    exact hloose.sync

/-- The deadline, the clock and the battery are not of the process and the mode. -/
theorem Standing.agree {t : IdleInhibit} (h : s.Standing) (hproc : t.proc = s.proc)
    (hmode : t.mode = s.mode) (hconfirm : t.confirm = s.confirm) (hretry : t.retry = s.retry)
    (heffective : t.effective = s.effective) (hpending : t.pending = s.pending) : t.Standing := by
  have hinhibited : t.inhibited = s.inhibited := by
    unfold inhibited
    rw [hmode]
  rcases h with ⟨hidle, hoff, hnot, hno⟩ | ⟨hidle, hon, htrue⟩ | ⟨h, hon⟩ | hending
  · exact .off (hproc.trans hidle) (hinhibited.trans hoff) (heffective.trans hnot)
      (hpending.trans hno)
  · exact .failed (hproc.trans hidle) (hinhibited.trans hon) (hretry.trans htrue)
  · refine .serving ⟨hproc.trans h.proc, ?_⟩ (hinhibited.trans hon)
    rw [hconfirm, heffective, hpending]
    exact h.confirmed
  · exact .ending (hproc.trans hending)

theorem Standing.tick (h : s.Standing) (now : ℤ) : (s.tick now).Standing := by
  have hclock : (s.setClock now).Standing := h.agree rfl rfl rfl rfl rfl rfl
  unfold IdleInhibit.tick
  split_ifs
  · exact h
  · exact hclock.loose.setIdleInhibitMode none now
  · exact hclock

theorem Standing.setBattery (h : s.Standing) (isLaptop pluggedIn : Bool) (now : ℤ) :
    (s.setBattery isLaptop pluggedIn now).Standing := by
  have hset : Standing { s with isLaptop := isLaptop, pluggedIn := pluggedIn } :=
    h.agree rfl rfl rfl rfl rfl rfl
  unfold IdleInhibit.setBattery
  dsimp only
  split_ifs
  · exact hset.loose.setIdleInhibitMode none now
  · exact hset

/-- The process that the mode had stopped does not exit with idle inhibited. -/
def ExitFit (s : IdleInhibit) : Prop := ¬(s.expectedStop = true ∧ s.inhibited = true)

theorem Standing.exit (h : s.Standing) (hfit : s.ExitFit) (status : Option ℤ) :
    (s.exit status).Standing := by
  have hexited (hrunning : s.proc.running ≠ false) : s.proc.exited = .idle := by
    rcases h with ⟨hproc, -, -, -⟩ | ⟨hproc, -, -⟩ | ⟨h, -⟩ | hproc
    · rw [hproc]
      rfl
    · rw [hproc]
      rfl
    · rw [h.proc]
      rfl
    · rw [hproc]
      rfl
  unfold IdleInhibit.exit
  dsimp only
  split_ifs with hrunning hexpected
  · exact h
  · have hmode : s.inhibited = false := by
      rcases hexpected with hexpected | hmode
      · exact eq_false_of_ne_true fun hmode => hfit ⟨hexpected, hmode⟩
      · exact hmode
    exact .off (hexited hrunning) hmode rfl rfl
  · have hmode : s.inhibited = true := by
      by_contra hmode
      exact hexpected (.inr (eq_false_of_ne_true hmode))
    exact .failed (hexited hrunning) hmode rfl

theorem Standing.confirm (h : s.Standing) : s.confirmed.Standing := by
  unfold confirmed
  rcases h with ⟨hproc, hmode, heffective, hpending⟩ | ⟨hproc, hmode, hretry⟩ | ⟨h, hmode⟩ | hproc
  · have hrunning : s.proc.running = false := by rw [hproc]; rfl
    rw [if_pos (.inl hrunning)]
    exact .off hproc hmode heffective hpending
  · have hrunning : s.proc.running = false := by rw [hproc]; rfl
    rw [if_pos (.inl hrunning)]
    exact .failed hproc hmode hretry
  · have hrunning : s.proc.running = true := by rw [h.proc]; rfl
    rw [if_neg (by simp [hrunning, hmode])]
    exact .serving ⟨h.proc, .inr ⟨rfl, rfl⟩⟩ hmode
  · split_ifs
    · exact .ending hproc
    · exact .ending hproc

theorem Standing.retry (h : s.Standing) : s.retried.Standing := by
  unfold retried
  have hloose : Loose { s with retry := false } := h.loose.agree rfl rfl rfl rfl
  split_ifs with hmode
  · exact hloose.sync
  · rcases h with ⟨hproc, hoff, heffective, hpending⟩ | ⟨-, htrue, -⟩ | ⟨-, htrue⟩ | hproc
    · exact .off hproc hoff heffective hpending
    · exact absurd htrue hmode
    · exact absurd htrue hmode
    · exact .ending hproc

end IdleInhibit

/-! ### Runs -/

namespace SysInfo

/-- When all is quiet both features follow their settings. -/
structure Follows (s : SysInfo) : Prop where
  night : s.night.Quiet → s.night.Follows
  idle : s.idle.Quiet → s.idle.Follows

/-- A process that a setting had stopped does not exit when the setting is on again. -/
def Fit (s : SysInfo) : Move → Prop
  | .sunsetExited _ => s.night.ExitFit
  | .inhibitExited _ => s.idle.ExitFit
  | _ => True

structure Sound (s : SysInfo) : Prop where
  night : s.night.Standing
  idle : s.idle.Standing

theorem Sound.follows {s : SysInfo} (h : s.Sound) : s.Follows :=
  ⟨h.night.follows, h.idle.follows⟩

theorem Sound.step {s : SysInfo} (h : s.Sound) {move : Move} (hfit : s.Fit move) :
    (s.step move).Sound := by
  obtain ⟨hnight, hidle⟩ := h
  cases move with
  | setNightLight value => exact ⟨hnight.setNightLight value, hidle⟩
  | setWarmth value => exact ⟨hnight.setWarmth value, hidle⟩
  | sunsetExited status => exact ⟨hnight.exit hfit status, hidle⟩
  | nightLightConfirm =>
      unfold SysInfo.step
      dsimp only
      split_ifs
      · exact ⟨hnight.confirm, hidle⟩
      · exact ⟨hnight, hidle⟩
  | nightLightRetry =>
      unfold SysInfo.step
      dsimp only
      split_ifs
      · exact ⟨hnight.retry, hidle⟩
      · exact ⟨hnight, hidle⟩
  | warmthRestart =>
      unfold SysInfo.step
      dsimp only
      split_ifs
      · exact ⟨hnight.warm, hidle⟩
      · exact ⟨hnight, hidle⟩
  | setIdleInhibitMode mode now => exact ⟨hnight, hidle.loose.setIdleInhibitMode mode now⟩
  | settingsChanged mode untilMs =>
      have huntil : (s.idle.setUntil untilMs).Standing := hidle.agree rfl rfl rfl rfl rfl rfl
      exact ⟨hnight, huntil.changeMode mode⟩
  | battery isLaptop pluggedIn now => exact ⟨hnight, hidle.setBattery isLaptop pluggedIn now⟩
  | countdown now => exact ⟨hnight, hidle.tick now⟩
  | inhibitExited status => exact ⟨hnight, hidle.exit hfit status⟩
  | idleInhibitConfirm =>
      unfold SysInfo.step
      dsimp only
      split_ifs
      · exact ⟨hnight, hidle.confirm⟩
      · exact ⟨hnight, hidle⟩
  | idleInhibitRetry =>
      unfold SysInfo.step
      dsimp only
      split_ifs
      · exact ⟨hnight, hidle.retry⟩
      · exact ⟨hnight, hidle⟩

/-- The state after start-up. -/
def opened (nightLight : Bool) (warmth : ℤ) (warmthRestart : Bool) (mode : IdleMode) (untilMs : ℤ)
    (isLaptop pluggedIn : Bool) (policies : Option (Policy × Policy)) (now : ℤ) : SysInfo :=
  SysInfo.applyStartupPolicies ⟨.initial nightLight warmth warmthRestart,
    .initial mode untilMs isLaptop pluggedIn⟩ policies now

theorem sound_opened (nightLight : Bool) (warmth : ℤ) (warmthRestart : Bool) (mode : IdleMode)
    (untilMs : ℤ) (isLaptop pluggedIn : Bool) (policies : Option (Policy × Policy)) (now : ℤ) :
    (opened nightLight warmth warmthRestart mode untilMs isLaptop pluggedIn policies now).Sound := by
  have hnight : (NightLight.initial nightLight warmth warmthRestart).Loose := .idle rfl
  have hidle : (IdleInhibit.initial mode untilMs isLaptop pluggedIn).Loose := .idle rfl
  have hclock {s : IdleInhibit} (h : s.Loose) : (s.setClock now).Loose :=
    h.agree rfl rfl rfl rfl
  have hexpired {s : IdleInhibit} (h : s.Loose) : IdleInhibit.Loose (
      if (s.mode = .minutes30 ∨ s.mode = .hour) ∧ s.untilMs ≤ now then
        s.setIdleInhibitMode none now
      else if s.mode = .unplugged ∧ s.onBattery then s.setIdleInhibitMode none now
      else s) := by
    split_ifs
    · exact (h.setIdleInhibitMode none now).loose
    · exact (h.setIdleInhibitMode none now).loose
    · exact h
  unfold opened applyStartupPolicies
  rcases policies with _ | ⟨night, idle⟩
  · exact ⟨hnight.sync, (hexpired (hclock hidle)).sync⟩
  · constructor
    · cases night with
      | remember => exact hnight.sync
      | off => exact (hnight.setNightLight false).sync
      | on => exact (hnight.setNightLight true).sync
    · cases idle with
      | remember => exact (hexpired (hclock hidle)).sync
      | off =>
          exact (hexpired (hclock (hidle.setIdleInhibitMode (some .off) now).loose)).sync
      | on =>
          exact (hexpired (hclock (hidle.setIdleInhibitMode (some .always) now).loose)).sync

/-- In every fit run both features follow their settings when all is quiet. -/
theorem fit_settings_followed {nightLight warmthRestart isLaptop pluggedIn : Bool}
    {warmth untilMs now : ℤ} {mode : IdleMode} {policies : Option (Policy × Policy)}
    {moves : List Move}
    (hrun : EachStep step Fit (opened nightLight warmth warmthRestart mode untilMs isLaptop
      pluggedIn policies now) moves) :
    ∀ s ∈ states step (opened nightLight warmth warmthRestart mode untilMs isLaptop pluggedIn
      policies now) moves, s.Follows := by
  have hstep (s : SysInfo) (move : Move) (h : s.Sound) (hfit : s.Fit move) :
      (s.step move).Sound := h.step hfit
  exact fun s hs => (hrun.states hstep (sound_opened ..) s hs).follows

/-! ### Off and on before the exit -/

/-- With night light on, and its process running. -/
def lit : SysInfo := opened true 4000 false .off 0 false true none 0

def offAndOn : List Move :=
  [.nightLightConfirm, .setNightLight false, .setNightLight true, .sunsetExited (some 15)]

/-- Night light is on, and nothing will start its process. -/
theorem offAndOn_dark :
    ¬ ∀ (nightLight warmthRestart isLaptop pluggedIn : Bool) (warmth untilMs now : ℤ)
      (mode : IdleMode) (policies : Option (Policy × Policy)) (moves : List Move),
      ∀ s ∈ states step (opened nightLight warmth warmthRestart mode untilMs isLaptop pluggedIn
        policies now) moves, s.Follows := by
  intro h
  have hfollows := h true false false true 4000 0 0 .off none offAndOn _ (foldl_mem_states _ _)
  have hquiet : (offAndOn.foldl step lit).night.Quiet := by
    unfold NightLight.Quiet
    decide
  exact absurd (hfollows.night hquiet).running (by decide)

/-- On again after the exit, and warmer. -/
def offThenOn : List Move :=
  [.nightLightConfirm, .setNightLight false, .sunsetExited (some 15), .setNightLight true,
    .nightLightConfirm, .setWarmth 3000, .warmthRestart, .sunsetExited (some 15), .nightLightConfirm]

theorem fit_settings_followed_offThenOn : (offThenOn.foldl step lit).Follows := by
  have hrun : EachStep step Fit lit offThenOn :=
    ⟨trivial, trivial, fun h => absurd h.2 (by decide), trivial, trivial, trivial, trivial,
      fun h => absurd h.1 (by decide), trivial, trivial⟩
  exact fit_settings_followed hrun _ (foldl_mem_states _ _)

example : (offThenOn.foldl step lit).night.proc = ⟨some 3000, false, false⟩ := by
  decide

end SysInfo

end Shell

end CybexOS
