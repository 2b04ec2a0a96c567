/-
What is settled is the answer to the latest request, where nothing is requested
or cancelled while a stopped fetch is still ending.
-/
import CybexOS.Runs
import CybexOS.Shell.Fetches

namespace CybexOS

namespace Shell

/-! ### The property -/

/-- The runs over were settled if and only if their output was wanted, and no
request waits for a run that there is not. -/
structure Fetch.Faithful {κ : Type} (fetch : Fetch κ) : Prop where
  settled : ∀ past ∈ fetch.ended, past.settled = past.wanted
  idle : fetch.proc.running = false → fetch.awaited = false

structure Calendar.Faithful (s : Calendar) : Prop where
  fetch : s.fetch.Faithful
  idle : s.fetch.proc.running = false → s.loading = false

/-! ### One fetch -/

namespace Fetch

variable {κ : Type} {fetch : Fetch κ}

/-- Nothing runs; or a run of the latest request, which is awaited; or one that
was stopped, which is the only stale one, and after which a run starts if the
latest request is awaited. -/
inductive Standing (fetch : Fetch κ) : Prop
  | idle (hproc : fetch.proc = .idle) (hstale : fetch.staleRuns = 0)
      (hawaited : fetch.awaited = false)
  | serving (given : κ) (hproc : fetch.proc = ⟨some ⟨fetch.requests, given⟩, false, false⟩)
      (hstale : fetch.staleRuns = 0) (hawaited : fetch.awaited = true)
  | ending (run : Run κ) (hproc : fetch.proc = ⟨some run, true, fetch.awaited⟩)
      (hstale : fetch.staleRuns = 1) (hwanted : fetch.awaited = true → run.request ≠ fetch.requests)
      (hknown : run.request ≤ fetch.requests)

structure Sound (fetch : Fetch κ) : Prop where
  standing : fetch.Standing
  ended : ∀ past ∈ fetch.ended, past.settled = past.wanted

theorem sound_opened (arguments : κ) : (opened arguments).Sound := ⟨.idle rfl rfl rfl, nofun⟩

theorem Sound.faithful (h : fetch.Sound) : fetch.Faithful := by
  refine ⟨h.ended, fun hrunning => ?_⟩
  rcases h.standing with ⟨-, -, hawaited⟩ | ⟨given, hproc, -, -⟩ | ⟨run, hproc, -, -, -⟩
  · exact hawaited
  · rw [hproc] at hrunning
    cases hrunning
  · rw [hproc] at hrunning
    cases hrunning

theorem Sound.arguments (h : fetch.Sound) (arguments : κ) :
    ({ fetch with arguments := arguments } : Fetch κ).Sound := by
  refine ⟨?_, h.ended⟩
  rcases h.standing with ⟨hproc, hstale, hawaited⟩ | ⟨given, hproc, hstale, hawaited⟩ |
    ⟨run, hproc, hstale, hwanted, hknown⟩
  · exact .idle hproc hstale hawaited
  · exact .serving given hproc hstale hawaited
  · exact .ending run hproc hstale hwanted hknown

/-- The run of the request starts at once, or after the one that it replaces. -/
theorem Sound.request (h : fetch.Sound) (hending : fetch.proc.ending = false) :
    fetch.requested.stop.start.Sound := by
  refine ⟨?_, h.ended⟩
  rcases h.standing with ⟨hproc, hstale, hawaited⟩ | ⟨given, hproc, hstale, hawaited⟩ |
    ⟨run, hproc, -, -, -⟩
  · refine .serving fetch.arguments ?_ ?_ rfl
    · simp [start, stop, requested, hproc, Proc.idle, Proc.stop, Proc.start]
    · simp [start, stop, requested, hproc, hstale, Proc.idle, Proc.running]
  · refine .ending ⟨fetch.requests, given⟩ ?_ ?_ (fun _ => ?_) ?_
    · simp [start, stop, requested, hproc, Proc.stop, Proc.start, Proc.running]
    · simp [start, stop, requested, hproc, hstale, Proc.running]
    · exact (Nat.lt_succ_self fetch.requests).ne
    · exact Nat.le_succ fetch.requests
  · rw [hproc] at hending
    cases hending

theorem Sound.cancel (h : fetch.Sound) (hending : fetch.proc.ending = false) :
    fetch.stop.cancelled.Sound := by
  refine ⟨?_, h.ended⟩
  rcases h.standing with ⟨hproc, hstale, hawaited⟩ | ⟨given, hproc, hstale, hawaited⟩ |
    ⟨run, hproc, -, -, -⟩
  · refine .idle ?_ ?_ rfl
    · simp [stop, cancelled, hproc, Proc.idle, Proc.stop, Proc.running]
    · simp [stop, cancelled, hproc, hstale, Proc.idle, Proc.running]
  · refine .ending ⟨fetch.requests, given⟩ ?_ ?_ nofun le_rfl
    · simp [stop, cancelled, hproc, Proc.stop, Proc.running]
    · simp [stop, cancelled, hproc, hstale, Proc.running]
  · rw [hproc] at hending
    cases hending

/-- Only the run of the latest request settles, and then nothing is awaited. -/
theorem Sound.exit_awaited (h : fetch.Sound) :
    fetch.exit.awaited = if fetch.settles then false else fetch.awaited := by
  rcases h.standing with ⟨hproc, -, hawaited⟩ | ⟨given, hproc, hstale, hawaited⟩ |
    ⟨run, hproc, hstale, -, -⟩
  · simp [Fetch.exit, hproc, hawaited, Proc.running, Proc.idle]
  · simp [Fetch.exit, settles, wanted, hproc, hstale, hawaited, Proc.running]
  · simp [Fetch.exit, settles, hproc, hstale, Proc.running]

/-- The exit of a run settles the request that is awaited from it, if any. -/
theorem Sound.exit (h : fetch.Sound) : fetch.exit.Sound := by
  rcases h.standing with ⟨hproc, hstale, hawaited⟩ | ⟨given, hproc, hstale, hawaited⟩ |
    ⟨run, hproc, hstale, hwanted, hknown⟩
  · have hexit : fetch.exit = fetch := by
      simp [Fetch.exit, hproc, Proc.running, Proc.idle]
    rw [hexit]
    exact h
  · have hsettles : fetch.settles = true := by simp [settles, hproc, hstale, Proc.running]
    have hwanted : fetch.wanted = true := by simp [wanted, hproc, hawaited]
    refine ⟨.idle ?_ ?_ ?_, ?_⟩
    · simp [Fetch.exit, hproc, Proc.running, Proc.exited, Proc.resume, Proc.idle]
    · simp [Fetch.exit, hproc, hstale, Proc.running]
    · simp [Fetch.exit, hproc, hsettles, hwanted, Proc.running]
    · simpa [Fetch.exit, hproc, hsettles, hwanted, Proc.running, or_imp, forall_and] using h.ended
  · have hsettles : fetch.settles = false := by simp [settles, hstale]
    have hunwanted : fetch.wanted = false := by
      by_cases hawaited : fetch.awaited = true
      · simp [wanted, hproc, hwanted hawaited]
      · simp [wanted, hawaited]
    refine ⟨?_, ?_⟩
    · cases hawaited : fetch.awaited with
      | true =>
          refine .serving fetch.arguments ?_ ?_ ?_
          · simp [Fetch.exit, hproc, hawaited, Proc.running, Proc.exited, Proc.resume]
          · simp [Fetch.exit, hproc, hstale, Proc.running]
          · simp [Fetch.exit, hproc, hawaited, hsettles, Proc.running]
      | false =>
          refine .idle ?_ ?_ ?_
          · simp [Fetch.exit, hproc, hawaited, Proc.running, Proc.exited, Proc.resume, Proc.idle]
          · simp [Fetch.exit, hproc, hstale, Proc.running]
          · simp [Fetch.exit, hproc, hawaited, Proc.running]
    · simpa [Fetch.exit, hproc, hsettles, hunwanted, Proc.running, or_imp, forall_and] using h.ended

end Fetch

/-! ### The three services -/

namespace Calendar

/-- No request, cancellation or timeout comes while a stopped run is ending. -/
def Fit (s : Calendar) : Move → Prop
  | .exit => True
  | _ => s.fetch.proc.ending = false

/-- The calendar is loading as long as a request is awaited. -/
structure Sound (s : Calendar) : Prop where
  fetch : s.fetch.Sound
  loading : s.loading = s.fetch.awaited

theorem Sound.faithful {s : Calendar} (h : s.Sound) : s.Faithful :=
  ⟨h.fetch.faithful, fun hidle => h.loading.trans (h.fetch.faithful.idle hidle)⟩

theorem Sound.startRange {s : Calendar} (h : s.Sound) (hending : s.fetch.proc.ending = false)
    (startMs endMs : ℤ) : (s.startRange startMs endMs).Sound := by
  unfold Calendar.startRange
  dsimp only
  split_ifs
  · exact h
  · exact h
  · exact ⟨(h.fetch.arguments _).request hending, rfl⟩

theorem Sound.step {s : Calendar} (h : s.Sound) {move : Move} (hfit : s.Fit move) :
    (s.step move).Sound := by
  cases move with
  | startRange startMs endMs => exact h.startRange hfit startMs endMs
  | setEnabled value startMs endMs =>
      unfold Calendar.step
      dsimp only
      split_ifs
      · exact h
      · have hset : ({ s with enabled := value } : Calendar).Sound := ⟨h.fetch, h.loading⟩
        unfold onEnabledChanged
        split_ifs
        · exact hset.startRange hfit startMs endMs
        · exact ⟨h.fetch.cancel hfit, rfl⟩
  | timedOut =>
      unfold Calendar.step
      dsimp only
      split_ifs with hloading
      · unfold abandonFetch
        split_ifs with hrunning
        · exact ⟨h.fetch.cancel hfit, rfl⟩
        · have hidle := h.fetch.faithful.idle (eq_false_of_ne_true hrunning)
          rw [h.loading, hidle] at hloading
          cases hloading
      · exact h
  | exit =>
      refine ⟨h.fetch.exit, ?_⟩
      change (if s.fetch.settles then false else s.loading) = s.fetch.exit.awaited
      rw [h.loading, h.fetch.exit_awaited]

theorem sound_opened (enabled : Bool) : (opened enabled).Sound := ⟨Fetch.sound_opened _, rfl⟩

end Calendar

namespace Weather

/-- No request or cancellation comes while a stopped run is ending. -/
def Fit (s : Weather) : Move → Prop
  | .refresh _ | .clearLocation => s.fetch.proc.ending = false
  | _ => True

theorem sound_step {s : Weather} (h : s.fetch.Sound) {move : Move} (hfit : s.Fit move) :
    (s.step move).fetch.Sound := by
  cases move with
  | setUrl url => exact h.arguments url
  | refresh replaceRunning =>
      unfold Weather.step Weather.refresh
      dsimp only
      split_ifs
      · exact h
      · exact h.request hfit
  | clearLocation => exact h.cancel hfit
  | exit => exact h.exit

end Weather

namespace Tailscale

/-- No request comes while a stopped run is ending. -/
def Fit (fetch : Fetch Unit) : Move → Prop
  | .refresh => fetch.proc.ending = false
  | .exit => True

theorem sound_step {fetch : Fetch Unit} (h : fetch.Sound) {move : Move} (hfit : Fit fetch move) :
    (step fetch move).Sound := by
  cases move with
  | refresh => exact h.request hfit
  | exit => exact h.exit

end Tailscale

/-- In every fit run of a service the runs of the latest requests are settled,
and no others. -/
theorem fit_fetches_faithful (enabled : Bool) (ranges : List Calendar.Move)
    (hranges : EachStep Calendar.step Calendar.Fit (.opened enabled) ranges)
    (url : Text) (updates : List Weather.Move)
    (hupdates : EachStep Weather.step Weather.Fit (.opened url) updates)
    (refreshes : List Tailscale.Move)
    (hrefreshes : EachStep Tailscale.step Tailscale.Fit Tailscale.opened refreshes) :
    (∀ s ∈ states Calendar.step (.opened enabled) ranges, s.Faithful) ∧
    (∀ s ∈ states Weather.step (.opened url) updates, s.fetch.Faithful) ∧
    (∀ fetch ∈ states Tailscale.step Tailscale.opened refreshes, fetch.Faithful) := by
  refine ⟨fun s hs => ?_, fun s hs => ?_, fun fetch hfetch => ?_⟩
  · have hstep (s : Calendar) (move : Calendar.Move) (h : s.Sound) (hfit : s.Fit move) :
        (s.step move).Sound := h.step hfit
    exact (hranges.states hstep (Calendar.sound_opened enabled) s hs).faithful
  · have hstep (s : Weather) (move : Weather.Move) (h : s.fetch.Sound) (hfit : s.Fit move) :
        (s.step move).fetch.Sound := Weather.sound_step h hfit
    have hopened : (Weather.opened url).fetch.Sound := Fetch.sound_opened url
    exact (hupdates.states hstep hopened s hs).faithful
  · have hstep (fetch : Fetch Unit) (move : Tailscale.Move) (h : fetch.Sound)
        (hfit : Tailscale.Fit fetch move) : (Tailscale.step fetch move).Sound :=
      Tailscale.sound_step h hfit
    exact (hrefreshes.states hstep (Fetch.sound_opened ()) fetch hfetch).faithful

/-! ### Two requests before one exit -/

/-- The old process ends after two more requests, and then the run for the last one. -/
def twoReplacements : List Tailscale.Move := [.refresh, .refresh, .refresh, .exit, .exit]

/-- The run for the last request is taken for a stale one. -/
theorem twoReplacements_swallowed :
    ¬ ((∀ enabled moves, ∀ s ∈ states Calendar.step (.opened enabled) moves, s.Faithful) ∧
      (∀ url moves, ∀ s ∈ states Weather.step (.opened url) moves, s.fetch.Faithful) ∧
      (∀ moves, ∀ fetch ∈ states Tailscale.step Tailscale.opened moves, fetch.Faithful)) := by
  intro h
  have hfaithful := h.2.2 twoReplacements _ (foldl_mem_states _ _)
  exact absurd (hfaithful.idle (by decide)) (by decide)

def replaced : List Calendar.Move :=
  [.startRange 0 86400000, .exit, .startRange 0 2000, .startRange 1000 3000, .exit, .exit]

theorem fit_fetches_faithful_replaced :
    (replaced.foldl Calendar.step (.opened true)).Faithful := by
  have hrun : EachStep Calendar.step Calendar.Fit (.opened true) replaced :=
    ⟨rfl, trivial, rfl, rfl, trivial, trivial, trivial⟩
  exact (fit_fetches_faithful true replaced hrun [] [] trivial [] trivial).1 _
    (foldl_mem_states _ _)

/-- The first and the last run are settled. -/
example : (replaced.foldl Calendar.step (.opened true)).fetch.ended =
    [⟨true, true⟩, ⟨false, false⟩, ⟨true, true⟩] := by
  decide

end Shell

end CybexOS
