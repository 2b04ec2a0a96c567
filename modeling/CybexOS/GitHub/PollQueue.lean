/-
The queue of `GitHub.qml`: what starting, asking for and dropping jobs leaves
of the reads of a poll.
-/
import CybexOS.GitHub.Poll

namespace CybexOS

namespace GitHub

namespace Poll

variable {f g : Feed} {job : Queued} {slug : Text}

/-- A read that a poll waits for. -/
def Job.isPoll : Job → Bool
  | .repos => true
  | .watch _ => true
  | _ => false

/-- The reads of a poll among some jobs. -/
def pollsOf (jobs : List Queued) : List Job := (jobs.map Queued.job).filter Job.isPoll

/-- The reads of a poll that are still out, in the order they will end. -/
def Feed.polls (f : Feed) : List Job := pollsOf (f.active.toList ++ f.queue)

/-- Reads of a poll run in the background, and wait only while the module is
on. -/
structure Feed.Quiet (f : Feed) : Prop where
  queue : ∀ job ∈ f.queue, job.job.isPoll = true → job.interactive = false ∧ f.enabled = true
  active : ∀ job ∈ f.active.toList, job.job.isPoll = true → job.interactive = false

/-- Nothing but jobs of no poll moved. -/
structure Kept (f g : Feed) : Prop where
  same : g = { f with queue := g.queue, active := g.active, running := g.running }
  polls : g.polls = f.polls
  quiet : g.Quiet

/-! ### Keys -/

theorem jobKey_poll {job other : Job} (hjob : job.isPoll = true) (h : jobKey job = jobKey other) :
    other = job := by
  have htake := congrArg (List.take 2) h
  cases job with
  | repos =>
      cases other with
      | repos => rfl
      | inbox kind slug sweep generation => cases kind <;> cases htake
      | _ => cases htake
  | watch slug =>
      cases other with
      | watch other =>
          have hslug : slug = other := List.append_cancel_left h
          rw [hslug]
      | inbox kind slug sweep generation => cases kind <;> cases htake
      | _ => cases htake
  | _ => cases hjob

theorem sameKey_poll {other : Queued} (hjob : job.job.isPoll = true)
    (h : sameKey job other = true) : other.job = job.job :=
  jobKey_poll hjob (beq_iff_eq.mp h)

/-! ### Reads of a poll in a list of jobs -/

theorem pollsOf_append (first second : List Queued) :
    pollsOf (first ++ second) = pollsOf first ++ pollsOf second := by
  rw [pollsOf, List.map_append, List.filter_append]
  rfl

theorem pollsOf_cons (job : Queued) (jobs : List Queued) :
    pollsOf (job :: jobs) = (if job.job.isPoll then [job.job] else []) ++ pollsOf jobs := by
  rw [pollsOf, List.map_cons]
  cases hjob : job.job.isPoll with
  | true => exact List.filter_cons_of_pos hjob
  | false => exact List.filter_cons_of_neg (by simp [hjob])

theorem pollsOf_eq_nil {jobs : List Queued} :
    pollsOf jobs = [] ↔ ∀ job ∈ jobs, job.job.isPoll = false := by
  rw [pollsOf, List.filter_eq_nil_iff]
  constructor
  · intro h job hjob
    simpa using h job.job (List.mem_map_of_mem hjob)
  · intro h other hother
    obtain ⟨job, hjob, rfl⟩ := List.mem_map.mp hother
    simp [h job hjob]

theorem mem_pollsOf {jobs : List Queued} {job : Job} (hjob : job.isPoll = true) :
    job ∈ pollsOf jobs ↔ ∃ queued ∈ jobs, queued.job = job := by
  rw [pollsOf, List.mem_filter, List.mem_map]
  exact ⟨fun h => h.1, fun h => ⟨h, hjob⟩⟩

theorem pollsOf_filter {jobs : List Queued} {p : Queued → Bool}
    (h : ∀ job ∈ jobs, job.job.isPoll = true → p job = true) :
    pollsOf (jobs.filter p) = pollsOf jobs := by
  induction jobs with
  | nil => rfl
  | cons job jobs ih =>
      have hrest := ih fun other hother => h other (List.mem_cons_of_mem _ hother)
      by_cases hjob : p job = true
      · rw [List.filter_cons_of_pos hjob, pollsOf_cons, pollsOf_cons, hrest]
      · rw [List.filter_cons_of_neg hjob, pollsOf_cons, hrest, if_neg, List.nil_append]
        exact fun hpoll => hjob (h job List.mem_cons_self hpoll)

theorem pollsOf_intoLane (hjob : job.job.isPoll = false) (queue : List Queued) :
    pollsOf (intoLane job queue) = pollsOf queue := by
  rw [intoLane, pollsOf_append, pollsOf_cons, hjob, if_neg Bool.false_ne_true, List.nil_append,
    ← pollsOf_append, List.takeWhile_append_dropWhile]

theorem pollsOf_eraseIdx {queue : List Queued} {at' : ℕ} {queued : Queued}
    (hget : queue[at']? = some queued) (hqueued : queued.job.isPoll = false) :
    pollsOf (queue.eraseIdx at') = pollsOf queue := by
  induction queue generalizing at' with
  | nil => cases hget
  | cons first queue ih =>
      cases at' with
      | zero =>
          obtain rfl := Option.some.inj hget
          rw [List.eraseIdx_cons_zero, pollsOf_cons, hqueued, if_neg Bool.false_ne_true,
            List.nil_append]
      | succ at' => rw [List.eraseIdx_cons_succ, pollsOf_cons, pollsOf_cons, ih hget]

theorem mem_intoLane {queue : List Queued} {other : Queued} :
    other ∈ intoLane job queue ↔ other = job ∨ other ∈ queue := by
  have hparts : other ∈ queue ↔
      other ∈ queue.takeWhile (·.interactive) ∨ other ∈ queue.dropWhile (·.interactive) := by
    conv_lhs => rw [← List.takeWhile_append_dropWhile (p := fun job : Queued => job.interactive)
      (l := queue), List.mem_append]
  rw [intoLane, List.mem_append, List.mem_cons, hparts]
  tauto

/-- To ask again for a job that no poll waits for moves no read of a poll. -/
theorem promote_keeps (hjob : job.job.isPoll = false) (queue : List Queued) :
    pollsOf (promote job queue) = pollsOf queue ∧
      ∀ other ∈ promote job queue, other.job.isPoll = true → other ∈ queue := by
  cases hget : queue[queue.findIdx (sameKey job)]? with
  | none =>
      have hpromote : promote job queue = queue := by
        simp only [promote, hget]
      rw [hpromote]
      exact ⟨rfl, fun other hother _ => hother⟩
  | some queued =>
      have hkey : sameKey job queued = true := by
        obtain ⟨hlt, hqueued⟩ := List.getElem?_eq_some_iff.mp hget
        rw [← hqueued]
        exact List.findIdx_getElem
      have hqueued : queued.job.isPoll = false := by
        refine Bool.eq_false_iff.mpr fun hpoll => ?_
        have hsame := jobKey_poll hpoll (beq_iff_eq.mp hkey).symm
        rw [hsame, hpoll] at hjob
        cases hjob
      simp only [promote, hget]
      split_ifs
      · refine ⟨?_, fun other hother hpoll => ?_⟩
        · have hlane := @pollsOf_intoLane { queued with interactive := true } hqueued
          rw [hlane, pollsOf_eraseIdx hget hqueued]
        · rcases mem_intoLane.mp hother with rfl | herased
          · exact absurd (hqueued.symm.trans hpoll) Bool.false_ne_true
          · exact List.mem_of_mem_eraseIdx herased
      · exact ⟨rfl, fun other hother _ => hother⟩

/-! ### Moves of the queue -/

theorem Kept.refl (h : f.Quiet) : Kept f f := ⟨rfl, rfl, h⟩

theorem Kept.trans {other : Feed} (hfirst : Kept f g) (hsecond : Kept g other) : Kept f other where
  same := by
    rw [hsecond.same, hfirst.same]
  polls := hsecond.polls.trans hfirst.polls
  quiet := hsecond.quiet

theorem kept_pump (h : f.Quiet) : Kept f (pump f) := by
  unfold pump
  split_ifs with hbusy hon
  · exact Kept.refl h
  · rw [Bool.or_eq_true, not_or] at hbusy
    have hactive : f.active = none := by simpa using hbusy.1
    cases hqueue : f.queue with
    | nil => exact ⟨rfl, by simp [Feed.polls, hqueue], fun job hjob => (by cases hjob), h.active⟩
    | cons job rest =>
        have hwait : ∀ other ∈ job :: rest, other.job.isPoll = true →
            other.interactive = false ∧ f.enabled = true :=
          fun other hother => h.queue other (hqueue ▸ hother)
        refine ⟨rfl, by simp [Feed.polls, hactive, hqueue],
          fun other hother => hwait other (List.mem_cons_of_mem _ hother), ?_⟩
        intro other hother hpoll
        obtain rfl := List.mem_singleton.mp hother
        exact (hwait other List.mem_cons_self hpoll).1
  · rw [Bool.or_eq_true, not_or] at hbusy
    have hactive : f.active = none := by simpa using hbusy.1
    have hnone : ∀ job ∈ f.queue, job.job.isPoll = false := fun job hjob =>
      Bool.eq_false_iff.mpr fun hpoll => hon (h.queue job hjob hpoll).2
    have hsub := List.dropWhile_sublist (fun job : Queued => !job.interactive) (l := f.queue)
    have hpolls : f.polls = [] := by
      rw [Feed.polls, hactive]
      exact pollsOf_eq_nil.mpr hnone
    cases hqueue : f.queue.dropWhile fun job => !job.interactive with
    | nil => exact ⟨rfl, by rw [hpolls]; simp [Feed.polls, hactive, pollsOf],
        fun job hjob => (by cases hjob), h.active⟩
    | cons job rest =>
        have hfree : ∀ other ∈ job :: rest, other.job.isPoll = false :=
          fun other hother => hnone other ((hqueue ▸ hsub).subset hother)
        refine ⟨rfl, ?_, fun other hother hpoll => ?_, fun other hother hpoll => ?_⟩
        · rw [hpolls]
          exact pollsOf_eq_nil.mpr hfree
        · exact absurd ((hfree other (List.mem_cons_of_mem _ hother)).symm.trans hpoll)
            Bool.false_ne_true
        · obtain rfl := List.mem_singleton.mp hother
          exact absurd ((hfree other List.mem_cons_self).symm.trans hpoll) Bool.false_ne_true

theorem kept_queue {queue : List Queued} (h : f.Quiet) (hpolls : pollsOf queue = pollsOf f.queue)
    (hmem : ∀ job ∈ queue, job.job.isPoll = true → job ∈ f.queue) :
    Kept f { f with queue := queue } where
  same := rfl
  polls := by rw [Feed.polls, Feed.polls, pollsOf_append, pollsOf_append, hpolls]
  quiet := ⟨fun job hjob hpoll => h.queue job (hmem job hjob hpoll) hpoll, h.active⟩

theorem kept_enqueue (hjob : job.job.isPoll = false) (h : f.Quiet) : Kept f (enqueue job f) := by
  unfold enqueue
  split_ifs with hactive hqueued hlane
  · exact Kept.refl h
  · exact kept_queue h (promote_keeps hjob f.queue).1 (promote_keeps hjob f.queue).2
  · have hkept : Kept f { f with queue := intoLane job f.queue } := by
      refine kept_queue h (pollsOf_intoLane hjob _) fun other hother hpoll => ?_
      rcases mem_intoLane.mp hother with rfl | hmem
      · rw [hjob] at hpoll
        cases hpoll
      · exact hmem
    exact hkept.trans (kept_pump hkept.quiet)
  · have hkept : Kept f { f with queue := f.queue ++ [job] } := by
      refine kept_queue h ?_ fun other hother hpoll => ?_
      · rw [pollsOf_append, pollsOf_cons, hjob]
        simp [pollsOf]
      · rcases List.mem_append.mp hother with hmem | hnew
        · exact hmem
        · rw [List.mem_singleton.mp hnew, hjob] at hpoll
          cases hpoll
    exact hkept.trans (kept_pump hkept.quiet)

theorem kept_exec (move : InboxMove) (h : f.Quiet) : Kept f (move.exec f) := by
  have hfilter : ∀ p : Queued → Bool, (∀ job : Queued, job.job.isPoll = true → p job = true) →
      Kept f { f with queue := f.queue.filter p } := by
    intro p hp
    exact kept_queue h (pollsOf_filter fun job _ => hp job)
      fun job hjob _ => List.mem_of_mem_filter hjob
  cases move with
  | invalidate =>
      refine hfilter _ fun job hpoll => ?_
      cases hjob : job.job <;> simp_all [Job.isPoll, Job.isInbox]
  | fail sweep =>
      refine hfilter _ fun job hpoll => ?_
      cases hjob : job.job <;> simp_all [Job.isPoll, Job.ofSweep]
  | enqueue kind slug sweep generation => exact kept_enqueue rfl h

theorem kept_moves (moves : List InboxMove) (h : f.Quiet) :
    Kept f (moves.foldl InboxMove.exec f) := by
  induction moves generalizing f with
  | nil => exact Kept.refl h
  | cons move moves ih => exact (kept_exec move h).trans (ih (kept_exec move h).quiet)

/-! ### Asking for a read of a poll -/

/-- A read that is still out is not asked for twice. -/
theorem enqueue_out (hjob : job.job.isPoll = true) (hlane : job.interactive = false)
    (hout : job.job ∈ f.polls) : enqueue job f = f := by
  obtain ⟨queued, hmem, hsame⟩ := (mem_pollsOf hjob).mp hout
  have hkey : sameKey job queued = true := by
    rw [sameKey, hsame]
    exact beq_self_eq_true _
  have hpromote : promote job f.queue = f.queue := by
    simp only [promote, hlane, Bool.false_and, Bool.false_eq_true, if_false]
    split
    · rfl
    · rfl
  unfold enqueue
  split_ifs with hactive hqueued
  · rfl
  · rw [hpromote]
  · rcases List.mem_append.mp hmem with hfirst | hrest
    · rw [Option.mem_toList] at hfirst
      rw [hfirst] at hactive
      exact absurd hkey hactive
    · exact absurd (List.any_eq_true.mpr ⟨queued, hrest, hkey⟩) hqueued
  · rcases List.mem_append.mp hmem with hfirst | hrest
    · rw [Option.mem_toList] at hfirst
      rw [hfirst] at hactive
      exact absurd hkey hactive
    · exact absurd (List.any_eq_true.mpr ⟨queued, hrest, hkey⟩) hqueued

/-- A new read is asked for last. -/
theorem enqueue_new (h : f.Quiet) (hon : f.enabled = true) (hjob : job.job.isPoll = true)
    (hlane : job.interactive = false) (hout : job.job ∉ f.polls) :
    enqueue job f = { f with
      queue := (enqueue job f).queue
      active := (enqueue job f).active
      running := (enqueue job f).running } ∧
    (enqueue job f).polls = f.polls ++ [job.job] ∧ (enqueue job f).Quiet := by
  have hkey : ∀ queued ∈ f.active.toList ++ f.queue, ¬sameKey job queued = true :=
    fun queued hmem hsame => hout ((mem_pollsOf hjob).mpr ⟨queued, hmem, sameKey_poll hjob hsame⟩)
  have hactive : ¬f.active.any (sameKey job) = true := by
    cases hcase : f.active with
    | none => simp
    | some queued => exact hkey queued (by simp [hcase])
  have hqueued : ¬f.queue.any (sameKey job) = true := by
    rw [List.any_eq_true]
    rintro ⟨queued, hmem, hsame⟩
    exact hkey queued (List.mem_append_right _ hmem) hsame
  have henqueue : enqueue job f = pump { f with queue := f.queue ++ [job] } := by
    rw [enqueue, if_neg hactive, if_neg hqueued, hlane, if_neg Bool.false_ne_true]
  have hquiet : ({ f with queue := f.queue ++ [job] } : Feed).Quiet := by
    refine ⟨fun other hother hpoll => ?_, h.active⟩
    rcases List.mem_append.mp hother with hmem | hnew
    · exact h.queue other hmem hpoll
    · rw [List.mem_singleton.mp hnew]
      exact ⟨hlane, hon⟩
  have hpump := kept_pump hquiet
  rw [henqueue]
  refine ⟨hpump.same, ?_, hpump.quiet⟩
  rw [hpump.polls, Feed.polls, Feed.polls, ← List.append_assoc, pollsOf_append, pollsOf_cons, hjob]
  simp [pollsOf]

end Poll

end GitHub

end CybexOS
