/-
Which publications of a poll are complete: all but those of a watch read that
ends after its poll was given up.
-/
import CybexOS.GitHub.PollQueue
import CybexOS.Runs

namespace CybexOS

namespace GitHub

namespace Poll

open Json (JsValue)

variable {f g : Feed}

/-! ### The books of a poll -/

/-- What a poll keeps books about, and the reads that are out. -/
structure Book where
  behind : Bool
  pendingWatch : ℕ
  progress : Progress
  own : List Repo
  polls : List Job

def Feed.book (f : Feed) : Book where
  behind := f.behind
  pendingWatch := f.pendingWatch
  progress := f.progress
  own := f.ownRepos
  polls := f.polls

/-- Watches are out, and behind them at most the list of repositories. Once a
poll was given up one of its watches will never be answered; until then the
counter counts those that are out. -/
structure Book.Reading (b : Book) (slugs : List Text) (rest : List Job) : Prop where
  polls : b.polls = slugs.map Job.watch ++ rest
  rest : rest = [] ∨ rest = [.repos]
  nodup : slugs.Nodup
  uncounted : b.behind = true → b.pendingWatch = 0
  lost : b.behind = true → b.progress.response = none ∨
    ∃ slug ∈ b.progress.missing, slug ∉ b.progress.answered ∧ slug ∉ slugs
  response : b.behind = false → b.progress.response = some b.own
  counted : b.behind = false → b.pendingWatch = slugs.length ∨
    b.pendingWatch = 0 ∧ slugs.length ≤ 1
  covered : b.behind = false → slugs ≠ [] →
    ∀ slug ∈ b.progress.missing, slug ∈ b.progress.answered ∨ slug ∈ slugs
  wanted : b.behind = false →
    ∀ slug ∈ slugs, slug ∈ b.progress.missing ∧ slug ∉ b.progress.answered

def Book.Sound (b : Book) : Prop := ∃ slugs rest, b.Reading slugs rest

namespace Book.Reading

variable {b : Book} {slugs : List Text} {rest : List Job}

/-- The list of repositories is read when no watch is out. -/
theorem of_repos {tail : List Job} (h : b.Reading slugs rest) (hpolls : b.polls = .repos :: tail) :
    slugs = [] ∧ tail = [] := by
  have heq := h.polls.symm.trans hpolls
  cases slugs with
  | nil =>
      rcases h.rest with rfl | rfl
      · cases heq
      · exact ⟨rfl, (List.cons.inj heq).2.symm⟩
  | cons slug slugs => exact absurd (List.cons.inj heq).1 (by simp)

theorem of_watch {slug : Text} {tail : List Job} (h : b.Reading slugs rest)
    (hpolls : b.polls = .watch slug :: tail) :
    ∃ others, slugs = slug :: others ∧ tail = others.map Job.watch ++ rest := by
  have heq := h.polls.symm.trans hpolls
  cases slugs with
  | nil =>
      rcases h.rest with rfl | rfl
      · cases heq
      · exact absurd (List.cons.inj heq).1 (by simp)
  | cons first others =>
      obtain ⟨hfirst, htail⟩ := List.cons.inj heq
      obtain rfl := Job.watch.inj hfirst
      exact ⟨others, rfl, htail.symm⟩

/-- Watches are dropped, and no more is counted on. -/
theorem dropped {kept : List Text} {dropping : Bool} (h : b.Reading slugs rest)
    (hsub : kept.Sublist slugs) (hlength : kept.length ≤ 1)
    (hdropping : dropping = true → ∃ slug ∈ slugs, slug ∉ kept)
    (hkept : dropping = false → kept ≠ [] → kept = slugs) {rest' : List Job}
    (hrest : rest' = [] ∨ rest' = [.repos]) :
    Book.Reading { b with
      behind := b.behind || dropping
      pendingWatch := 0
      polls := kept.map Job.watch ++ rest' } kept rest' where
  polls := rfl
  rest := hrest
  nodup := h.nodup.sublist hsub
  uncounted := fun _ => rfl
  lost := by
    intro hbehind
    cases hcase : b.behind with
    | true =>
        refine (h.lost hcase).imp_right fun hlost => ?_
        obtain ⟨slug, hmissing, hanswered, hout⟩ := hlost
        exact ⟨slug, hmissing, hanswered, fun hmem => hout (hsub.subset hmem)⟩
    | false =>
        simp only [hcase, Bool.false_or] at hbehind
        obtain ⟨slug, hslug, hout⟩ := hdropping hbehind
        obtain ⟨hmissing, hanswered⟩ := h.wanted hcase slug hslug
        exact Or.inr ⟨slug, hmissing, hanswered, hout⟩
  response := fun hbehind => h.response (Bool.or_eq_false_iff.mp hbehind).1
  counted := fun _ => Or.inr ⟨rfl, hlength⟩
  covered := by
    intro hbehind hne
    obtain ⟨hcase, hdrop⟩ := Bool.or_eq_false_iff.mp hbehind
    have hsame := hkept hdrop hne
    rw [hsame] at hne ⊢
    exact h.covered hcase hne
  wanted := fun hbehind slug hslug =>
    h.wanted (Bool.or_eq_false_iff.mp hbehind).1 slug (hsub.subset hslug)

/-- A refresh begins: nothing is known of the poll yet. -/
theorem refreshed (h : b.Reading slugs rest) (own : List Repo) :
    Book.Reading ⟨true, 0, ⟨none, [], []⟩, own, slugs.map Job.watch ++ [.repos]⟩ slugs [.repos] where
  polls := rfl
  rest := Or.inr rfl
  nodup := h.nodup
  uncounted := fun _ => rfl
  lost := fun _ => Or.inl rfl
  response := fun hbehind => by cases hbehind
  counted := fun hbehind => by cases hbehind
  covered := fun hbehind => by cases hbehind
  wanted := fun hbehind => by cases hbehind

/-- A watch of the poll is answered. -/
theorem answered {slug : Text} (h : b.Reading (slug :: slugs) rest) :
    Book.Reading { b with
      pendingWatch := b.pendingWatch - 1
      progress := { b.progress with answered := slug :: b.progress.answered }
      polls := slugs.map Job.watch ++ rest } slugs rest := by
  obtain ⟨hnew, hnodup⟩ := List.nodup_cons.mp h.nodup
  refine ⟨rfl, h.rest, hnodup, fun hbehind => ?_, fun hbehind => ?_, h.response, fun hbehind => ?_,
    fun hbehind hne other hother => ?_, fun hbehind other hother => ?_⟩
  · rw [h.uncounted hbehind]
  · refine (h.lost hbehind).imp_right fun hlost => ?_
    obtain ⟨other, hmissing, hanswered, hout⟩ := hlost
    rw [List.mem_cons, not_or] at hout
    exact ⟨other, hmissing, by simp [hout.1, hanswered], hout.2⟩
  · rcases h.counted hbehind with hcount | ⟨hzero, hle⟩
    · exact Or.inl (by rw [hcount, List.length_cons, Nat.add_sub_cancel])
    · rw [List.length_cons] at hle
      exact Or.inr ⟨by rw [hzero], by omega⟩
  · rcases h.covered hbehind (List.cons_ne_nil _ _) other hother with hold | hout
    · exact Or.inl (List.mem_cons_of_mem _ hold)
    · rcases List.mem_cons.mp hout with rfl | hrest
      · exact Or.inl List.mem_cons_self
      · exact Or.inr hrest
  · obtain ⟨hmissing, hanswered⟩ := h.wanted hbehind other (List.mem_cons_of_mem _ hother)
    refine ⟨hmissing, fun hmem => ?_⟩
    rcases List.mem_cons.mp hmem with rfl | hold
    · exact hnew hother
    · exact hanswered hold

/-- The last counted watch completes the poll, unless the poll was given up. -/
theorem complete_iff {slug : Text} (h : b.Reading (slug :: slugs) rest)
    (hlast : b.pendingWatch - 1 = 0) (own extra : List Repo) (watch : List Text)
    (hown : own = b.own) :
    Publication.Complete ⟨own, extra, watch,
      { b.progress with answered := slug :: b.progress.answered }⟩ ↔ b.behind = false := by
  subst hown
  cases hbehind : b.behind with
  | true =>
      refine iff_of_false ?_ (by simp)
      rintro ⟨hresponse, hall⟩
      rcases h.lost hbehind with hnone | ⟨other, hmissing, hanswered, hout⟩
      · simp only [hnone] at hresponse
        cases hresponse
      · rcases List.mem_cons.mp (hall other hmissing) with rfl | hold
        · exact hout List.mem_cons_self
        · exact hanswered hold
  | false =>
      refine iff_of_true ⟨h.response hbehind, fun other hother => ?_⟩ rfl
      have hnil : slugs = [] := by
        refine List.eq_nil_of_length_eq_zero ?_
        rcases h.counted hbehind with hcount | ⟨-, hle⟩
        · rw [List.length_cons] at hcount
          omega
        · rw [List.length_cons] at hle
          omega
      rcases h.covered hbehind (List.cons_ne_nil _ _) other hother with hold | hout
      · exact List.mem_cons_of_mem _ hold
      · rw [hnil] at hout
        exact List.mem_cons.mpr (Or.inl (List.mem_singleton.mp hout))

end Book.Reading

/-- A response came, and the watches that it left missing are asked for. -/
theorem Book.reading_fanned {slugs : List Text} (hnodup : slugs.Nodup) (own : List Repo) :
    Book.Reading ⟨false, slugs.length, ⟨some own, slugs, []⟩, own, slugs.map Job.watch⟩
      slugs [] where
  polls := (List.append_nil _).symm
  rest := Or.inl rfl
  nodup := hnodup
  uncounted := fun hbehind => by cases hbehind
  lost := fun hbehind => by cases hbehind
  response := fun _ => rfl
  counted := fun _ => Or.inl rfl
  covered := fun _ _ _ hslug => Or.inr hslug
  wanted := fun _ slug hslug => ⟨hslug, List.not_mem_nil⟩

/-! ### The books while the queue moves -/

structure Feed.Sound (f : Feed) : Prop where
  quiet : f.Quiet
  watches : (f.watch.map lowered).Nodup
  book : f.book.Sound

/-- The books and the settings are as before. -/
structure Carried (f g : Feed) : Prop where
  book : g.book = f.book
  watch : g.watch = f.watch
  enabled : g.enabled = f.enabled
  quiet : g.Quiet

theorem Kept.carried (h : Kept f g) : Carried f g where
  book := by
    have hsame := h.same
    have hpolls := h.polls
    rw [hsame] at hpolls ⊢
    simp only [Feed.book]
    exact congrArg _ hpolls
  watch := by rw [h.same]
  enabled := by rw [h.same]
  quiet := h.quiet

theorem Kept.published (h : Kept f g) : g.published = f.published := by rw [h.same]

theorem Kept.lastPush (h : Kept f g) : g.lastPush = f.lastPush := by rw [h.same]

theorem Carried.trans {other : Feed} (hfirst : Carried f g) (hsecond : Carried g other) :
    Carried f other where
  book := hsecond.book.trans hfirst.book
  watch := hsecond.watch.trans hfirst.watch
  enabled := hsecond.enabled.trans hfirst.enabled
  quiet := hsecond.quiet

theorem Carried.sound (h : Carried f g) (hsound : f.Sound) : g.Sound where
  quiet := h.quiet
  watches := h.watch ▸ hsound.watches
  book := h.book ▸ hsound.book

theorem Feed.Quiet.idle (h : f.Quiet) : ({ f with active := none } : Feed).Quiet :=
  ⟨h.queue, fun job hjob => by cases hjob⟩

theorem polls_active {job : Queued} (hactive : f.active = some job) (hjob : job.job.isPoll = true) :
    f.polls = job.job :: pollsOf f.queue := by
  rw [Feed.polls, hactive, Option.toList_some, List.singleton_append, pollsOf_cons, if_pos hjob,
    List.singleton_append]

theorem polls_other {job : Queued} (hactive : f.active = some job)
    (hjob : job.job.isPoll = false) : f.polls = pollsOf f.queue := by
  rw [Feed.polls, hactive, Option.toList_some, List.singleton_append, pollsOf_cons, hjob,
    if_neg Bool.false_ne_true, List.nil_append]

/-- A job of no poll ends. -/
theorem carried_idle {job : Queued} (h : f.Quiet) (hactive : f.active = some job)
    (hjob : job.job.isPoll = false) : Carried f { f with active := none } where
  book := by
    have hpolls : ({ f with active := none } : Feed).polls = f.polls :=
      (polls_other hactive hjob).symm
    simp only [Feed.book]
    exact congrArg _ hpolls
  watch := rfl
  enabled := rfl
  quiet := h.idle

/-! ### Publishing -/

section

variable {localeCompare : Text → Text → Ordering} {now : Text} {answer : Answer}

/-- The baselines of push toasts that a publication leaves. -/
def Publication.baselines (localeCompare : Text → Text → Ordering) (p : Publication) :
    List (Text × Text) :=
  pushBaselines (mergeRepos localeCompare p.own p.extra p.watch)

theorem queuePushToasts_spec (silent : Bool) (h : f.Quiet) :
    Carried f (queuePushToasts silent f) ∧ (queuePushToasts silent f).published = f.published ∧
      (queuePushToasts silent f).lastPush = pushBaselines f.repos := by
  have hkept : Kept f ((f.repos.filter (·.watched)).foldl (fun g row =>
      (announces f silent row).elim g fun previous =>
        enqueue ⟨.commits row.slug true previous, false⟩ g) f) := by
    refine List.foldlRecOn (motive := fun g => Kept f g) _ _ (Kept.refl h) fun g hg row _ => ?_
    cases announces f silent row with
    | none => exact hg
    | some previous => exact hg.trans (kept_enqueue rfl hg.quiet)
  have hcarried := hkept.carried
  exact ⟨⟨hcarried.book, hcarried.watch, hcarried.enabled,
    ⟨hcarried.quiet.queue, hcarried.quiet.active⟩⟩, hkept.published, rfl⟩

theorem publishRepos_spec (h : f.Quiet) :
    Carried f (publishRepos localeCompare now answer f) ∧
      (publishRepos localeCompare now answer f).published =
        ⟨f.ownRepos, f.extraRepos, f.watch, f.progress⟩ :: f.published ∧
      (publishRepos localeCompare now answer f).lastPush = Publication.baselines localeCompare
        ⟨f.ownRepos, f.extraRepos, f.watch, f.progress⟩ := by
  obtain ⟨merged, hmerged⟩ : ∃ merged : Feed, merged = { f with
      repos := mergeRepos localeCompare f.ownRepos f.extraRepos f.watch } := ⟨_, rfl⟩
  have hquiet : merged.Quiet := hmerged ▸ ⟨h.queue, h.active⟩
  have hscope := kept_moves answer.scope hquiet
  obtain ⟨moved, hmoved⟩ : ∃ moved, moved = answer.scope.foldl InboxMove.exec merged :=
    ⟨_, rfl⟩
  rw [← hmoved] at hscope
  obtain ⟨published, hpublished⟩ : ∃ published : Feed, published = { moved with
      watchErrors := moved.nextWatchErrors
      polling := false
      seenAt := if moved.seenAt = [] then now else moved.seenAt
      published := ⟨f.ownRepos, f.extraRepos, f.watch, f.progress⟩ :: moved.published } :=
    ⟨_, rfl⟩
  have hcarried : Carried moved published := hpublished ▸
    ⟨rfl, rfl, rfl, ⟨hscope.quiet.queue, hscope.quiet.active⟩⟩
  obtain ⟨htoasts, hlog, hlast⟩ := queuePushToasts_spec (f.seenAt = []) hcarried.quiet
  have hfirst := kept_moves answer.first htoasts.quiet
  have hresult : publishRepos localeCompare now answer f =
      answer.first.foldl InboxMove.exec (queuePushToasts (f.seenAt = []) published) := by
    rw [hpublished, hmoved, hmerged]
    rfl
  have hstart : Carried f merged := hmerged ▸ ⟨rfl, rfl, rfl, ⟨h.queue, h.active⟩⟩
  rw [hresult]
  refine ⟨hstart.trans (hscope.carried.trans (hcarried.trans (htoasts.trans hfirst.carried))),
    ?_, ?_⟩
  · rw [hfirst.published, hlog, hpublished]
    exact congrArg _ (hscope.published.trans (by rw [hmerged]))
  · have hrepos : moved.repos = merged.repos := by rw [hscope.same]
    rw [hfirst.lastPush, hlast, hpublished]
    refine congrArg pushBaselines (hrepos.trans ?_)
    rw [hmerged]

/-! ### One step -/

/-- What a step adds to the log: nothing, or one publication, whose rows the
baselines are then those of. -/
def Logged (localeCompare : Text → Text → Ordering) (f g : Feed) (fine : Prop) : Prop :=
  (g.published = f.published ∧ g.lastPush = f.lastPush ∧ fine) ∨
    ∃ p, g.published = p :: f.published ∧
      g.lastPush = Publication.baselines localeCompare p ∧ (p.Complete ↔ fine)

theorem Logged.carry {fine : Prop} {other : Feed} (h : Logged localeCompare f g fine)
    (hkept : Kept g other) : Logged localeCompare f other fine := by
  unfold Logged
  rw [hkept.published, hkept.lastPush]
  exact h

theorem Kept.logged {fine : Prop} (h : Kept f g) (hfine : fine) :
    Logged localeCompare f g fine := Or.inl ⟨h.published, h.lastPush, hfine⟩

theorem foldl_enqueue_watch (slugs : List Text) (h : f.Quiet) (hon : f.enabled = true)
    (hnodup : slugs.Nodup) (hout : ∀ slug ∈ slugs, Job.watch slug ∉ f.polls) :
    (slugs.foldl (fun f slug => enqueue ⟨.watch slug, false⟩ f) f).Quiet ∧
      (slugs.foldl (fun f slug => enqueue ⟨.watch slug, false⟩ f) f).polls =
        f.polls ++ slugs.map Job.watch ∧
      ∃ queue active running, slugs.foldl (fun f slug => enqueue ⟨.watch slug, false⟩ f) f =
        { f with queue := queue, active := active, running := running } := by
  induction slugs generalizing f with
  | nil => exact ⟨h, (List.append_nil _).symm, _, _, _, rfl⟩
  | cons slug slugs ih =>
      obtain ⟨hnew, hnodup⟩ := List.nodup_cons.mp hnodup
      obtain ⟨hsame, hpolls, hquiet⟩ := @enqueue_new f ⟨.watch slug, false⟩ h hon rfl rfl
        (hout slug List.mem_cons_self)
      have hon' : (enqueue ⟨.watch slug, false⟩ f).enabled = true := by
        rw [hsame]
        exact hon
      have hout' : ∀ other ∈ slugs, Job.watch other ∉ (enqueue ⟨.watch slug, false⟩ f).polls := by
        intro other hother hmem
        rw [hpolls, List.mem_append, List.mem_singleton] at hmem
        rcases hmem with hold | hsame
        · exact hout other (List.mem_cons_of_mem _ hother) hold
        · exact hnew (Job.watch.inj hsame ▸ hother)
      obtain ⟨hquiet', hpolls', queue, active, running, hresult⟩ := ih hquiet hon' hnodup hout'
      refine ⟨hquiet', ?_, queue, active, running, ?_⟩
      · rw [List.foldl_cons, hpolls', hpolls, List.append_assoc]
        rfl
      · rw [List.foldl_cons, hresult, hsame]

/-- The list of repositories has been read. -/
theorem fanOutWatched_spec {rows : List Repo} (h : f.Quiet) (hon : f.enabled = true)
    (hwatches : (f.watch.map lowered).Nodup) (hpolls : f.polls = []) (hown : f.ownRepos = rows)
    (hresponse : f.progress.response = some rows) :
    (fanOutWatched localeCompare now answer f).Sound ∧
      Logged localeCompare f (fanOutWatched localeCompare now answer f) True := by
  obtain ⟨asked, hasked⟩ : ∃ asked : Feed, asked = { f with
      watchCache := f.watchCache.filter fun item => item.1 ∈ (missingWatches f).map lowered
      pendingWatch := (missingWatches f).length
      progress := { f.progress with missing := missingWatches f, answered := [] }
      behind := false } := ⟨_, rfl⟩
  have hquiet : asked.Quiet := hasked ▸ ⟨h.queue, h.active⟩
  have hnodup : (missingWatches f).Nodup := hwatches.of_map.filter _
  have hnone : asked.polls = [] := hasked ▸ hpolls
  have hbook : ∀ polls, polls = (missingWatches f).map Job.watch →
      Book.Sound { asked.book with polls := polls } := by
    rintro polls rfl
    refine ⟨missingWatches f, [], ?_⟩
    have hreading := Book.reading_fanned hnodup rows
    simp only [hasked, Feed.book, hown, hresponse]
    exact hreading
  have hwatches' : (asked.watch.map lowered).Nodup := hasked ▸ hwatches
  have hon' : asked.enabled = true := hasked ▸ hon
  have hlog : asked.published = f.published ∧ asked.lastPush = f.lastPush := by
    rw [hasked]
    exact ⟨rfl, rfl⟩
  have hresult : fanOutWatched localeCompare now answer f = if missingWatches f = [] then
      publishRepos localeCompare now answer asked
      else (missingWatches f).foldl (fun f slug => enqueue ⟨.watch slug, false⟩ f) asked := by
    rw [hasked]
    rfl
  rw [hresult]
  split_ifs with hmissing
  · obtain ⟨hcarried, hpublished, hlast⟩ :=
      @publishRepos_spec asked localeCompare now answer hquiet
    refine ⟨hcarried.sound ⟨hquiet, hwatches', ?_⟩, Or.inr ⟨_, hpublished.trans ?_, hlast, ?_⟩⟩
    · have hempty := hbook [] (by rw [hmissing]; rfl)
      rw [← hnone] at hempty
      exact hempty
    · rw [hlog.1]
    · refine iff_of_true ⟨?_, ?_⟩ trivial
      · rw [hasked]
        exact hresponse.trans (congrArg some hown.symm)
      · rw [hasked]
        simp [hmissing]
  · have hout : ∀ slug ∈ missingWatches f, Job.watch slug ∉ asked.polls := fun slug _ => by
      simp [hnone]
    obtain ⟨hquiet', hpolls', queue, active, running, hfold⟩ :=
      foldl_enqueue_watch (missingWatches f) hquiet hon' hnodup hout
    rw [hnone, List.nil_append] at hpolls'
    refine ⟨⟨hquiet', ?_, ?_⟩, Or.inl ⟨?_, ?_, trivial⟩⟩
    · rw [hfold]
      exact hwatches'
    · have hfull := hbook _ hpolls'
      rw [hfold] at hfull ⊢
      exact hfull
    · rw [hfold]
      exact hlog.1
    · rw [hfold]
      exact hlog.2

theorem failPoll_sound (h : f.Quiet) (hwatches : (f.watch.map lowered).Nodup)
    {b : Book} (hreading : b.Reading [] []) (hbook : f.book = b) : (failPoll f).Sound := by
  subst hbook
  refine ⟨⟨h.queue, h.active⟩, hwatches, [], [], ?_⟩
  have hdropped := @Book.Reading.dropped f.book [] [] [] false hreading (List.Sublist.refl [])
    (Nat.zero_le 1) (fun hfalse => by cases hfalse) (fun _ _ => rfl) [] (Or.inl rfl)
  rw [Bool.or_false] at hdropped
  have hpolls : f.book.polls = [] := hreading.polls
  have hsame : (failPoll f).book = { f.book with
      behind := f.book.behind, pendingWatch := 0, polls := [].map Job.watch ++ [] } := by
    simp only [Feed.book] at hpolls ⊢
    exact congrArg _ hpolls
  rw [hsame]
  exact hdropped

/-- The list of repositories ends. -/
theorem settleRepos_spec (h : f.Quiet) (hon : f.enabled = true)
    (hwatches : (f.watch.map lowered).Nodup) {b : Book} (hreading : b.Reading [] [])
    (hbook : f.book = b) :
    (settleRepos localeCompare now answer f).Sound ∧
      Logged localeCompare f (settleRepos localeCompare now answer f) True := by
  have hpolls : f.polls = [] := (congrArg Book.polls hbook).trans hreading.polls
  have hfail : (failPoll f).Sound ∧ Logged localeCompare f (failPoll f) True :=
    ⟨failPoll_sound h hwatches hreading hbook, Or.inl ⟨rfl, rfl, trivial⟩⟩
  have hread : ∀ (rows : List Repo) (cache : Option (List Repo)),
      (fanOutWatched localeCompare now answer { f with
        reposCache := cache
        ownRepos := rows
        progress := { f.progress with response := some rows } }).Sound ∧
      Logged localeCompare f (fanOutWatched localeCompare now answer { f with
        reposCache := cache
        ownRepos := rows
        progress := { f.progress with response := some rows } }) True := fun rows cache =>
    fanOutWatched_spec ⟨h.queue, h.active⟩ hon hwatches hpolls rfl rfl
  unfold settleRepos
  cases answer.repos with
  | ok rows etag =>
      cases rows with
      | none => exact hfail
      | some rows => exact hread rows (some rows)
  | notModified =>
      cases hcache : f.reposCache with
      | none => exact hfail
      | some rows => simpa only [hcache] using hread rows f.reposCache
  | failed => exact hfail

/-- A watch ends while the module is on: complete, unless its poll was given
up. -/
theorem settleWatch_spec {slug : Text} {others : List Text} {rest : List Job} {b : Book}
    (h : f.Quiet) (hwatches : (f.watch.map lowered).Nodup)
    (hreading : b.Reading (slug :: others) rest)
    (hbook : f.book = { b with polls := others.map Job.watch ++ rest }) :
    (settleWatch localeCompare now answer slug f).Sound ∧
      Logged localeCompare f (settleWatch localeCompare now answer slug f)
        (f.behind = false) := by
  obtain ⟨told, htold⟩ : ∃ told : Feed, told = { f with
      watchCache := cachedWatch slug answer f
      extraRepos := f.extraRepos ++ (watchRow slug answer f).toList
      nextWatchErrors := patchNextWatchError f.nextWatchErrors slug
        (if (watchRow slug answer f).isSome then [] else answer.errorText)
      pendingWatch := f.pendingWatch - 1
      progress := { f.progress with answered := slug :: f.progress.answered } } := ⟨_, rfl⟩
  have hquiet : told.Quiet := htold ▸ ⟨h.queue, h.active⟩
  have hbehind : f.behind = b.behind := congrArg Book.behind hbook
  have hpending : f.pendingWatch = b.pendingWatch := congrArg Book.pendingWatch hbook
  have hprogress : f.progress = b.progress := congrArg Book.progress hbook
  have hown : f.ownRepos = b.own := congrArg Book.own hbook
  have hpolls : f.polls = others.map Job.watch ++ rest := congrArg Book.polls hbook
  have hsound : told.Sound := by
    refine ⟨hquiet, htold ▸ hwatches, others, rest, ?_⟩
    have hanswered := hreading.answered
    have hsame : told.book = { b with
        pendingWatch := b.pendingWatch - 1
        progress := { b.progress with answered := slug :: b.progress.answered }
        polls := others.map Job.watch ++ rest } := by
      rw [htold]
      simp only [Feed.book, hbehind, hpending, hprogress, hown]
      exact congrArg _ hpolls
    rw [hsame]
    exact hanswered
  have hresult : settleWatch localeCompare now answer slug f =
      if told.pendingWatch = 0 then publishRepos localeCompare now answer told else told := by
    rw [htold]
    rfl
  have hleft : told.pendingWatch = b.pendingWatch - 1 := by rw [htold, ← hpending]
  rw [hresult]
  split_ifs with hlast
  · obtain ⟨hcarried, hpublished, hlastPush⟩ :=
      @publishRepos_spec told localeCompare now answer hquiet
    refine ⟨hcarried.sound hsound, Or.inr ⟨_, hpublished.trans ?_, hlastPush, ?_⟩⟩
    · rw [htold]
    · have hcomplete := hreading.complete_iff (hleft.symm.trans hlast) told.ownRepos
        told.extraRepos told.watch (by rw [htold]; exact hown)
      have hsame : told.progress =
          { b.progress with answered := slug :: b.progress.answered } := by
        rw [htold, ← hprogress]
      rw [hsame, hbehind]
      exact hcomplete
  · refine ⟨hsound, Or.inl ⟨by rw [htold], by rw [htold], ?_⟩⟩
    rw [hbehind]
    refine Bool.eq_false_iff.mpr fun hgiven => hlast ?_
    rw [hleft, hreading.uncounted hgiven]

theorem book_idle {job : Queued} (hactive : f.active = some job)
    (hjob : job.job.isPoll = true) :
    f.book.polls = job.job :: pollsOf f.queue ∧
      ({ f with active := none } : Feed).book = { f.book with polls := pollsOf f.queue } :=
  ⟨polls_active hactive hjob, rfl⟩

/-- An idle process settles what it read. -/
theorem settle_spec (h : f.Sound) :
    (settle localeCompare now answer f).Sound ∧
      Logged localeCompare f (settle localeCompare now answer f)
        (¬∃ job, f.active = some job ∧ job.job.isWatch = true ∧ f.enabled = true ∧
          f.behind = true) := by
  obtain ⟨slugs, rest, hreading⟩ := h.book
  have hpump : ∀ (g : Feed) (fine : Prop), g.Sound ∧ Logged localeCompare f g fine →
      (pump g).Sound ∧ Logged localeCompare f (pump g) fine := by
    rintro g fine ⟨hsound, hlog⟩
    have hkept := kept_pump hsound.quiet
    exact ⟨hkept.carried.sound hsound, hlog.carry hkept⟩
  unfold settle
  cases hactive : f.active with
  | none =>
      refine hpump f _ ⟨h, Or.inl ⟨rfl, rfl, ?_⟩⟩
      rintro ⟨job, hjob, -⟩
      cases hjob
  | some job =>
      have hidle : ({ f with active := none } : Feed).Quiet := h.quiet.idle
      simp only
      split_ifs with hdropped
      · -- the module is off: no read of a poll waits, and none is counted on
        obtain ⟨⟨-, hoff⟩, -⟩ : (job.job.isInbox = false ∧ f.enabled = false) ∧ _ := by
          simpa using hdropped
        refine hpump _ _ ⟨⟨⟨hidle.queue, hidle.active⟩, h.watches, [], [], ?_⟩,
          Or.inl ⟨rfl, rfl, ?_⟩⟩
        · have hnone : pollsOf f.queue = [] := by
            refine pollsOf_eq_nil.mpr fun other hother => Bool.eq_false_iff.mpr fun hpoll => ?_
            rw [(h.quiet.queue other hother hpoll).2] at hoff
            cases hoff
          have hreading' := @Book.Reading.dropped f.book slugs rest [] false hreading
            (List.nil_sublist _) (Nat.zero_le 1) (fun hfalse => by cases hfalse)
            (fun _ hne => absurd rfl hne) [] (Or.inl rfl)
          rw [Bool.or_false] at hreading'
          have hsame : ({ f with active := none, polling := false, pendingWatch := 0 } : Feed).book =
              { f.book with behind := f.book.behind, pendingWatch := 0,
                            polls := [].map Job.watch ++ [] } := by
            simp only [Feed.book]
            exact congrArg _ hnone
          rw [hsame]
          exact hreading'
        · rintro ⟨other, -, -, hon, -⟩
          rw [hoff] at hon
          cases hon
      · -- the job is settled
        have hon : job.job.isPoll = true → f.enabled = true := by
          intro hpoll
          have hlane := h.quiet.active job (by simp [hactive]) hpoll
          cases hjob : job.job <;> simp_all [Job.isPoll, Job.isInbox]
        have hsettled : ∀ g, Kept { f with active := none } g → job.job.isPoll = false →
            g.Sound ∧ Logged localeCompare f g (¬∃ other, some job = some other ∧
              other.job.isWatch = true ∧ f.enabled = true ∧ f.behind = true) := by
          intro g hkept hpoll
          have hcarried := (carried_idle h.quiet hactive hpoll).trans hkept.carried
          refine ⟨hcarried.sound h, Or.inl ⟨hkept.published, hkept.lastPush, ?_⟩⟩
          rintro ⟨other, hother, hwatch, -⟩
          obtain rfl := Option.some.inj hother
          cases hjob : job.job <;> simp_all [Job.isPoll, Job.isWatch]
        refine hpump _ _ ?_
        cases hjob : job.job with
        | login =>
            have hsame := hsettled _ (Kept.refl hidle) (by rw [hjob]; rfl)
            refine ⟨⟨⟨hidle.queue, hidle.active⟩, h.watches, hsame.1.book⟩, ?_⟩
            exact hsame.2
        | repos =>
            obtain ⟨hpolls, hbook⟩ := book_idle hactive (by rw [hjob]; rfl)
            rw [hjob] at hpolls
            obtain ⟨rfl, hqueue⟩ := hreading.of_repos hpolls
            have hreading' : Book.Reading { f.book with polls := pollsOf f.queue } [] [] := by
              rw [hqueue]
              exact ⟨rfl, Or.inl rfl, hreading.nodup, hreading.uncounted, hreading.lost,
                hreading.response, hreading.counted, hreading.covered, hreading.wanted⟩
            obtain ⟨hsound, hlog⟩ := @settleRepos_spec { f with active := none } localeCompare now
              answer hidle (hon (by rw [hjob]; rfl)) h.watches _ hreading' hbook
            refine ⟨hsound, ?_⟩
            have hfine : (¬∃ other, some job = some other ∧ other.job.isWatch = true ∧
                f.enabled = true ∧ f.behind = true) := by
              rintro ⟨other, hother, hwatch, -⟩
              obtain rfl := Option.some.inj hother
              rw [hjob] at hwatch
              cases hwatch
            rw [eq_true hfine]
            exact hlog
        | watch slug =>
            obtain ⟨hpolls, hbook⟩ := book_idle hactive (by rw [hjob]; rfl)
            rw [hjob] at hpolls
            obtain ⟨others, rfl, hqueue⟩ := hreading.of_watch hpolls
            rw [hqueue] at hbook
            obtain ⟨hsound, hlog⟩ := @settleWatch_spec { f with active := none } localeCompare now
              answer slug others rest f.book hidle h.watches hreading hbook
            refine ⟨hsound, ?_⟩
            have hfine : (¬∃ other, some job = some other ∧ other.job.isWatch = true ∧
                f.enabled = true ∧ f.behind = true) = (f.behind = false) := by
              refine propext ⟨fun hnone => Bool.eq_false_iff.mpr fun hbehind => ?_,
                fun hbehind => ?_⟩
              · exact hnone ⟨job, rfl, by rw [hjob]; rfl, hon (by rw [hjob]; rfl), hbehind⟩
              · rintro ⟨other, -, -, -, htrue⟩
                rw [hbehind] at htrue
                cases htrue
            rw [hfine]
            exact hlog
        | commits => exact hsettled _ (Kept.refl hidle) (by rw [hjob]; rfl)
        | stats => exact hsettled _ (Kept.refl hidle) (by rw [hjob]; rfl)
        | inbox => exact hsettled _ (kept_moves _ hidle) (by rw [hjob]; rfl)

theorem refresh_spec (h : f.Sound) :
    (refresh f).Sound ∧ (refresh f).published = f.published ∧
      (refresh f).lastPush = f.lastPush := by
  unfold refresh
  split_ifs with hskip
  · exact ⟨h, rfl, rfl⟩
  obtain ⟨begun, hbegun⟩ : ∃ begun : Feed, begun = { f with
      polling := true
      ownRepos := []
      extraRepos := []
      pendingWatch := 0
      nextWatchErrors := []
      progress := ⟨none, [], []⟩
      behind := true } := ⟨_, rfl⟩
  have hon : f.enabled = true := by
    rw [Bool.or_eq_true, not_or] at hskip
    simpa using hskip.1
  obtain ⟨slugs, rest, hreading⟩ := h.book
  have hquiet : begun.Quiet := hbegun ▸ ⟨h.quiet.queue, h.quiet.active⟩
  obtain ⟨asked, hasked⟩ : ∃ asked, asked =
      if begun.login = [] then enqueue ⟨.login, false⟩ begun else begun := ⟨_, rfl⟩
  have hkept : Kept begun asked := by
    rw [hasked]
    split_ifs
    · exact kept_enqueue rfl hquiet
    · exact Kept.refl hquiet
  have hpolls : asked.polls = slugs.map Job.watch ++ rest :=
    hkept.polls.trans ((congrArg Feed.polls hbegun).trans hreading.polls)
  have hfields : ∀ g : Feed, g = { asked with
      queue := g.queue, active := g.active, running := g.running } →
      g.polls = slugs.map Job.watch ++ [.repos] → g.Quiet →
      g.Sound ∧ g.published = f.published ∧ g.lastPush = f.lastPush := by
    intro g hsame hout hquiet'
    refine ⟨⟨hquiet', ?_, slugs, [.repos], ?_⟩, ?_, ?_⟩
    · rw [hsame, hkept.same, hbegun]
      exact h.watches
    · have hbook : g.book = ⟨true, 0, ⟨none, [], []⟩, [], g.polls⟩ := by
        rw [hsame, hkept.same, hbegun]
        rfl
      rw [hbook, hout]
      exact hreading.refreshed []
    · rw [hsame, hkept.same, hbegun]
    · rw [hsame, hkept.same, hbegun]
  have hresult : enqueue ⟨.repos, false⟩ (if begun.login = [] then
      enqueue ⟨.login, false⟩ begun else begun) = enqueue ⟨.repos, false⟩ asked := by rw [hasked]
  rw [hbegun] at hresult
  rw [hresult]
  rcases hreading.rest with hrest | hrest
  · rw [hrest, List.append_nil] at hpolls
    have hout : Job.repos ∉ asked.polls := by
      rw [hpolls]
      simp
    have henabled : asked.enabled = true := by
      rw [hkept.same, hbegun]
      exact hon
    obtain ⟨hsame, hnew, hquiet'⟩ :=
      @enqueue_new asked ⟨.repos, false⟩ hkept.quiet henabled rfl rfl hout
    exact hfields _ hsame (by rw [hnew, hpolls]) hquiet'
  · rw [hrest] at hpolls
    have hout : Job.repos ∈ asked.polls := by
      rw [hpolls]
      simp
    rw [@enqueue_out asked ⟨.repos, false⟩ rfl rfl hout]
    exact hfields asked rfl hpolls hkept.quiet

/-- When the module is switched off, only the read that runs is left. -/
theorem setEnabled_sound (on : Bool) (h : f.Sound) : (setEnabled on f).Sound := by
  unfold setEnabled
  split_ifs with hsame hon
  · exact h
  · exact ⟨⟨fun job hjob hpoll => ⟨(h.quiet.queue job hjob hpoll).1, rfl⟩, h.quiet.active⟩,
      h.watches, h.book⟩
  obtain ⟨slugs, rest, hreading⟩ := h.book
  have hlane : ∀ job ∈ f.queue.filter (·.interactive), job.job.isPoll = false := by
    intro job hjob
    obtain ⟨hmem, hinteractive⟩ := List.mem_filter.mp hjob
    refine Bool.eq_false_iff.mpr fun hpoll => ?_
    rw [(h.quiet.queue job hmem hpoll).1] at hinteractive
    cases hinteractive
  refine ⟨⟨fun job hjob hpoll => ?_, h.quiet.active⟩, h.watches, ?_⟩
  · rw [hlane job hjob] at hpoll
    cases hpoll
  have hdropped : ∀ (kept : List Text) (rest' : List Job),
      pollsOf f.active.toList = kept.map Job.watch ++ rest' → (rest' = [] ∨ rest' = [.repos]) →
      kept.Sublist slugs → kept.length ≤ 1 → ((f.queue.any (·.job.isWatch)) = true →
        ∃ slug ∈ slugs, slug ∉ kept) →
      ((f.queue.any (·.job.isWatch)) = false → kept ≠ [] → kept = slugs) →
      Book.Sound ⟨f.behind || f.queue.any (·.job.isWatch), 0, f.progress, f.ownRepos,
        pollsOf (f.active.toList ++ f.queue.filter (·.interactive))⟩ := by
    intro kept rest' hpolls hrest hsub hlength hlost hkept
    refine ⟨kept, rest', ?_⟩
    rw [pollsOf_append, pollsOf_eq_nil.mpr hlane, List.append_nil, hpolls]
    exact hreading.dropped hsub hlength hlost hkept hrest
  have hqueued : f.queue.any (·.job.isWatch) = true →
      ∃ slug, Job.watch slug ∈ pollsOf f.queue := by
    intro hany
    obtain ⟨job, hmem, hwatch⟩ := List.any_eq_true.mp hany
    cases hjob : job.job with
    | watch slug => exact ⟨slug, (mem_pollsOf rfl).mpr ⟨job, hmem, hjob⟩⟩
    | _ =>
        rw [hjob] at hwatch
        cases hwatch
  have hnothing : pollsOf f.active.toList = [] →
      Book.Sound ⟨f.behind || f.queue.any (·.job.isWatch), 0, f.progress, f.ownRepos,
        pollsOf (f.active.toList ++ f.queue.filter (·.interactive))⟩ := by
    intro hnone
    refine hdropped [] [] hnone (Or.inl rfl) (List.nil_sublist _) (Nat.zero_le 1) (fun hany => ?_)
      fun _ hne => absurd rfl hne
    obtain ⟨slug, hslug⟩ := hqueued hany
    have hpolls : f.polls = pollsOf f.queue := by
      rw [Feed.polls, pollsOf_append, hnone, List.nil_append]
    rw [← hpolls, show f.polls = _ from hreading.polls] at hslug
    rcases List.mem_append.mp hslug with hmem | hmem
    · obtain ⟨other, hother, heq⟩ := List.mem_map.mp hmem
      exact ⟨other, hother, List.not_mem_nil⟩
    · rcases hreading.rest with rfl | rfl
      · cases hmem
      · exact absurd (List.mem_singleton.mp hmem) (by simp)
  cases hactive : f.active with
  | none => exact hactive ▸ hnothing (by rw [hactive]; rfl)
  | some job =>
      rw [hactive] at hdropped hnothing
      have hsingle : pollsOf (some job).toList = if job.job.isPoll then [job.job] else [] := by
        rw [Option.toList_some, pollsOf_cons]
        exact List.append_nil _
      cases hjob : job.job with
      | repos =>
          have hpolls : f.book.polls = .repos :: pollsOf f.queue := by
            rw [← hjob]
            exact polls_active hactive (by rw [hjob]; rfl)
          obtain ⟨rfl, hqueue⟩ := hreading.of_repos hpolls
          refine hdropped [] [.repos] (by rw [hsingle, hjob]; rfl) (Or.inr rfl)
            (List.Sublist.refl _) (Nat.zero_le 1) (fun hany => ?_) fun _ hne => absurd rfl hne
          obtain ⟨slug, hslug⟩ := hqueued hany
          rw [hqueue] at hslug
          cases hslug
      | watch slug =>
          have hpolls : f.book.polls = .watch slug :: pollsOf f.queue := by
            rw [← hjob]
            exact polls_active hactive (by rw [hjob]; rfl)
          obtain ⟨others, rfl, hqueue⟩ := hreading.of_watch hpolls
          refine hdropped [slug] [] (by rw [hsingle, hjob]; rfl) (Or.inl rfl)
            (List.singleton_sublist.mpr List.mem_cons_self) le_rfl (fun hany => ?_)
            fun hany _ => ?_
          · obtain ⟨other, hother⟩ := hqueued hany
            rw [hqueue] at hother
            rcases List.mem_append.mp hother with hmem | hmem
            · obtain ⟨found, hfound, heq⟩ := List.mem_map.mp hmem
              refine ⟨found, List.mem_cons_of_mem _ hfound, fun hsame => ?_⟩
              rw [List.mem_singleton.mp hsame] at hfound
              exact (List.nodup_cons.mp hreading.nodup).1 hfound
            · rcases hreading.rest with rfl | rfl
              · cases hmem
              · exact absurd (List.mem_singleton.mp hmem) (by simp)
          · cases others with
            | nil => rfl
            | cons other others =>
                have hmem : Job.watch other ∈ pollsOf f.queue := by
                  rw [hqueue]
                  exact List.mem_append_left _ List.mem_cons_self
                obtain ⟨queued, hqueued, hsame⟩ := (mem_pollsOf rfl).mp hmem
                rw [List.any_eq_false] at hany
                exact absurd (by rw [hsame]; rfl) (hany queued hqueued)
      | _ => exact hnothing (by rw [hsingle, hjob]; rfl)

/-- A publication is complete unless it is that of a watch read left behind. -/
theorem step_spec (h : f.Sound) (event : Event) :
    (f.step localeCompare event).Sound ∧
      Logged localeCompare f (f.step localeCompare event) (¬SettlesBehind f event) := by
  have hkept : ∀ g, Kept f g → ¬SettlesBehind f event →
      g.Sound ∧ Logged localeCompare f g (¬SettlesBehind f event) :=
    fun g hg hfine => ⟨hg.carried.sound h, hg.logged hfine⟩
  cases event with
  | refresh =>
      obtain ⟨hsound, hpublished, hlast⟩ := refresh_spec h
      exact ⟨hsound, Or.inl ⟨hpublished, hlast, id⟩⟩
  | setEnabled on =>
      have hlog : (setEnabled on f).published = f.published ∧
          (setEnabled on f).lastPush = f.lastPush := by
        unfold setEnabled
        split_ifs <;> exact ⟨rfl, rfl⟩
      exact ⟨setEnabled_sound on h, Or.inl ⟨hlog.1, hlog.2, id⟩⟩
  | setWatch list =>
      exact ⟨⟨⟨h.quiet.queue, h.quiet.active⟩, normalizeWatch_nodup list, h.book⟩,
        Or.inl ⟨rfl, rfl, id⟩⟩
  | setToasts on =>
      exact ⟨⟨⟨h.quiet.queue, h.quiet.active⟩, h.watches, h.book⟩, Or.inl ⟨rfl, rfl, id⟩⟩
  | acknowledge stamp =>
      exact ⟨⟨⟨h.quiet.queue, h.quiet.active⟩, h.watches, h.book⟩, Or.inl ⟨rfl, rfl, id⟩⟩
  | requestCommits slug => exact hkept _ (kept_enqueue rfl h.quiet) id
  | requestStats slug sha => exact hkept _ (kept_enqueue rfl h.quiet) id
  | inbox move => exact hkept _ (kept_exec move h.quiet) id
  | exit now answer =>
      have hended : ({ f with running := false } : Feed).Sound :=
        ⟨⟨h.quiet.queue, h.quiet.active⟩, h.watches, h.book⟩
      obtain ⟨hsound, hlog⟩ := @settle_spec _ localeCompare now answer hended
      refine ⟨hsound, ?_⟩
      have hfine : SettlesBehind f (.exit now answer) ↔ ∃ job, f.active = some job ∧
          job.job.isWatch = true ∧ f.enabled = true ∧ f.behind = true := by
        unfold SettlesBehind
        cases hactive : f.active <;> simp
      rw [hfine]
      exact hlog
  | abandon now answer =>
      have hfine : SettlesBehind f (.abandon now answer) ↔ ∃ job, f.active = some job ∧
          job.job.isWatch = true ∧ f.enabled = true ∧ f.behind = true := by
        unfold SettlesBehind
        cases hactive : f.active <;> simp
      simp only [Feed.step, hfine]
      split_ifs with hactive
      · exact settle_spec h
      · refine ⟨h, Or.inl ⟨rfl, rfl, ?_⟩⟩
        rintro ⟨job, hjob, -⟩
        rw [hjob] at hactive
        exact hactive rfl

/-! ### Runs -/

theorem start_sound (enabled toasts : Bool) (watch : JsValue) (seenAt : Text)
    (lastPush : List (Text × Text)) : (start enabled toasts watch seenAt lastPush).Sound where
  quiet := ⟨fun job hjob => (by cases hjob), fun job hjob => (by cases hjob)⟩
  watches := normalizeWatch_nodup watch
  book := ⟨[], [], rfl, Or.inl rfl, List.nodup_nil, fun _ => rfl, fun _ => Or.inl rfl,
    fun hbehind => (by cases hbehind), fun hbehind => (by cases hbehind),
    fun hbehind => (by cases hbehind), fun hbehind => (by cases hbehind)⟩

/-- What a log adds to one that is already judged. -/
theorem run_spec (h : f.Sound) (events : List Event) (base : List (Text × Text))
    (hlast : f.lastPush = f.published.head?.elim base (Publication.baselines localeCompare)) :
    ((∀ p ∈ (events.foldl (Feed.step localeCompare) f).published, p.Complete) ↔
      (∀ p ∈ f.published, p.Complete) ∧ EachStep (Feed.step localeCompare)
        (fun f event => ¬SettlesBehind f event) f events) ∧
      (events.foldl (Feed.step localeCompare) f).lastPush =
        (events.foldl (Feed.step localeCompare) f).published.head?.elim base
          (Publication.baselines localeCompare) := by
  induction events generalizing f with
  | nil => exact ⟨⟨fun hall => ⟨hall, trivial⟩, fun hall => hall.1⟩, hlast⟩
  | cons event events ih =>
      obtain ⟨hsound, hlog⟩ := @step_spec f localeCompare h event
      rw [List.foldl_cons, EachStep]
      rcases hlog with ⟨hpublished, hsame, hfine⟩ | ⟨p, hpublished, hsame, hcomplete⟩
      · obtain ⟨hiff, hend⟩ := ih hsound (by rw [hsame, hpublished, hlast])
        rw [hpublished] at hiff
        exact ⟨hiff.trans (and_congr_right fun _ => (and_iff_right hfine).symm), hend⟩
      · obtain ⟨hiff, hend⟩ := ih hsound (by rw [hsame, hpublished]; rfl)
        rw [hpublished, List.forall_mem_cons, hcomplete] at hiff
        exact ⟨hiff.trans (by tauto), hend⟩

end

/-- All publications of a run are of complete polls exactly when no watch read
of a poll that was given up ends while the module is on; and the push baselines
are always those of the last publication. -/
theorem publications_complete_iff (localeCompare : Text → Text → Ordering)
    (enabled toasts : Bool) (watch : JsValue) (seenAt : Text) (lastPush : List (Text × Text))
    (events : List Event) :
    let begun := start enabled toasts watch seenAt lastPush
    let ended := events.foldl (Feed.step localeCompare) begun
    ((∀ p ∈ ended.published, p.Complete) ↔
      EachStep (Feed.step localeCompare) (fun f event => ¬SettlesBehind f event) begun events) ∧
    ended.lastPush =
      ended.published.head?.elim lastPush (Publication.baselines localeCompare) := by
  intro begun ended
  obtain ⟨hiff, hlast⟩ := @run_spec begun localeCompare
    (start_sound enabled toasts watch seenAt lastPush) events lastPush rfl
  refine ⟨hiff.trans (and_iff_right ?_), hlast⟩
  intro p hp
  cases hp

/-! ### A poll that was given up -/

def outside : Repo :=
  ⟨ascii "kde/kate", ascii "kde", ascii "kate", ascii "2026-01-02", false, false,
    ascii "master"⟩

def mine : Repo :=
  ⟨ascii "me/dots", ascii "me", ascii "dots", ascii "2026-01-01", false, false,
    ascii "main"⟩

def reply : Answer := ⟨some (ascii "me"), .ok (some [mine]) [], .ok (some outside) [], [], [], [], []⟩

/-- A watch is read when the module is switched off and on and a poll begins. -/
def givenUp : List Event :=
  [.refresh, .exit [] reply, .exit [] reply, .setEnabled false, .setEnabled true, .refresh,
    .exit [] reply]

/-- The feed then has no repository of the account, and its baseline is gone. -/
theorem givenUp_partial :
    let ended := givenUp.foldl (Feed.step fun _ _ => .eq) (start true true
      (.arr [.str (ascii "kde/kate"), .str (ascii "me/dots")]) (ascii "2025-12-31")
      [(ascii "me/dots", ascii "2025-12-30")])
    ended.published.map Publication.own = [[]] ∧
      ended.published.map (fun p => decide p.Complete) = [false] ∧
      ended.lastPush = [(ascii "kde/kate", ascii "2026-01-02")] := by
  decide +kernel

end Poll

end GitHub

end CybexOS
