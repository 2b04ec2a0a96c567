/-
Which creates do what they promise: a failed one leaves the recovery points as
they were, a successful one keeps its own point among the bounded number.
-/
import CybexOS.Snapshot.Create

namespace CybexOS

namespace Snapshot

namespace Create

/-! ### Identifiers -/

theorem padded_all_isDigit (width n : ℕ) : (padded width n).all isDigit = true := by
  rw [padded, List.all_append, digitsOf_all_isDigit, Bool.and_true, List.all_eq_true]
  intro c hc
  rw [List.eq_of_mem_replicate hc]
  rfl

theorem length_padded {width n : ℕ} (hn : n < 10 ^ (width + 1)) :
    (padded (width + 1) n).length = width + 1 := by
  have hshort := length_digitsOf_le hn
  rw [padded, List.length_append, List.length_replicate]
  omega

/-- A text in the four parts of an identifier. -/
theorem isPoint_append {date time number : Text} (hdate : date.length = 8) (htime : time.length = 6)
    (hnumber : number ≠ []) (hdates : date.all isDigit = true) (htimes : time.all isDigit = true)
    (hnumbers : number.all isDigit = true) :
    isPoint (date ++ (ascii "T" ++ (time ++ (ascii "Z-" ++ number)))) = true := by
  have hT : (ascii "T").length = 1 := rfl
  have hZ : (ascii "Z-").length = 2 := rfl
  have h8 : (date ++ (ascii "T" ++ (time ++ (ascii "Z-" ++ number)))).drop 8 =
      ascii "T" ++ (time ++ (ascii "Z-" ++ number)) := by
    rw [← hdate, List.drop_left]
  have h9 : (date ++ (ascii "T" ++ (time ++ (ascii "Z-" ++ number)))).drop 9 =
      time ++ (ascii "Z-" ++ number) := by
    rw [show 9 = 8 + 1 from rfl, ← List.drop_drop, h8, ← hT, List.drop_left]
  have h15 : (date ++ (ascii "T" ++ (time ++ (ascii "Z-" ++ number)))).drop 15 =
      ascii "Z-" ++ number := by
    rw [show 15 = 9 + 6 from rfl, ← List.drop_drop, h9, ← htime, List.drop_left]
  have h17 : (date ++ (ascii "T" ++ (time ++ (ascii "Z-" ++ number)))).drop 17 = number := by
    rw [show 17 = 15 + 2 from rfl, ← List.drop_drop, h15, ← hZ, List.drop_left]
  have hdate8 : (date ++ (ascii "T" ++ (time ++ (ascii "Z-" ++ number)))).take 8 = date := by
    rw [← hdate, List.take_left]
  have htime6 : (time ++ (ascii "Z-" ++ number)).take 6 = time := by
    rw [← htime, List.take_left]
  have hone : (ascii "T" ++ (time ++ (ascii "Z-" ++ number))).take 1 = ascii "T" := by
    rw [← hT, List.take_left]
  have htwo : (ascii "Z-" ++ number).take 2 = ascii "Z-" := by
    rw [← hZ, List.take_left]
  rw [isPoint, h8, h9, h15, h17, hdate8, hone, htime6, htwo, hdates, htimes, hnumbers]
  simp [hnumber]

theorem isPoint_stamp (clock : Clock) (pid : ℕ) :
    isPoint (stamp clock ++ ascii "-" ++ digitsOf pid) = true := by
  have hyear := @length_padded 3 _ clock.year_digits.2
  have hmonth := @length_padded 1 _ clock.month_digits
  have hday := @length_padded 1 _ clock.day_digits
  have hhour := @length_padded 1 _ clock.hour_digits
  have hminute := @length_padded 1 _ clock.minute_digits
  have hsecond := @length_padded 1 _ clock.second_digits
  have hmark : ascii "Z" ++ ascii "-" = ascii "Z-" := rfl
  have hparts := @isPoint_append
    (padded 4 clock.year ++ padded 2 clock.month ++ padded 2 clock.day)
    (padded 2 clock.hour ++ padded 2 clock.minute ++ padded 2 clock.second) (digitsOf pid)
    (by simp [hyear, hmonth, hday]) (by simp [hhour, hminute, hsecond]) (digitsOf_ne_nil pid)
    (by simp [padded_all_isDigit, -List.all_eq_true])
    (by simp [padded_all_isDigit, -List.all_eq_true])
    (digitsOf_all_isDigit pid)
  rw [← hmark] at hparts
  simpa [stamp, List.append_assoc] using hparts

/-- The identifier that a create makes up is one. -/
theorem matchesPoint_point {inputs : Inputs} (h : inputs.requested = []) :
    matchesPoint inputs.point = true := by
  have hpoint : inputs.point = stamp inputs.clock ++ ascii "-" ++ digitsOf inputs.pid := by
    rw [Inputs.point, h]
    rfl
  have hlast : inputs.point.getLast? ≠ some 10 := by
    intro hlast
    rw [hpoint, List.getLast?_append_of_ne_nil _ (digitsOf_ne_nil _)] at hlast
    have hdigits := List.all_eq_true.mp (digitsOf_all_isDigit inputs.pid) 10
      (List.mem_of_getLast? hlast)
    exact absurd hdigits (by decide)
  rw [matchesPoint, if_neg hlast, hpoint]
  exact isPoint_stamp inputs.clock inputs.pid

/-! ### Stores of whole points -/

/-- Each snapshot has its files, and no file is there without one. -/
structure Store.WellFormed (store : Store) : Prop where
  nodup : store.roots.Nodup
  points : ∀ point ∈ store.roots, matchesPoint point = true
  archived : ∀ point, store.archives point = true ↔ point ∈ store.roots
  described : ∀ point, (store.descriptions point).isSome = true ↔ point ∈ store.roots
  kernels : ∀ point, (store.kernels point).isSome = true → point ∈ store.roots
  temporaries : ∀ point, store.temporaries point = false

structure PointStore extends Store where
  wellFormed : toStore.WellFormed

/-- The points and their files are the same. -/
structure Store.SamePoints (store other : Store) : Prop where
  roots : store.roots = other.roots
  archives : store.archives = other.archives
  temporaries : store.temporaries = other.temporaries
  descriptions : store.descriptions = other.descriptions
  kernels : store.kernels = other.kernels

theorem Store.SamePoints.refl (store : Store) : store.SamePoints store := ⟨rfl, rfl, rfl, rfl, rfl⟩

/-- What a store holds for one point. -/
structure Items where
  temporary : Bool
  archive : Bool
  snapshot : Bool
  description : Option Text
  kernel : Option Text
  latest : Option Text

def Items.has (items : Items) : Leftover → Bool
  | .temporary => items.temporary
  | .archive => items.archive
  | .snapshot => items.snapshot
  | .description => items.description.isSome
  | .kernel => items.kernel.isSome

def Store.hold (store : Store) (point : Text) (items : Items) : Store where
  roots := bif items.snapshot then point :: store.roots else store.roots
  archives := Function.update store.archives point items.archive
  temporaries := Function.update store.temporaries point items.temporary
  descriptions := Function.update store.descriptions point items.description
  kernels := Function.update store.kernels point items.kernel
  latest := items.latest

/-- A store without this point. -/
structure Store.Lacks (store : Store) (point : Text) : Prop where
  roots : point ∉ store.roots
  archives : store.archives point = false
  temporaries : store.temporaries point = false
  descriptions : store.descriptions point = none
  kernels : store.kernels point = none

def Items.remove (items : Items) : Leftover → Items
  | .temporary => { items with temporary := false }
  | .archive => { items with archive := false }
  | .description => { items with description := none }
  | .kernel => { items with kernel := none }
  | .snapshot => { items with snapshot := false }

theorem Items.has_remove (items : Items) (removed leftover : Leftover) :
    (items.remove removed).has leftover = (items.has leftover && leftover != removed) := by
  cases removed <;> cases leftover <;> simp [remove, has]

section

variable {store : Store} {point : Text}

theorem Store.WellFormed.lacks (h : store.WellFormed) (hpoint : point ∉ store.roots) :
    store.Lacks point where
  roots := hpoint
  archives := by
    rw [← Bool.not_eq_true, h.archived]
    exact hpoint
  temporaries := h.temporaries point
  descriptions := by
    rw [← Option.not_isSome_iff_eq_none, h.described]
    exact hpoint
  kernels := by
    rw [← Option.not_isSome_iff_eq_none]
    exact fun hkernel => hpoint (h.kernels point hkernel)

theorem remove_hold (hlacks : store.Lacks point) (items : Items) (leftover : Leftover) :
    (store.hold point items).remove point leftover = store.hold point (items.remove leftover) := by
  have hroots : store.roots.filter (· ≠ point) = store.roots := by
    rw [List.filter_eq_self]
    intro other hother
    exact decide_eq_true (fun heq => hlacks.roots (heq ▸ hother))
  cases leftover with
  | snapshot =>
      cases hsnapshot : items.snapshot <;>
        simp [Store.remove, Store.hold, Items.remove, hsnapshot] <;> simpa using hroots
  | temporary => simp only [Store.remove, Store.hold, Items.remove, Function.update_idem]
  | archive => simp only [Store.remove, Store.hold, Items.remove, Function.update_idem]
  | description => simp only [Store.remove, Store.hold, Items.remove, Function.update_idem]
  | kernel => simp only [Store.remove, Store.hold, Items.remove, Function.update_idem]

theorem samePoints_hold (hlacks : store.Lacks point) (items : Items) :
    (store.hold point items).SamePoints store ↔ ∀ leftover, items.has leftover = false := by
  constructor
  · intro hsame leftover
    cases leftover with
    | temporary =>
        have h := congrFun hsame.temporaries point
        simpa [Store.hold, Items.has, hlacks.temporaries] using h
    | archive =>
        have h := congrFun hsame.archives point
        simpa [Store.hold, Items.has, hlacks.archives] using h
    | description =>
        have h := congrFun hsame.descriptions point
        simpa [Store.hold, Items.has, hlacks.descriptions] using h
    | kernel =>
        have h := congrFun hsame.kernels point
        simpa [Store.hold, Items.has, hlacks.kernels] using h
    | snapshot =>
        have h := hsame.roots
        cases hsnapshot : items.snapshot with
        | false => exact hsnapshot
        | true => simp [Store.hold, hsnapshot] at h
  · intro hnone
    have htemporary : items.temporary = false := hnone .temporary
    have harchive : items.archive = false := hnone .archive
    have hdescription : items.description = none := by
      simpa [Items.has] using hnone .description
    have hkernel : items.kernel = none := by simpa [Items.has] using hnone .kernel
    have hsnapshot : items.snapshot = false := hnone .snapshot
    constructor
    · simp [Store.hold, hsnapshot]
    · simp [Store.hold, harchive, ← hlacks.archives]
    · simp [Store.hold, htemporary, ← hlacks.temporaries]
    · simp [Store.hold, hdescription, ← hlacks.descriptions]
    · simp [Store.hold, hkernel, ← hlacks.kernels]

end

section

variable (inputs : Inputs)

/-- The clean-up removes what it can. -/
theorem cleanUp_hold {store : Store} (hlacks : store.Lacks inputs.point) (items : Items) :
    ∃ left : Items, inputs.cleanUp (store.hold inputs.point items) = store.hold inputs.point left ∧
      ∀ leftover, left.has leftover = (items.has leftover && inputs.stuck leftover) := by
  have hloop : ∀ (leftovers : List Leftover) (items : Items), ∃ left : Items,
      leftovers.foldl (fun store leftover =>
        if inputs.stuck leftover then store else store.remove inputs.point leftover)
        (store.hold inputs.point items) = store.hold inputs.point left ∧
      ∀ leftover, left.has leftover =
        (items.has leftover && (inputs.stuck leftover || decide (leftover ∉ leftovers))) := by
    intro leftovers
    induction leftovers with
    | nil => exact fun items => ⟨items, rfl, by simp⟩
    | cons first rest ih =>
        intro items
        rw [List.foldl_cons]
        by_cases hstuck : inputs.stuck first = true
        · obtain ⟨left, hleft, hhas⟩ := ih items
          refine ⟨left, by rw [if_pos hstuck, hleft], ?_⟩
          intro leftover
          rw [hhas]
          by_cases heq : leftover = first
          · simp [heq, hstuck]
          · simp [heq]
        · obtain ⟨left, hleft, hhas⟩ := ih (items.remove first)
          refine ⟨left, by rw [if_neg hstuck, remove_hold hlacks, hleft], ?_⟩
          intro leftover
          rw [hhas, Items.has_remove]
          by_cases heq : leftover = first
          · simp [heq, hstuck]
          · simp [heq, bne_iff_ne.mpr heq]
  obtain ⟨left, hleft, hhas⟩ :=
    hloop [.temporary, .archive, .description, .kernel, .snapshot] items
  refine ⟨left, hleft, ?_⟩
  intro leftover
  rw [hhas]
  cases leftover <;> simp

/-! ### The steps -/

/-- What the store holds for the point when a step is reached. -/
def Inputs.itemsAt (latest : Option Text) : Step → Items
  | .archive => ⟨false, false, false, none, none, latest⟩
  | .syncArchive | .keepArchive => ⟨true, false, false, none, none, latest⟩
  | .snapshot => ⟨false, true, false, none, none, latest⟩
  | .describe => ⟨false, true, true, none, none, latest⟩
  | .recordKernel => ⟨false, true, true, some (inputs.description ++ [10]), none, latest⟩
  | .markLatest => ⟨false, true, true, some (inputs.description ++ [10]),
      if inputs.kernel.isEmpty then none else some (inputs.kernel ++ [10]), latest⟩
  | .syncLatest => ⟨false, true, true, some (inputs.description ++ [10]),
      if inputs.kernel.isEmpty then none else some (inputs.kernel ++ [10]),
      some (inputs.point ++ [10])⟩

/-- The point of a create that came to the end of its steps. -/
def Inputs.whole (store : Store) : Store :=
  store.hold inputs.point (inputs.itemsAt store.latest .syncLatest)

/-- What a failing step leaves of the point. -/
def Inputs.itemsBroken (latest : Option Text) (broken : Break) : Items :=
  let items := inputs.itemsAt latest broken.step
  match broken.trace with
  | none => items
  | some trace =>
      match broken.step with
      | .archive => { items with temporary := true }
      | .snapshot => { items with snapshot := true }
      | .describe => { items with description := some trace }
      | .recordKernel => { items with kernel := some trace }
      | .markLatest => { items with latest := some trace }
      | .keepArchive | .syncArchive | .syncLatest => items

variable {inputs} {store : Store}

theorem Store.Lacks.updates (hlacks : store.Lacks inputs.point) :
    Function.update store.archives inputs.point false = store.archives ∧
      Function.update store.temporaries inputs.point false = store.temporaries ∧
        Function.update store.descriptions inputs.point none = store.descriptions ∧
          Function.update store.kernels inputs.point none = store.kernels := by
  have harchives := Function.update_eq_self inputs.point store.archives
  have htemporaries := Function.update_eq_self inputs.point store.temporaries
  have hdescriptions := Function.update_eq_self inputs.point store.descriptions
  have hkernels := Function.update_eq_self inputs.point store.kernels
  rw [hlacks.archives] at harchives
  rw [hlacks.temporaries] at htemporaries
  rw [hlacks.descriptions] at hdescriptions
  rw [hlacks.kernels] at hkernels
  exact ⟨harchives, htemporaries, hdescriptions, hkernels⟩

/-- The steps before one of them write what it then finds. -/
theorem foldl_perform (hlacks : store.Lacks inputs.point) {step : Step}
    (hstep : step ∈ inputs.steps) :
    ∃ before after, inputs.steps = before ++ step :: after ∧ step ∉ before ∧
      before.foldl inputs.perform store =
        store.hold inputs.point (inputs.itemsAt store.latest step) := by
  obtain ⟨harchives, htemporaries, hdescriptions, hkernels⟩ := hlacks.updates
  refine ⟨inputs.steps.takeWhile (· ≠ step), (inputs.steps.dropWhile (· ≠ step)).tail, ?_⟩
  cases hkernel : inputs.kernel.isEmpty <;> cases step <;>
    simp [Inputs.steps, hkernel] at hstep ⊢ <;>
    simp [Inputs.perform, Inputs.itemsAt, Store.hold, Store.addTemporary, Store.keepArchive,
      Store.addSnapshot, Store.describe, Store.recordKernel, Store.markLatest, hkernel,
      harchives, htemporaries, hdescriptions, hkernels]

theorem runSteps_append {before after : List Step}
    (h : ∀ broken, inputs.broken = some broken → broken.step ∉ before) :
    inputs.runSteps (before ++ after) store =
      inputs.runSteps after (before.foldl inputs.perform store) := by
  induction before generalizing store with
  | nil => rfl
  | cons step before ih =>
      have hrest : ∀ broken, inputs.broken = some broken → broken.step ∉ before :=
        fun broken hbroken hmem => h broken hbroken (List.mem_cons_of_mem _ hmem)
      rw [List.cons_append, List.foldl_cons, ← ih hrest]
      cases hbroken : inputs.broken with
      | none => simp [Inputs.runSteps, hbroken]
      | some broken =>
          have hne : broken.step ≠ step := by
            intro heq
            exact h broken hbroken (heq ▸ List.mem_cons_self)
          simp [Inputs.runSteps, hbroken, hne]

theorem runSteps_whole (hlacks : store.Lacks inputs.point)
    (hnone : ∀ broken, inputs.broken = some broken → broken.step ∉ inputs.steps) :
    inputs.runSteps inputs.steps store = (none, inputs.whole store) := by
  obtain ⟨-, htemporaries, -, hkernels⟩ := hlacks.updates
  rw [← List.append_nil inputs.steps, runSteps_append hnone, Inputs.runSteps]
  congr 1
  cases hkernel : inputs.kernel.isEmpty <;>
    simp [Inputs.steps, Inputs.whole, Inputs.perform, Inputs.itemsAt, Store.hold,
      Store.addTemporary, Store.keepArchive, Store.addSnapshot, Store.describe,
      Store.recordKernel, Store.markLatest, hkernel, htemporaries, hkernels]

theorem runSteps_broken (hlacks : store.Lacks inputs.point) {broken : Break}
    (hbroken : inputs.broken = some broken) (hstep : broken.step ∈ inputs.steps) :
    inputs.runSteps inputs.steps store =
      (some broken.step, store.hold inputs.point (inputs.itemsBroken store.latest broken)) := by
  obtain ⟨before, after, hsteps, hbefore, hreached⟩ := foldl_perform hlacks hstep
  have hnot : ∀ other, inputs.broken = some other → other.step ∉ before := by
    intro other hother
    rw [hbroken, Option.some.injEq] at hother
    exact hother ▸ hbefore
  rw [hsteps, runSteps_append hnot, hreached, Inputs.runSteps, hbroken]
  rcases broken with ⟨step, trace⟩
  cases trace with
  | none => simp [Inputs.itemsBroken]
  | some trace =>
      cases step <;> simp [Inputs.itemsBroken, Inputs.breakOff, Store.hold, Inputs.itemsAt,
        Store.addTemporary, Store.addSnapshot, Store.describe, Store.recordKernel,
        Store.markLatest]

/-! ### What a failing step leaves -/

def Step.order : Step → ℕ
  | .archive => 0
  | .syncArchive => 1
  | .keepArchive => 2
  | .snapshot => 3
  | .describe => 4
  | .recordKernel => 5
  | .markLatest => 6
  | .syncLatest => 7

/-- What is there of the point when the step has failed. -/
def Break.leaves (broken : Break) (knowsKernel : Bool) : Leftover → Bool
  | .temporary =>
      (broken.step = .archive && broken.trace.isSome) || broken.step = .syncArchive ||
        broken.step = .keepArchive
  | .archive => 3 ≤ broken.step.order
  | .snapshot => (broken.step = .snapshot && broken.trace.isSome) || 4 ≤ broken.step.order
  | .description => (broken.step = .describe && broken.trace.isSome) || 5 ≤ broken.step.order
  | .kernel =>
      (broken.step = .recordKernel && broken.trace.isSome) ||
        (knowsKernel && 6 ≤ broken.step.order)

theorem has_itemsBroken (latest : Option Text) {broken : Break} (leftover : Leftover) :
    (inputs.itemsBroken latest broken).has leftover =
      broken.leaves (!inputs.kernel.isEmpty) leftover := by
  rcases broken with ⟨step, trace⟩
  cases hkernel : inputs.kernel.isEmpty <;> cases trace <;> cases step <;> cases leftover <;>
    simp [Inputs.itemsBroken, Inputs.itemsAt, Items.has, Break.leaves, Step.order, hkernel]

/-- The failure that a command meets. -/
def Inputs.stops (inputs : Inputs) : Option Break :=
  inputs.broken.filter (·.step ∈ inputs.steps)

theorem stops_eq_none (h : inputs.stops = none) :
    ∀ broken, inputs.broken = some broken → broken.step ∉ inputs.steps := by
  intro broken hbroken hstep
  rw [Inputs.stops, hbroken] at h
  simp [Option.filter, hstep] at h

theorem stops_eq_some {broken : Break} (h : inputs.stops = some broken) :
    inputs.broken = some broken ∧ broken.step ∈ inputs.steps := by
  obtain ⟨hbroken, hstep⟩ := Option.filter_eq_some_iff.mp h
  exact ⟨hbroken, of_decide_eq_true hstep⟩

/-! ### Retention -/

/-- The store after all files of these points are gone. -/
structure Store.Without (store : Store) (gone : List Text) (left : Store) : Prop where
  roots : left.roots = store.roots.filter (· ∉ gone)
  archives : ∀ point, left.archives point = (store.archives point && point ∉ gone)
  temporaries : left.temporaries = store.temporaries
  descriptions : ∀ point,
    left.descriptions point = if point ∈ gone then none else store.descriptions point
  kernels : ∀ point, left.kernels point = if point ∈ gone then none else store.kernels point

theorem without_removePoint (store : Store) (point : Text) :
    store.Without [point] (store.removePoint point) := by
  constructor
  · simp [Store.removePoint, removals, Store.remove]
  · intro other
    by_cases heq : other = point <;> simp [Store.removePoint, removals, Store.remove, heq]
  · rfl
  · intro other
    simp [Store.removePoint, removals, Store.remove, Function.update_apply]
  · intro other
    simp [Store.removePoint, removals, Store.remove, Function.update_apply]

theorem Store.Without.trans {store middle left : Store} {first second : List Text}
    (hfirst : store.Without first middle) (hsecond : middle.Without second left) :
    store.Without (first ++ second) left where
  roots := by
    rw [hsecond.roots, hfirst.roots, List.filter_filter]
    apply List.filter_congr
    intro point _
    simp [Bool.and_comm]
  archives := by
    intro point
    rw [hsecond.archives, hfirst.archives]
    simp [Bool.and_assoc]
  temporaries := hsecond.temporaries.trans hfirst.temporaries
  descriptions := by
    intro point
    rw [hsecond.descriptions, hfirst.descriptions]
    by_cases hmem : point ∈ first <;> simp [hmem]
  kernels := by
    intro point
    rw [hsecond.kernels, hfirst.kernels]
    by_cases hmem : point ∈ first <;> simp [hmem]

theorem without_foldl (gone : List Text) (store : Store) :
    store.Without gone (gone.foldl Store.removePoint store) := by
  induction gone generalizing store with
  | nil => exact ⟨by simp, by simp, rfl, by simp, by simp⟩
  | cons point gone ih => exact (without_removePoint store point).trans (ih _)

/-- The loop comes to its end when no removal fails. -/
theorem prune_fst {names : List Text} (hpoints : ∀ name ∈ names, matchesPoint name = true)
    (store : Store) :
    (inputs.prune names store).1 = true ↔
      ∀ left, KEEP ≤ left → left < names.length → inputs.prunings left = none := by
  induction names generalizing store with
  | nil => simp [Inputs.prune]
  | cons oldest names ih =>
      have hrest : ∀ name ∈ names, matchesPoint name = true :=
        fun name hname => hpoints name (List.mem_cons_of_mem _ hname)
      rw [Inputs.prune]
      by_cases hkeep : names.length < KEEP
      · rw [if_pos hkeep, List.length_cons]
        refine iff_of_true rfl ?_
        intro left hleft hlength
        omega
      · rw [if_neg hkeep, hpoints oldest List.mem_cons_self]
        cases hpruning : inputs.prunings names.length with
        | some reached =>
            apply iff_of_false
            · simp
            · intro h
              rw [h names.length (by omega) (by simp)] at hpruning
              cases hpruning
        | none =>
            rw [Bool.not_true, if_neg Bool.false_ne_true, ih hrest]
            constructor
            · intro h left hleft hlength
              rw [List.length_cons, Nat.lt_succ_iff_lt_or_eq] at hlength
              rcases hlength with hlength | rfl
              · exact h left hleft hlength
              · exact hpruning
            · intro h left hleft hlength
              exact h left hleft (by simp; omega)

/-- What the loop has removed at its end. -/
theorem prune_snd {names : List Text} {store : Store}
    (h : (inputs.prune names store).1 = true) :
    (inputs.prune names store).2 =
      (names.take (names.length - KEEP)).foldl Store.removePoint store := by
  induction names generalizing store with
  | nil => rfl
  | cons oldest names ih =>
      rw [Inputs.prune] at h ⊢
      by_cases hkeep : names.length < KEEP
      · have hzero : (oldest :: names).length - KEEP = 0 := by
          rw [List.length_cons]
          omega
        rw [if_pos hkeep, hzero]
        rfl
      · have hone : (oldest :: names).length - KEEP = (names.length - KEEP) + 1 := by
          rw [List.length_cons]
          omega
        rw [if_neg hkeep] at h ⊢
        rw [hone, List.take_succ_cons, List.foldl_cons]
        cases hmatches : matchesPoint oldest with
        | false => simp [hmatches] at h
        | true =>
            cases hpruning : inputs.prunings names.length with
            | some reached => simp [hmatches, hpruning] at h
            | none =>
                simp only [hmatches, hpruning, Bool.not_true, Bool.false_eq_true, if_false] at h ⊢
                exact ih h

theorem Store.Without.wellFormed {store left : Store} {gone : List Text}
    (hwithout : store.Without gone left) (h : store.WellFormed) : left.WellFormed where
  nodup := by
    rw [hwithout.roots]
    exact h.nodup.filter _
  points := by
    intro point hpoint
    rw [hwithout.roots] at hpoint
    exact h.points point (List.mem_of_mem_filter hpoint)
  archived := by
    intro point
    rw [hwithout.archives, hwithout.roots, Bool.and_eq_true, h.archived, List.mem_filter]
  described := by
    intro point
    rw [hwithout.descriptions, hwithout.roots, List.mem_filter, ← h.described]
    by_cases hgone : point ∈ gone <;> simp [hgone]
  kernels := by
    intro point
    rw [hwithout.kernels, hwithout.roots, List.mem_filter]
    by_cases hgone : point ∈ gone
    · simp [hgone]
    · simpa [hgone] using h.kernels point
  temporaries := by
    rw [hwithout.temporaries]
    exact h.temporaries

theorem wellFormed_whole (h : store.WellFormed) (hlacks : store.Lacks inputs.point)
    (hpoint : matchesPoint inputs.point = true) : (inputs.whole store).WellFormed where
  nodup := List.nodup_cons.mpr ⟨hlacks.roots, h.nodup⟩
  points := by
    intro point hmem
    rcases List.mem_cons.mp hmem with rfl | hmem
    · exact hpoint
    · exact h.points point hmem
  archived := by
    intro point
    by_cases heq : point = inputs.point
    · simp [Inputs.whole, Store.hold, Inputs.itemsAt, heq]
    · simp [Inputs.whole, Store.hold, Inputs.itemsAt, heq, h.archived]
  described := by
    intro point
    by_cases heq : point = inputs.point
    · simp [Inputs.whole, Store.hold, Inputs.itemsAt, heq]
    · simp [Inputs.whole, Store.hold, Inputs.itemsAt, heq, h.described]
  kernels := by
    intro point hkernel
    by_cases heq : point = inputs.point
    · simp [Inputs.whole, Store.hold, Inputs.itemsAt, heq]
    · have hstored : (store.kernels point).isSome = true := by
        simpa [Inputs.whole, Store.hold, heq] using hkernel
      simp [Inputs.whole, Store.hold, Inputs.itemsAt, h.kernels point hstored]
  temporaries := by
    intro point
    by_cases heq : point = inputs.point
    · simp [Inputs.whole, Store.hold, Inputs.itemsAt, heq]
    · simp [Inputs.whole, Store.hold, heq, h.temporaries]

/-- The loop keeps the greatest names. -/
theorem roots_pruned {left : Store} (h : store.WellFormed)
    (hprune : inputs.prune (store.roots.insertionSort (· ≤ ·)) store = (true, left)) :
    left.WellFormed ∧ left.roots.Perm (retained KEEP store.roots) ∧
      ∀ point ∈ left.roots, left.descriptions point = store.descriptions point ∧
        left.kernels point = store.kernels point := by
  have hsnd := prune_snd (congrArg Prod.fst hprune)
  rw [hprune] at hsnd
  have hwithout := without_foldl ((store.roots.insertionSort (· ≤ ·)).take
    ((store.roots.insertionSort (· ≤ ·)).length - KEEP)) store
  rw [← hsnd, List.length_insertionSort] at hwithout
  have hsorted : (store.roots.insertionSort (· ≤ ·)).Nodup :=
    (List.perm_insertionSort _ _).nodup_iff.mpr h.nodup
  have hmem : ∀ point, point ∈ left.roots ↔ point ∈ retained KEEP store.roots := by
    intro point
    rw [← List.take_append_drop (store.roots.length - KEEP)
      (store.roots.insertionSort (· ≤ ·))] at hsorted
    have hapart := List.disjoint_of_nodup_append hsorted
    have hsplit : point ∈ store.roots ↔
        point ∈ (store.roots.insertionSort (· ≤ ·)).take (store.roots.length - KEEP) ∨
          point ∈ retained KEEP store.roots := by
      rw [retained, ← List.mem_append, List.take_append_drop, List.mem_insertionSort]
    rw [hwithout.roots, List.mem_filter, decide_eq_true_eq, hsplit]
    constructor
    · rintro ⟨hgone | hkept, hnot⟩
      · exact absurd hgone hnot
      · exact hkept
    · exact fun hkept => ⟨Or.inr hkept, fun hgone => hapart hgone hkept⟩
  have hwell := hwithout.wellFormed h
  refine ⟨hwell, (List.perm_ext_iff_of_nodup hwell.nodup (nodup_retained h.nodup)).mpr hmem, ?_⟩
  intro point hpoint
  rw [hwithout.roots, List.mem_filter, decide_eq_true_eq] at hpoint
  rw [hwithout.descriptions, hwithout.kernels, if_neg hpoint.2, if_neg hpoint.2]
  exact ⟨rfl, rfl⟩

/-! ### What a create keeps -/

/-- What a successful create leaves. -/
structure Kept (inputs : Inputs) (store : Store) (point : Text) (left : Store) : Prop where
  own : point ∈ left.roots
  description : left.descriptions point = some (inputs.description ++ [10])
  wellFormed : left.WellFormed
  bounded : left.roots.length ≤ KEEP
  others : ∀ other ∈ left.roots, other ≠ point → other ∈ store.roots ∧
    left.descriptions other = store.descriptions other ∧ left.kernels other = store.kernels other

/-- A create that succeeds keeps its point and whole points only, and one that
fails before the removal of old points leaves the points as they were. -/
def Meets (inputs : Inputs) (store : Store) : Prop :=
  match commandCreate inputs store with
  | (.created point, left) => Kept inputs store point left
  | (.unpruned, _) => True
  | (.early _, left) => left.SamePoints store
  | (.failed _, left) => left.SamePoints store

/-- Whatever a failing step leaves can be removed, and without a failure fewer
than `KEEP` of the stored points have a greater name. -/
def Orderly (inputs : Inputs) (store : Store) : Prop :=
  inputs.early store = none →
    match inputs.stops with
    | some broken => ∀ leftover,
        broken.leaves (!inputs.kernel.isEmpty) leftover = true → inputs.stuck leftover = false
    | none =>
        inputs.listsRoots = true →
          (∀ left, KEEP ≤ left → left ≤ store.roots.length → inputs.prunings left = none) →
            (store.roots.filter (inputs.point < ·)).length < KEEP

theorem early_eq_none (h : inputs.early store = none) :
    inputs.point ∉ store.roots ∧ matchesPoint inputs.point = true := by
  unfold Inputs.early at h
  iterate 5
    split at h
    · cases h
  split at h
  · cases h
  · split at h
    · cases h
    · rename_i hmatches
      split at h
      · cases h
      · split at h
        · cases h
        · rename_i hexists
          rw [Bool.or_eq_true, not_or, decide_eq_true_eq] at hexists
          exact ⟨hexists.1, by simpa using hmatches⟩

theorem commandCreate_failed (hwell : store.WellFormed) (h : inputs.early store = none)
    {broken : Break} (hstops : inputs.stops = some broken) :
    Meets inputs store ↔ ∀ leftover,
      broken.leaves (!inputs.kernel.isEmpty) leftover = true → inputs.stuck leftover = false := by
  obtain ⟨hbroken, hstep⟩ := stops_eq_some hstops
  have hlacks := hwell.lacks (early_eq_none h).1
  obtain ⟨left, hleft, hhas⟩ :=
    cleanUp_hold inputs hlacks (inputs.itemsBroken store.latest broken)
  rw [Meets, commandCreate, h, runSteps_broken hlacks hbroken hstep]
  simp only [hleft]
  rw [samePoints_hold hlacks]
  apply forall_congr'
  intro leftover
  rw [hhas, has_itemsBroken, Bool.and_eq_false_iff]
  cases broken.leaves (!inputs.kernel.isEmpty) leftover <;> simp

/-- The new point stays when few are greater. -/
theorem own_mem {left : Store} (hwhole : (inputs.whole store).WellFormed)
    (hroots : left.roots.Perm (retained KEEP (inputs.whole store).roots)) :
    inputs.point ∈ left.roots ↔ (store.roots.filter (inputs.point < ·)).length < KEEP := by
  have hcons : (inputs.whole store).roots = inputs.point :: store.roots := rfl
  have hmem : inputs.point ∈ (inputs.whole store).roots := by
    rw [hcons]
    exact List.mem_cons_self
  rw [hroots.mem_iff, mem_retained_iff hwhole.nodup hmem, hcons,
    List.filter_cons_of_neg (by simp)]
  apply iff_of_eq
  congr!

theorem kept_iff {left : Store} (hwell : store.WellFormed) (hlacks : store.Lacks inputs.point)
    (hpoint : matchesPoint inputs.point = true)
    (hprune : inputs.prune ((inputs.whole store).roots.insertionSort (· ≤ ·))
      (inputs.whole store) = (true, left)) :
    Kept inputs store inputs.point left ↔
      (store.roots.filter (inputs.point < ·)).length < KEEP := by
  have hwhole := wellFormed_whole hwell hlacks hpoint
  obtain ⟨hleft, hroots, hsame⟩ := roots_pruned hwhole hprune
  rw [← own_mem hwhole hroots]
  constructor
  · exact fun h => h.own
  · intro hown
    constructor
    · exact hown
    · rw [(hsame inputs.point hown).1]
      simp [Inputs.whole, Store.hold, Inputs.itemsAt]
    · exact hleft
    · rw [hroots.length_eq, length_retained]
      exact min_le_right _ _
    · intro other hother hne
      obtain ⟨hdescription, hkernel⟩ := hsame other hother
      have hmem := mem_of_mem_retained (hroots.mem_iff.mp hother)
      refine ⟨(List.mem_cons.mp hmem).resolve_left hne, ?_, ?_⟩
      · rw [hdescription]
        exact Function.update_of_ne hne _ _
      · rw [hkernel]
        exact Function.update_of_ne hne _ _

theorem commandCreate_whole (hwell : store.WellFormed) (h : inputs.early store = none)
    (hstops : inputs.stops = none) :
    Meets inputs store ↔ (inputs.listsRoots = true →
      (∀ left, KEEP ≤ left → left ≤ store.roots.length → inputs.prunings left = none) →
        (store.roots.filter (inputs.point < ·)).length < KEEP) := by
  obtain ⟨hnew, hpoint⟩ := early_eq_none h
  have hlacks := hwell.lacks hnew
  have hwhole := wellFormed_whole hwell hlacks hpoint
  have hpoints : ∀ name ∈ (inputs.whole store).roots.insertionSort (· ≤ ·),
      matchesPoint name = true :=
    fun name hname => hwhole.points name ((List.mem_insertionSort _).mp hname)
  have hended := @prune_fst inputs _ hpoints (inputs.whole store)
  have hlength : ((inputs.whole store).roots.insertionSort (· ≤ ·)).length =
      store.roots.length + 1 := List.length_insertionSort _ _
  rw [hlength] at hended
  rw [Meets, commandCreate, h, runSteps_whole hlacks (stops_eq_none hstops)]
  cases hlists : inputs.listsRoots with
  | false => simp
  | true =>
      cases hprune : inputs.prune ((inputs.whole store).roots.insertionSort (· ≤ ·))
        (inputs.whole store) with
      | mk ended left =>
          rw [hprune] at hended
          cases ended with
          | false =>
              refine iff_of_true (by simp [hprune]) ?_
              intro _ hprunings
              have hloop := hended.mpr fun left hleft hlt =>
                hprunings left hleft (Nat.le_of_lt_succ hlt)
              cases hloop
          | true =>
              have hprunings : ∀ left, KEEP ≤ left → left ≤ store.roots.length →
                  inputs.prunings left = none :=
                fun left hleft hle => hended.mp rfl left hleft (Nat.lt_succ_of_le hle)
              have hkept := kept_iff hwell hlacks hpoint hprune
              simp only [hprune, Bool.not_true, Bool.false_eq_true, if_false, hkept]
              exact ⟨fun hfew _ _ => hfew, fun h => h trivial hprunings⟩

/-- Which creates do what they promise. -/
theorem commandCreate_meets (inputs : Inputs) (store : PointStore) :
    Meets inputs store.toStore ↔ Orderly inputs store.toStore := by
  cases hearly : inputs.early store.toStore with
  | some why =>
      rw [Orderly, hearly, Meets, commandCreate, hearly]
      exact iff_of_true (Store.SamePoints.refl _) (fun h => nomatch h)
  | none =>
      cases hstops : inputs.stops with
      | some broken =>
          rw [commandCreate_failed store.wellFormed hearly hstops, Orderly, hstops]
          exact ⟨fun h _ => h, fun h => h hearly⟩
      | none =>
          rw [commandCreate_whole store.wellFormed hearly hstops, Orderly, hstops]
          exact ⟨fun h _ => h, fun h => h hearly⟩

end

/-! ### A clock that was set back -/

def laterPoints : List Text :=
  [ascii "20300101T000000Z-1", ascii "20300102T000000Z-1", ascii "20300103T000000Z-1",
    ascii "20300104T000000Z-1", ascii "20300105T000000Z-1"]

def fiveLater : PointStore where
  roots := laterPoints
  archives point := point ∈ laterPoints
  temporaries _ := false
  descriptions point := if point ∈ laterPoints then some (ascii "update") else none
  kernels _ := none
  latest := none
  wellFormed :=
    { nodup := by decide +kernel
      points := by decide +kernel
      archived := by simp
      described := by simp
      kernels := by simp
      temporaries := by simp }

def setBack : Inputs where
  arguments := [ascii "update"]
  layout := ⟨.btrfs, ascii "5b2e", [], [], ascii "/root"⟩
  which _ := true
  requested := []
  clock := ⟨2026, 9, 1, 12, 0, 0, by decide, by decide, by decide, by decide, by decide, by decide⟩
  pid := 4242
  opensStore := true
  kernel := []
  broken := none
  stuck _ := false
  listsRoots := true
  prunings _ := none

theorem setBack_loses :
    setBack.point ∉ (commandCreate setBack fiveLater.toStore).2.roots ∧
      ¬ Meets setBack fiveLater.toStore := by
  refine ⟨by decide +kernel, ?_⟩
  have hearly : setBack.early fiveLater.toStore = none :=
    Option.isNone_iff_eq_none.mp (by decide +kernel)
  rw [commandCreate_whole fiveLater.wellFormed hearly rfl]
  intro h
  exact absurd (h rfl fun _ _ _ => rfl) (by decide +kernel)

end Create

end Snapshot

end CybexOS
