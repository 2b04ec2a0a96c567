/-
The shell stream: folding a chunk of items into the thread and project maps,
each copied at most once and only where an item touches it.
-/
import CybexOS.Json.JsObject
import CybexOS.T3.History

namespace CybexOS

namespace T3

open Json

/-! ### Objects in memory -/

/-- The properties of every object, by address. -/
abbrev Heap := List Fields

namespace Heap

def read (heap : Heap) (address : Nat) : Fields := heap[address]?.getD []

/-- `object[key] = value` -/
def assign (heap : Heap) (address : Nat) (key : Text) (value : JsValue) : Heap :=
  heap.set address (setOwn (heap.read address) key value)

/-- `delete object[key]` -/
def remove (heap : Heap) (address : Nat) (key : Text) : Heap :=
  heap.set address (deleteOwn (heap.read address) key)

/-- `{}`, at the next address. -/
def alloc (heap : Heap) : Heap := heap ++ [[]]

/-- `Object.assign({}, object)`, at the next address. -/
def copy (heap : Heap) (address : Nat) : Heap :=
  heap ++ [assignOwn [] (.obj (heap.read address))]

end Heap

/-- A variable that holds a map, and whether the map is the call's own. -/
structure MapVar where
  address : Nat
  own : Bool

/-- Make the map the call's own. -/
def ownMap (heap : Heap) (map : MapVar) : Heap × MapVar :=
  if map.own then (heap, map) else (heap.copy map.address, ⟨heap.length, true⟩)

/-! ### One item -/

inductive ShellEvent where
  | snapshot
  | threadUpserted (threadId : Option JsValue)

/-- The flags and events of a result. -/
structure ShellFlags where
  dirty : Bool
  ready : Bool
  threadsChanged : Bool
  projectsChanged : Bool
  events : List ShellEvent

/-- The variables of the fold. -/
structure ShellFold where
  heap : Heap
  threads : MapVar
  projects : MapVar
  flags : ShellFlags

/-- A fold that runs, or the memory an exception leaves behind. -/
inductive ShellRun where
  | running (fold : ShellFold)
  | threw (heap : Heap)

section

variable (string : Option JsValue → Text)

/-- `value.id` as a property key; reading from null or undefined throws. -/
def idOf : Option JsValue → Option Text
  | none => none
  | some .null => none
  | some value => some (string (property value (ascii "id")))

/-- Fill a map by id; the flag says that no value threw. -/
def putAll (heap : Heap) (address : Nat) : List JsValue → Heap × Bool
  | [] => (heap, true)
  | value :: values =>
      match idOf string (some value) with
      | none => (heap, false)
      | some id => putAll (heap.assign address id value) address values

/-- `Array.isArray(object[name]) ? object[name] : []` -/
def arrayField (value : Option JsValue) (name : String) : List JsValue :=
  ((value.bind (property · (ascii name))).map arrayOf).getD []

def foldSnapshot (fold : ShellFold) (item : JsValue) : ShellRun :=
  let snapshot := property item (ascii "snapshot")
  let threads := fold.heap.length
  let projects := threads + 1
  let heap := fold.heap.alloc.alloc
  match putAll string heap projects (arrayField snapshot "projects") with
  | (heap, false) => .threw heap
  | (heap, true) =>
      match putAll string heap threads (arrayField snapshot "threads") with
      | (heap, false) => .threw heap
      | (heap, true) => .running
          { heap := heap
            threads := ⟨threads, true⟩
            projects := ⟨projects, true⟩
            flags :=
              { dirty := true
                ready := true
                threadsChanged := true
                projectsChanged := true
                events := fold.flags.events ++ [.snapshot] } }

def ShellFlags.projectTouched (flags : ShellFlags) : ShellFlags :=
  { flags with projectsChanged := true, dirty := true }

def ShellFlags.threadTouched (flags : ShellFlags) (events : List ShellEvent) : ShellFlags :=
  { flags with threadsChanged := true, dirty := true, events := flags.events ++ events }

def foldItem (fold : ShellFold) (item : JsValue) : ShellRun :=
  let kind := property item (ascii "kind")
  if equalsText kind "snapshot" then foldSnapshot string fold item
  else if equalsText kind "synchronized" then
    .running { fold with flags := { fold.flags with ready := true } }
  else if equalsText kind "project-upserted" then
    let (heap, projects) := ownMap fold.heap fold.projects
    let project := property item (ascii "project")
    match idOf string project with
    | none => .threw heap
    | some id => .running
        { fold with
          heap := heap.assign projects.address id (project.getD .null)
          projects := projects
          flags := fold.flags.projectTouched }
  else if equalsText kind "project-removed" then
    let (heap, projects) := ownMap fold.heap fold.projects
    .running
      { fold with
        heap := heap.remove projects.address (string (property item (ascii "projectId")))
        projects := projects
        flags := fold.flags.projectTouched }
  else if equalsText kind "thread-upserted" then
    let (heap, threads) := ownMap fold.heap fold.threads
    let thread := property item (ascii "thread")
    match idOf string thread with
    | none => .threw heap
    | some id => .running
        { fold with
          heap := heap.assign threads.address id (thread.getD .null)
          threads := threads
          flags := fold.flags.threadTouched
            [.threadUpserted (thread.bind (property · (ascii "id")))] }
  else if equalsText kind "thread-removed" then
    let (heap, threads) := ownMap fold.heap fold.threads
    .running
      { fold with
        heap := heap.remove threads.address (string (property item (ascii "threadId")))
        threads := threads
        flags := fold.flags.threadTouched [] }
  else .running fold

def foldItems (fold : ShellFold) : List JsValue → ShellRun
  | [] => .running fold
  | item :: items =>
      match foldItem string fold item with
      | .running fold => foldItems fold items
      | .threw heap => .threw heap

/-- `map || {}` -/
def orEmpty (heap : Heap) : Option Nat → Heap × MapVar
  | some address => (heap, ⟨address, false⟩)
  | none => (heap.alloc, ⟨heap.length, false⟩)

/-- The variables before the first item; a map that is missing is `none`. -/
def startFold (heap : Heap) (threadMap projectMap : Option Nat) : ShellFold :=
  let (heap, threads) := orEmpty heap threadMap
  let (heap, projects) := orEmpty heap projectMap
  ⟨heap, threads, projects, ⟨false, false, false, false, []⟩⟩

/-- The fold whose maps and flags are the result. -/
def applyShellItems (heap : Heap) (threadMap projectMap : Option Nat) (items : List JsValue) :
    ShellRun := foldItems string (startFold heap threadMap projectMap) items

end

/-! ### Reading and writing memory -/

namespace Heap

variable {heap : Heap} {address other : Nat}

theorem read_append_left {more : Heap} (h : address < heap.length) :
    Heap.read (heap ++ more) address = heap.read address := by
  rw [read, read, List.getElem?_append_left h]

theorem read_append_new (fields : Fields) : Heap.read (heap ++ [fields]) heap.length = fields := by
  rw [read, List.getElem?_append_right le_rfl, Nat.sub_self]
  rfl

theorem read_set_self {fields : Fields} (h : address < heap.length) :
    Heap.read (heap.set address fields) address = fields := by
  rw [read, List.getElem?_set_self h]
  rfl

theorem read_set_other {fields : Fields} (h : address ≠ other) :
    Heap.read (heap.set address fields) other = heap.read other := by
  rw [read, read, List.getElem?_set_ne h]

end Heap

/-- The objects below an address are as they were. -/
def Kept (base : Nat) (before after : Heap) : Prop :=
  ∀ address < base, after[address]? = before[address]?

theorem Kept.trans {base : Nat} {before heap after : Heap} (h : Kept base before heap)
    (hnext : Kept base heap after) : Kept base before after :=
  fun address hlt => (hnext address hlt).trans (h address hlt)

theorem kept_append {base : Nat} {heap : Heap} (hbase : base ≤ heap.length) (more : Heap) :
    Kept base heap (heap ++ more) :=
  fun _ hlt => List.getElem?_append_left (lt_of_lt_of_le hlt hbase)

theorem kept_set {base address : Nat} (heap : Heap) (h : base ≤ address) (fields : Fields) :
    Kept base heap (heap.set address fields) :=
  fun _ hlt => List.getElem?_set_ne (Nat.ne_of_gt (lt_of_lt_of_le hlt h))

/-- A map in memory: one of the call's own is above `base` and plain, a given
one is below. -/
structure MapOk (base : Nat) (heap : Heap) (map : MapVar) : Prop where
  inside : map.address < heap.length
  fresh : map.own = true → base ≤ map.address ∧ Plain (heap.read map.address)
  given : map.own = false → map.address < base

/-- Two maps of the call are two objects. -/
def TwoMaps (map other : MapVar) : Prop :=
  map.own = true → other.own = true → map.address ≠ other.address

theorem MapOk.ne {base : Nat} {heap : Heap} {map other : MapVar} (hmap : MapOk base heap map)
    (hother : MapOk base heap other) (hapart : TwoMaps map other) (hown : map.own = true) :
    map.address ≠ other.address := by
  cases hotherOwn : other.own with
  | true => exact hapart hown hotherOwn
  | false => exact Nat.ne_of_gt (lt_of_lt_of_le (hother.given hotherOwn) (hmap.fresh hown).1)

/-- An own map next to another one, after a change of the map. -/
structure Touched (base : Nat) (before after : Heap) (map other : MapVar) (fields : Fields) :
    Prop where
  base_le : base ≤ after.length
  mapOk : MapOk base after map
  isOwn : map.own = true
  otherOk : MapOk base after other
  apart : TwoMaps map other
  holds : after.read map.address = fields
  otherHolds : after.read other.address = before.read other.address
  kept : Kept base before after

section

variable {base : Nat} {heap : Heap} {map other : MapVar}

/-- An own map is a copy of what the variable held. -/
theorem ownMap_touched (hbase : base ≤ heap.length) (hmap : MapOk base heap map)
    (hother : MapOk base heap other) (hapart : TwoMaps map other) :
    Touched base heap (ownMap heap map).1 (ownMap heap map).2 other
      (assignOwn [] (.obj (heap.read map.address))) := by
  unfold ownMap
  cases hown : map.own with
  | true =>
      rw [if_pos rfl]
      exact ⟨hbase, hmap, hown, hother, hapart, (hmap.fresh hown).2.copy.symm, rfl, fun _ _ => rfl⟩
  | false =>
      rw [if_neg (by simp)]
      have hlength : heap.length < (heap.copy map.address).length := by simp [Heap.copy]
      have hinside : other.address < (heap.copy map.address).length :=
        lt_trans hother.inside hlength
      have hread : (heap.copy map.address).read other.address = heap.read other.address :=
        Heap.read_append_left hother.inside
      refine ⟨le_trans hbase hlength.le, ⟨hlength, fun _ => ⟨hbase, ?_⟩, fun h => (by cases h)⟩,
        rfl,
        ⟨hinside, fun h => ⟨(hother.fresh h).1, hread ▸ (hother.fresh h).2⟩, hother.given⟩,
        fun _ _ => Nat.ne_of_gt hother.inside, Heap.read_append_new _, hread,
        kept_append hbase _⟩
      rw [Heap.copy, Heap.read_append_new]
      exact plain_nil.assignOwn _

/-- Changing an own map changes no other one. -/
theorem Touched.set {before : Heap} {fields : Fields}
    (h : Touched base before heap map other fields) {changed : Fields} (hplain : Plain changed) :
    Touched base before (heap.set map.address changed) map other changed := by
  have hne : map.address ≠ other.address := h.mapOk.ne h.otherOk h.apart h.isOwn
  have hread : Heap.read (heap.set map.address changed) map.address = changed :=
    Heap.read_set_self h.mapOk.inside
  have hother : Heap.read (heap.set map.address changed) other.address =
      heap.read other.address := Heap.read_set_other hne
  have hlength : (heap.set map.address changed).length = heap.length := List.length_set
  have hfresh : base ≤ map.address := (h.mapOk.fresh h.isOwn).1
  have hmap : MapOk base (heap.set map.address changed) map :=
    ⟨hlength ▸ h.mapOk.inside, fun _ => ⟨hfresh, by rw [hread]; exact hplain⟩, h.mapOk.given⟩
  have hotherMap : MapOk base (heap.set map.address changed) other :=
    ⟨hlength ▸ h.otherOk.inside,
      fun hown => ⟨(h.otherOk.fresh hown).1, by rw [hother]; exact (h.otherOk.fresh hown).2⟩,
      h.otherOk.given⟩
  exact ⟨hlength ▸ h.base_le, hmap, h.isOwn, hotherMap, h.apart, hread,
    hother.trans h.otherHolds, h.kept.trans (kept_set heap hfresh changed)⟩

end

/-! ### The fold of the maps as values -/

/-- What a result shows: the maps' properties, the flags and the events. -/
structure ShellView where
  threadMap : Fields
  projectMap : Fields
  flags : ShellFlags

def ShellFold.view (fold : ShellFold) : ShellView where
  threadMap := fold.heap.read fold.threads.address
  projectMap := fold.heap.read fold.projects.address
  flags := fold.flags

/-- The memory a run leaves behind. -/
def ShellRun.heap : ShellRun → Heap
  | .running fold => fold.heap
  | .threw heap => heap

/-- What a run returns; `none` for an exception. -/
def ShellRun.view : ShellRun → Option ShellView
  | .running fold => some fold.view
  | .threw _ => none

section

variable (string : Option JsValue → Text)

def putValues (fields : Fields) : List JsValue → Option Fields
  | [] => some fields
  | value :: values =>
      (idOf string (some value)).bind fun id => putValues (setOwn fields id value) values

def copyOf (fields : Fields) : Fields := assignOwn [] (.obj fields)

/-- `foldItem` without memory; `none` is an exception. -/
def viewItem (view : ShellView) (item : JsValue) : Option ShellView :=
  let kind := property item (ascii "kind")
  if equalsText kind "snapshot" then
    let snapshot := property item (ascii "snapshot")
    (putValues string [] (arrayField snapshot "projects")).bind fun projectMap =>
      (putValues string [] (arrayField snapshot "threads")).map fun threadMap =>
        ⟨threadMap, projectMap, ⟨true, true, true, true, view.flags.events ++ [.snapshot]⟩⟩
  else if equalsText kind "synchronized" then
    some { view with flags := { view.flags with ready := true } }
  else if equalsText kind "project-upserted" then
    let project := property item (ascii "project")
    (idOf string project).map fun id =>
      { view with
        projectMap := setOwn (copyOf view.projectMap) id (project.getD .null)
        flags := view.flags.projectTouched }
  else if equalsText kind "project-removed" then
    some
      { view with
        projectMap := deleteOwn (copyOf view.projectMap)
          (string (property item (ascii "projectId")))
        flags := view.flags.projectTouched }
  else if equalsText kind "thread-upserted" then
    let thread := property item (ascii "thread")
    (idOf string thread).map fun id =>
      { view with
        threadMap := setOwn (copyOf view.threadMap) id (thread.getD .null)
        flags := view.flags.threadTouched
          [.threadUpserted (thread.bind (property · (ascii "id")))] }
  else if equalsText kind "thread-removed" then
    some
      { view with
        threadMap := deleteOwn (copyOf view.threadMap) (string (property item (ascii "threadId")))
        flags := view.flags.threadTouched [] }
  else some view

/-- The maps are in memory, and the call writes only to its own. -/
structure FoldOk (base : Nat) (fold : ShellFold) : Prop where
  base_le : base ≤ fold.heap.length
  threads : MapOk base fold.heap fold.threads
  projects : MapOk base fold.heap fold.projects
  apart : TwoMaps fold.threads fold.projects

/-- A run in memory and the fold of the values end alike, and what was in
memory before is kept. -/
inductive Simulates (base : Nat) (before : Heap) : ShellRun → Option ShellView → Prop where
  | running {fold : ShellFold} (ok : FoldOk base fold) (kept : Kept base before fold.heap) :
      Simulates base before (.running fold) (some fold.view)
  | threw {heap : Heap} (kept : Kept base before heap) : Simulates base before (.threw heap) none

variable {string} {base : Nat} {before heap : Heap} {fold : ShellFold}

theorem TwoMaps.symm {map other : MapVar} (h : TwoMaps map other) : TwoMaps other map :=
  fun hother hmap => (h hmap hother).symm

theorem Touched.simulates_threads {after : Heap} {threads : MapVar} {fields : Fields}
    (h : Touched base fold.heap after threads fold.projects fields) (flags : ShellFlags) :
    Simulates base fold.heap
      (.running { fold with heap := after, threads := threads, flags := flags })
      (some { fold.view with threadMap := fields, flags := flags }) := by
  have hview : ({ fold with heap := after, threads := threads, flags := flags } : ShellFold).view =
      { fold.view with threadMap := fields, flags := flags } := by
    rw [ShellFold.view, h.holds, h.otherHolds]
    rfl
  rw [← hview]
  exact .running ⟨h.base_le, h.mapOk, h.otherOk, h.apart⟩ h.kept

theorem Touched.simulates_projects {after : Heap} {projects : MapVar} {fields : Fields}
    (h : Touched base fold.heap after projects fold.threads fields) (flags : ShellFlags) :
    Simulates base fold.heap
      (.running { fold with heap := after, projects := projects, flags := flags })
      (some { fold.view with projectMap := fields, flags := flags }) := by
  have hview :
      ({ fold with heap := after, projects := projects, flags := flags } : ShellFold).view =
        { fold.view with projectMap := fields, flags := flags } := by
    rw [ShellFold.view, h.holds, h.otherHolds]
    rfl
  rw [← hview]
  exact .running ⟨h.base_le, h.otherOk, h.mapOk, h.apart.symm⟩ h.kept

theorem putAll_touched {map other : MapVar} {fields : Fields} (values : List JsValue)
    (h : Touched base before heap map other fields) :
    Kept base before (putAll string heap map.address values).1 ∧
      (((putAll string heap map.address values).2 = false ∧ putValues string fields values = none) ∨
        ((putAll string heap map.address values).2 = true ∧ ∃ filled,
          putValues string fields values = some filled ∧
            Touched base before (putAll string heap map.address values).1 map other filled)) := by
  induction values generalizing heap fields with
  | nil => exact ⟨h.kept, Or.inr ⟨rfl, fields, rfl, h⟩⟩
  | cons value values ih =>
      rw [putAll, putValues]
      cases hid : idOf string (some value) with
      | none => exact ⟨h.kept, Or.inl ⟨rfl, rfl⟩⟩
      | some id =>
          have hplain : Plain fields := h.holds ▸ (h.mapOk.fresh h.isOwn).2
          have hassigned := h.set (hplain.setOwn id value)
          rw [← h.holds] at hassigned
          rw [← h.holds]
          exact ih hassigned

/-- The other own map takes its turn. -/
theorem Touched.swap {map other : MapVar} {fields : Fields}
    (h : Touched base before heap map other fields) (hown : other.own = true) :
    Touched base heap heap other map (heap.read other.address) :=
  ⟨h.base_le, h.otherOk, hown, h.mapOk, h.apart.symm, rfl, rfl, fun _ _ => rfl⟩

/-- Two new maps at the end of memory. -/
theorem alloc_touched (hbase : base ≤ heap.length) :
    Touched base heap heap.alloc.alloc ⟨heap.length + 1, true⟩ ⟨heap.length, true⟩ [] := by
  have hlength : heap.alloc.alloc.length = heap.length + 2 := by simp [Heap.alloc]
  have hfirst : Heap.read heap.alloc.alloc heap.length = [] := by
    simp [Heap.alloc, Heap.read]
  have hsecond : Heap.read heap.alloc.alloc (heap.length + 1) = [] := by
    simp [Heap.alloc, Heap.read]
  have hnone : Heap.read heap heap.length = [] := by simp [Heap.read]
  refine ⟨by omega, ⟨?_, fun _ => ⟨le_trans hbase (Nat.le_succ _), ?_⟩, fun h => (by cases h)⟩, rfl,
    ⟨?_, fun _ => ⟨hbase, ?_⟩, fun h => (by cases h)⟩, fun _ _ => Nat.succ_ne_self _, hsecond,
    hfirst.trans hnone.symm, ?_⟩
  · rw [hlength]
    exact Nat.lt_succ_self _
  · rw [hsecond]
    exact plain_nil
  · rw [hlength]
    exact Nat.lt_add_of_pos_right (by decide)
  · rw [hfirst]
    exact plain_nil
  · exact (kept_append hbase [[]]).trans
      (kept_append (le_trans hbase (by simp)) [[]])

theorem foldSnapshot_simulates (hok : FoldOk base fold) {item : JsValue}
    (hkind : equalsText (property item (ascii "kind")) "snapshot" = true) :
    Simulates base fold.heap (foldSnapshot string fold item) (viewItem string fold.view item) := by
  have hnone : Heap.read fold.heap fold.heap.length = [] := by simp [Heap.read]
  unfold foldSnapshot viewItem
  dsimp only
  rw [if_pos hkind]
  obtain ⟨hkept, hprojects⟩ := @putAll_touched string base fold.heap _ _ _ _
    (arrayField (property item (ascii "snapshot")) "projects") (alloc_touched hok.base_le)
  generalize putAll string fold.heap.alloc.alloc _ _ = filledProjects at hkept hprojects ⊢
  obtain ⟨heap, done⟩ := filledProjects
  rcases hprojects with ⟨rfl, hthrown⟩ | ⟨rfl, projects, hvalues, hprojects⟩
  · rw [hthrown]
    exact .threw hkept
  · rw [hvalues, Option.bind_some]
    have hthreads := hprojects.swap rfl
    rw [hprojects.otherHolds, hnone] at hthreads
    obtain ⟨hkept', hfilled⟩ := @putAll_touched string base _ _ _ _ _
      (arrayField (property item (ascii "snapshot")) "threads") hthreads
    dsimp only at hkept' hfilled hkept ⊢
    generalize putAll string heap _ _ = filledThreads at hkept' hfilled ⊢
    obtain ⟨after, done⟩ := filledThreads
    rcases hfilled with ⟨rfl, hthrown⟩ | ⟨rfl, threads, hvalues', hthreads'⟩
    · rw [hthrown]
      exact .threw (hkept.trans hkept')
    · rw [hvalues', Option.map_some]
      have hview : (⟨threads, projects, ⟨true, true, true, true,
          fold.view.flags.events ++ [.snapshot]⟩⟩ : ShellView) =
          ShellFold.view ⟨after, ⟨fold.heap.length, true⟩, ⟨fold.heap.length + 1, true⟩,
            ⟨true, true, true, true, fold.flags.events ++ [.snapshot]⟩⟩ := by
        have hholds := hthreads'.holds
        have hother := hthreads'.otherHolds.trans hprojects.holds
        dsimp only at hholds hother
        simp only [ShellFold.view]
        rw [hholds, hother]
      rw [hview]
      exact .running ⟨hthreads'.base_le, hthreads'.mapOk, hthreads'.otherOk, hthreads'.apart⟩
        (hkept.trans hkept')

theorem Touched.assign {map other : MapVar} {fields : Fields}
    (h : Touched base before heap map other fields) (key : Text) (value : JsValue) :
    Touched base before (heap.assign map.address key value) map other
      (setOwn fields key value) := by
  have hplain : Plain fields := h.holds ▸ (h.mapOk.fresh h.isOwn).2
  rw [Heap.assign, h.holds]
  exact h.set (hplain.setOwn key value)

theorem Touched.remove {map other : MapVar} {fields : Fields}
    (h : Touched base before heap map other fields) (key : Text) :
    Touched base before (heap.remove map.address key) map other (deleteOwn fields key) := by
  have hplain : Plain fields := h.holds ▸ (h.mapOk.fresh h.isOwn).2
  rw [Heap.remove, h.holds]
  exact h.set (hplain.deleteOwn key)

theorem foldItem_simulates (string : Option JsValue → Text) (hok : FoldOk base fold)
    (item : JsValue) :
    Simulates base fold.heap (foldItem string fold item) (viewItem string fold.view item) := by
  have hprojects := ownMap_touched hok.base_le hok.projects hok.threads hok.apart.symm
  have hthreads := ownMap_touched hok.base_le hok.threads hok.projects hok.apart
  by_cases hsnapshot : equalsText (property item (ascii "kind")) "snapshot" = true
  · rw [foldItem, if_pos hsnapshot]
    exact foldSnapshot_simulates hok hsnapshot
  unfold foldItem viewItem
  dsimp only
  rw [if_neg hsnapshot, if_neg hsnapshot]
  split_ifs with hsynchronized hupserted hremoved hthreadUpserted hthreadRemoved
  · exact .running ⟨hok.base_le, hok.threads, hok.projects, hok.apart⟩ fun _ _ => rfl
  · cases hid : idOf string (property item (ascii "project")) with
    | none => exact .threw hprojects.kept
    | some id => exact (hprojects.assign id _).simulates_projects fold.flags.projectTouched
  · exact (hprojects.remove _).simulates_projects fold.flags.projectTouched
  · cases hid : idOf string (property item (ascii "thread")) with
    | none => exact .threw hthreads.kept
    | some id => exact (hthreads.assign id _).simulates_threads _
  · exact (hthreads.remove _).simulates_threads _
  · exact .running hok fun _ _ => rfl

/-! ### Chunks -/

theorem Simulates.after {run : ShellRun} {view : Option ShellView} (hkept : Kept base before heap)
    (h : Simulates base heap run view) : Simulates base before run view := by
  cases h with
  | running hok hlater => exact .running hok (hkept.trans hlater)
  | threw hlater => exact .threw (hkept.trans hlater)

theorem foldItems_simulates (string : Option JsValue → Text) (hok : FoldOk base fold)
    (items : List JsValue) :
    Simulates base fold.heap (foldItems string fold items)
      (items.foldlM (viewItem string) fold.view) := by
  induction items generalizing fold with
  | nil => exact .running hok fun _ _ => rfl
  | cons item items ih =>
      rw [foldItems, List.foldlM_cons]
      have hitem := foldItem_simulates string hok item
      generalize foldItem string fold item = run, viewItem string fold.view item = view at hitem ⊢
      cases hitem with
      | threw hkept => exact .threw hkept
      | running hok' hkept => exact (ih hok').after hkept

theorem Simulates.view_eq {run : ShellRun} {view : Option ShellView}
    (h : Simulates base before run view) : run.view = view := by
  cases h <;> rfl

theorem Simulates.foldOk {view : Option ShellView}
    (h : Simulates base before (.running fold) view) : FoldOk base fold := by
  cases h with
  | running hok _ => exact hok

theorem Simulates.kept {run : ShellRun} {view : Option ShellView}
    (h : Simulates base before run view) : Kept base before run.heap := by
  cases h with
  | running _ hkept => exact hkept
  | threw hkept => exact hkept

/-- The flags of two calls together. -/
def ShellFlags.join (earlier later : ShellFlags) : ShellFlags where
  dirty := earlier.dirty || later.dirty
  ready := earlier.ready || later.ready
  threadsChanged := earlier.threadsChanged || later.threadsChanged
  projectsChanged := earlier.projectsChanged || later.projectsChanged
  events := earlier.events ++ later.events

def ShellView.join (flags : ShellFlags) (view : ShellView) : ShellView :=
  { view with flags := flags.join view.flags }

theorem viewItem_join (flags : ShellFlags) (view : ShellView) (item : JsValue) :
    viewItem string (view.join flags) item =
      (viewItem string view item).map (ShellView.join flags) := by
  unfold viewItem
  dsimp only
  split_ifs
  · cases putValues string [] (arrayField (property item (ascii "snapshot")) "projects") with
    | none => rfl
    | some projectMap =>
        cases putValues string [] (arrayField (property item (ascii "snapshot")) "threads") with
        | none => rfl
        | some threadMap =>
            simp [ShellView.join, ShellFlags.join]
  · simp [ShellView.join, ShellFlags.join]
  · cases idOf string (property item (ascii "project")) with
    | none => rfl
    | some id => simp [ShellView.join, ShellFlags.join, ShellFlags.projectTouched]
  · simp [ShellView.join, ShellFlags.join, ShellFlags.projectTouched]
  · cases idOf string (property item (ascii "thread")) with
    | none => rfl
    | some id => simp [ShellView.join, ShellFlags.join, ShellFlags.threadTouched]
  · simp [ShellView.join, ShellFlags.join, ShellFlags.threadTouched]
  · rfl

theorem foldlM_viewItem_join (flags : ShellFlags) (view : ShellView) (items : List JsValue) :
    items.foldlM (viewItem string) (view.join flags) =
      (items.foldlM (viewItem string) view).map (ShellView.join flags) := by
  induction items generalizing view with
  | nil => rfl
  | cons item items ih =>
      rw [List.foldlM_cons, List.foldlM_cons, viewItem_join]
      cases viewItem string view item with
      | none => rfl
      | some view => exact ih view

/-- The given maps are in memory. -/
def InMemory (heap : Heap) (map : Option Nat) : Prop := ∀ address ∈ map, address < heap.length

theorem orEmpty_ok {map : Option Nat} (hmap : InMemory heap map) :
    heap.length ≤ (orEmpty heap map).1.length ∧
      (orEmpty heap map).2.own = false ∧
      (orEmpty heap map).2.address < (orEmpty heap map).1.length ∧ Kept heap.length heap (orEmpty heap map).1 := by
  cases map with
  | some address => exact ⟨le_rfl, rfl, hmap address rfl, fun _ _ => rfl⟩
  | none => exact ⟨by simp [orEmpty, Heap.alloc], rfl, by simp [orEmpty, Heap.alloc],
      kept_append le_rfl _⟩

theorem startFold_ok {threadMap projectMap : Option Nat} (hthreads : InMemory heap threadMap)
    (hprojects : InMemory heap projectMap) :
    FoldOk (startFold heap threadMap projectMap).heap.length
        (startFold heap threadMap projectMap) ∧
      heap.length ≤ (startFold heap threadMap projectMap).heap.length ∧
      Kept heap.length heap (startFold heap threadMap projectMap).heap := by
  obtain ⟨hle, hown, hinside, hkept⟩ := orEmpty_ok hthreads
  have hprojects' : InMemory (orEmpty heap threadMap).1 projectMap :=
    fun address haddress => lt_of_lt_of_le (hprojects address haddress) hle
  obtain ⟨hle', hown', hinside', hkept'⟩ := orEmpty_ok hprojects'
  have hfirst : (orEmpty heap threadMap).2.address <
      (startFold heap threadMap projectMap).heap.length := lt_of_lt_of_le hinside hle'
  refine ⟨⟨le_rfl, ⟨hfirst, fun h => ?_, fun _ => hfirst⟩,
    ⟨hinside', fun h => ?_, fun _ => hinside'⟩, fun h => ?_⟩, le_trans hle hle',
    fun address hlt => (hkept' address (lt_of_lt_of_le hlt hle)).trans (hkept address hlt)⟩
  · exact absurd (hown.symm.trans h) (by simp)
  · exact absurd (hown'.symm.trans h) (by simp)
  · exact absurd (hown.symm.trans h) (by simp)

theorem applyShellItems_simulates (string : Option JsValue → Text)
    {threadMap projectMap : Option Nat}
    (hthreads : InMemory heap threadMap) (hprojects : InMemory heap projectMap)
    (items : List JsValue) :
    Kept heap.length heap (applyShellItems string heap threadMap projectMap items).heap ∧
      (applyShellItems string heap threadMap projectMap items).view =
        items.foldlM (viewItem string) (startFold heap threadMap projectMap).view ∧
      ∀ fold, applyShellItems string heap threadMap projectMap items = .running fold →
        InMemory fold.heap (some fold.threads.address) ∧
          InMemory fold.heap (some fold.projects.address) := by
  obtain ⟨hok, hle, hkept⟩ := startFold_ok hthreads hprojects
  have hrun := foldItems_simulates string hok items
  refine ⟨fun address hlt => ?_, hrun.view_eq, fun fold hfold => ?_⟩
  · exact (hrun.kept address (lt_of_lt_of_le hlt hle)).trans (hkept address hlt)
  · rw [applyShellItems] at hfold
    rw [hfold] at hrun
    exact ⟨fun address haddress => Option.mem_some.mp haddress ▸ hrun.foldOk.threads.inside,
      fun address haddress => Option.mem_some.mp haddress ▸ hrun.foldOk.projects.inside⟩

end

end T3

end CybexOS
