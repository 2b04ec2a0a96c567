/-
The thread list of the inbox: which section a thread belongs to, the row it is
drawn as, and the counts over the rows.
-/
import CybexOS.Json.JsObject
import CybexOS.T3.History
import Mathlib.Algebra.Order.Ring.Rat

namespace CybexOS

namespace T3

open Json

def DAY_MS : ℚ := 24 * 60 * 60 * 1000

def QUEUED_TURN_GRACE_MS : ℚ := 2 * 60 * 1000

/-! ### Reading a thread -/

/-- `value.name` where the value is an object. -/
def inner (value : Option JsValue) (name : String) : Option JsValue :=
  value.bind (property · (ascii name))

def field (thread : JsValue) (name : String) : Option JsValue := property thread (ascii name)

def isTruthy (value : Option JsValue) : Bool := value.any truthy

/-- `value || null` -/
def orNull (value : Option JsValue) : Option JsValue := value.filter truthy

/-- `typeof value === "string" ? value : null` -/
def stringOrNull : Option JsValue → Option Text
  | some (.str text) => some text
  | _ => none

/-- A request the user has to answer. -/
def isPending (thread : JsValue) : Bool :=
  isTruthy (field thread "hasPendingApprovals") || isTruthy (field thread "hasPendingUserInput")

def sessionStatus (thread : JsValue) : Text := stringOr (inner (field thread "session") "status") []

def turnStatus (thread : JsValue) : Text := stringOr (inner (field thread "latestTurn") "state") []

/-- A session that starts or runs, or a turn that does. -/
def isWorking (thread : JsValue) : Bool :=
  sessionStatus thread = ascii "starting" || sessionStatus thread = ascii "running" ||
    turnStatus thread = ascii "running"

inductive ThreadClass where
  | attention
  | error
  | running
  | monitoring
  | done
  | idle
  | snoozed
  | settled
deriving DecidableEq

def threadClass (thread : JsValue) : ThreadClass :=
  if isPending thread then .attention
  else if isWorking thread then .running
  else if sessionStatus thread = ascii "error" || turnStatus thread = ascii "error" then .error
  else if equalsText (field thread "backgroundLiveness") "working" then .running
  else if equalsText (field thread "backgroundLiveness") "monitoring" then .monitoring
  else if turnStatus thread = ascii "completed" then .done
  else .idle

/-- The left side is a number below the right one. -/
def below (left right : Option ℚ) : Bool :=
  match left, right with
  | some left, some right => left < right
  | _, _ => false

def atMostMs (left right : Option ℚ) : Bool :=
  match left, right with
  | some left, some right => left ≤ right
  | _, _ => false

inductive Lifecycle where
  | active
  | snoozed
  | settled
deriving DecidableEq

structure ThreadRow where
  id : Option JsValue
  projectId : Option JsValue
  title : Text
  project : Text
  cls : ThreadClass
  lifecycle : Lifecycle
  model : Text
  modelSelection : JsValue
  runtimeMode : Text
  interactionMode : Text
  branch : Option Text
  worktreePath : Option Text
  pendingApprovals : Bool
  pendingInput : Bool
  planReady : Bool
  sessionStatus : Text
  foregroundWorking : Bool
  backgroundLiveness : Option Text
  workingStartedAt : Option Text
  canPrompt : Bool
  canLifecycle : Bool
  started : Bool
  settledOverride : Option JsValue
  settledAt : Option JsValue
  snoozedUntil : Option JsValue
  snoozedAt : Option JsValue
  pinned : Bool
  pinnedAt : Option Text
  pinOrderKey : Option Text
  titleRegeneration : Option JsValue
  updatedAt : Text
  createdAt : Text

section

-- a time or a setting that is not a finite number is `none`
variable (dateParse : Text → Option ℤ)

def stampMs (value : Option JsValue) : Option ℚ := (parseMs dateParse value).map Int.cast

/-! ### Lifecycle -/

def firstValidTimestamp (values : List (Option JsValue)) : Option Text :=
  values.findSome? fun value =>
    if (parseMs dateParse value).isSome then stringOrNull value else none

def resolveWorkingStartedAt (thread : JsValue) : Option Text :=
  let turn := field thread "latestTurn"
  let updatedAt := inner (field thread "session") "updatedAt"
  if (inner turn "completedAt").any (strictEquals · .null) then
    firstValidTimestamp dateParse [inner turn "startedAt", inner turn "requestedAt", updatedAt]
  else firstValidTimestamp dateParse [updatedAt]

def lastActivityMs (thread : JsValue) : Option ℚ :=
  let turn := field thread "latestTurn"
  [field thread "latestUserMessageAt", inner turn "requestedAt", inner turn "startedAt",
      inner turn "completedAt"].foldl
    (fun latest stamp =>
      let ms := stampMs dateParse stamp
      if ms.isSome && (latest.isNone || below latest ms) then ms else latest)
    none

def hasQueuedTurnStart (thread : JsValue) (nowMs : Option ℚ) : Bool :=
  match stampMs dateParse (field thread "latestUserMessageAt") with
  | none => false
  | some messageMs =>
      let turn := field thread "latestTurn"
      let stamps := [inner turn "requestedAt", inner turn "startedAt", inner turn "completedAt"]
      if equalsText (inner (field thread "session") "status") "error" then false
      else if nowMs.any fun now => QUEUED_TURN_GRACE_MS < |now - messageMs| then false
      else !stamps.any fun stamp => atMostMs (some messageMs) (stampMs dateParse stamp)

def isEffectivelySettled (thread : JsValue) (nowMs autoSettleAfterDays : Option ℚ) : Bool :=
  if isPending thread then false
  else if sessionStatus thread = ascii "starting" || sessionStatus thread = ascii "running" then
    false
  else
    let settled := equalsText (field thread "settledOverride") "settled"
    let adjudicated := settled &&
      atMostMs (stampMs dateParse (field thread "latestUserMessageAt"))
        (stampMs dateParse (field thread "settledAt"))
    if hasQueuedTurnStart dateParse thread nowMs && !adjudicated then false
    else if settled then true
    else if equalsText (field thread "settledOverride") "active" then false
    else if !below (some 0) autoSettleAfterDays then false
    else
      below (lastActivityMs dateParse thread)
        (nowMs.bind fun now => autoSettleAfterDays.map fun days => now - days * DAY_MS)

def isEffectivelySnoozed (thread : JsValue) (nowMs : Option ℚ) : Bool :=
  let wake := stampMs dateParse (field thread "snoozedUntil")
  if wake.isNone || atMostMs wake nowMs then false
  else if isPending thread then false
  else
    let snoozedAt := stampMs dateParse (field thread "snoozedAt")
    let session := field thread "session"
    let turn := field thread "latestTurn"
    if equalsText (inner session "status") "error" && (snoozedAt.isNone ||
        below snoozedAt (stampMs dateParse (inner session "updatedAt"))) then false
    else if equalsText (inner turn "state") "completed" &&
        below snoozedAt (stampMs dateParse (inner turn "completedAt")) then false
    else true

def canOperateLifecycle (thread : JsValue) (nowMs : Option ℚ) : Bool :=
  if isPending thread then false
  else if isWorking thread then false
  else !hasQueuedTurnStart dateParse thread nowMs

def canPrompt (thread : JsValue) (nowMs : Option ℚ) : Bool :=
  canOperateLifecycle dateParse thread nowMs &&
    !isTrue (field thread "hasActionableProposedPlan")

/-! ### Rows -/

variable (localeCompare : Text → Text → Ordering) (string : Option JsValue → Text)

def isObject : JsValue → Bool
  | .arr _ => true
  | .obj _ => true
  | _ => false

/-- A property of the prototype that every map inherits has no title. -/
def projectThread (thread projectMap : JsValue) (nowMs : Option ℚ) (lifecycle : Lifecycle) :
    ThreadRow :=
  let project := property projectMap (string (field thread "projectId"))
  let cls := match lifecycle with
    | .active => threadClass thread
    | .snoozed => .snoozed
    | .settled => .settled
  let modelSelection := ((field thread "modelSelection").filter isObject).getD (.obj [])
  { id := field thread "id"
    projectId := field thread "projectId"
    title := stringOr (field thread "title") (ascii "Untitled thread")
    project := stringOr (inner project "title") []
    cls := cls
    lifecycle := lifecycle
    model := stringOr (property modelSelection (ascii "model")) []
    modelSelection := modelSelection
    runtimeMode := stringOr (field thread "runtimeMode") (ascii "full-access")
    interactionMode := stringOr (field thread "interactionMode") (ascii "default")
    branch := stringOrNull (field thread "branch")
    worktreePath := stringOrNull (field thread "worktreePath")
    pendingApprovals := isTrue (field thread "hasPendingApprovals")
    pendingInput := isTrue (field thread "hasPendingUserInput")
    planReady := isTrue (field thread "hasActionableProposedPlan")
    sessionStatus := sessionStatus thread
    foregroundWorking := isWorking thread
    backgroundLiveness := (stringOrNull (field thread "backgroundLiveness")).filter fun liveness =>
      liveness = ascii "working" || liveness = ascii "monitoring"
    workingStartedAt :=
      if cls = .running then resolveWorkingStartedAt dateParse thread else none
    canPrompt := lifecycle = .active && canPrompt dateParse thread nowMs
    canLifecycle := canOperateLifecycle dateParse thread nowMs
    started := !isNullish (field thread "latestTurn") || !isNullish (field thread "session")
    settledOverride := orNull (field thread "settledOverride")
    settledAt := orNull (field thread "settledAt")
    snoozedUntil := orNull (field thread "snoozedUntil")
    snoozedAt := orNull (field thread "snoozedAt")
    pinned := (stringOrNull (field thread "pinnedAt")).isSome
    pinnedAt := stringOrNull (field thread "pinnedAt")
    pinOrderKey := stringOrNull (field thread "pinOrderKey")
    titleRegeneration := orNull (field thread "titleRegeneration")
    updatedAt := stringOr (field thread "updatedAt") []
    createdAt := stringOr (field thread "createdAt") [] }

def rank : ThreadClass → Nat
  | .attention => 0
  | .error => 1
  | .running => 2
  | .monitoring => 3
  | .done => 4
  | _ => 5

/-- The later of two texts first, `none` where one is no time or they tie. -/
def compareLater (left right : Text) : Option Ordering :=
  match parseMs dateParse (some (.str left)), parseMs dateParse (some (.str right)) with
  | some left, some right => if right ≠ left then some (compare right left) else none
  | _, _ => none

def tieBreak (left right : ThreadRow) : Ordering :=
  localeCompare (string left.id) (string right.id)

def byRecent (left right : ThreadRow) : Ordering :=
  (compareLater dateParse left.updatedAt right.updatedAt).getD
    (tieBreak localeCompare string left right)

def compareActive (left right : ThreadRow) : Ordering :=
  if rank left.cls ≠ rank right.cls then compare (rank left.cls) (rank right.cls)
  else byRecent dateParse localeCompare string left right

def comparePinned (left right : ThreadRow) : Ordering :=
  match left.pinOrderKey, right.pinOrderKey with
  | some leftKey, some rightKey =>
      if leftKey < rightKey then .lt
      else if rightKey < leftKey then .gt
      else tieBreak localeCompare string left right
  | some _, none => .lt
  | none, some _ => .gt
  | none, none =>
      (compareLater dateParse left.createdAt right.createdAt).getD
        (tieBreak localeCompare string left right)

/-- `rows.sort(compareRows)` -/
def sortRows (compareRows : ThreadRow → ThreadRow → Ordering) (rows : List ThreadRow) :
    List ThreadRow := rows.insertionSort fun left right => compareRows left right ≠ .gt

/-! ### Sections -/

/-- The lists and counts of `classifyThreads`. -/
structure Sections where
  active : List ThreadRow
  pinned : List ThreadRow
  snoozed : List ThreadRow
  settled : List ThreadRow
  runningCount : Nat
  monitoringCount : Nat
  attentionCount : Nat
  doneCount : Nat

def Sections.countClass (sections : Sections) (cls : ThreadClass) : Sections :=
  match cls with
  | .running => { sections with runningCount := sections.runningCount + 1 }
  | .monitoring => { sections with monitoringCount := sections.monitoringCount + 1 }
  | .attention => { sections with attentionCount := sections.attentionCount + 1 }
  | .error => { sections with attentionCount := sections.attentionCount + 1 }
  | .done => { sections with doneCount := sections.doneCount + 1 }
  | _ => sections

def isArchived (thread : JsValue) : Bool := !truthy thread || isTruthy (field thread "archivedAt")

section

variable (projectMap : JsValue) (nowMs autoSettleAfterDays : Option ℚ)

/-- One turn of the loop. -/
def placeThread (sections : Sections) (thread : JsValue) : Sections :=
  let row := projectThread dateParse string thread projectMap nowMs
  if isArchived thread then sections
  -- a snooze wins over settledness and over a pin
  else if isEffectivelySnoozed dateParse thread nowMs then
    { sections with snoozed := sections.snoozed ++ [row .snoozed] }
  -- a pin beats settledness
  else if (stringOrNull (field thread "pinnedAt")).isSome then
    { sections with pinned := sections.pinned ++ [row .active] }.countClass (row .active).cls
  else if isEffectivelySettled dateParse thread nowMs autoSettleAfterDays then
    { sections with settled := sections.settled ++ [row .settled] }
  else
    { sections with active := sections.active ++ [row .active] }.countClass (row .active).cls

/-- The threads of the map, as `for (var id in source)` meets them. -/
def threadsOf (threadMap : JsValue) : List JsValue :=
  if isObject threadMap then (ownProps threadMap).map Prod.snd else []

def classifyThreads (threadMap : JsValue) : Sections :=
  let placed := (threadsOf threadMap).foldl
    (placeThread dateParse string projectMap nowMs autoSettleAfterDays) ⟨[], [], [], [], 0, 0, 0, 0⟩
  { placed with
    active := sortRows (compareActive dateParse localeCompare string) placed.active
    pinned := sortRows (comparePinned dateParse localeCompare string) placed.pinned
    snoozed := sortRows (byRecent dateParse localeCompare string) placed.snoozed
    settled := sortRows (byRecent dateParse localeCompare string) placed.settled }

end

/-! ### Every thread has one row -/

/-- The counts are those of the live rows. -/
structure Sections.Counted (sections : Sections) : Prop where
  running : sections.runningCount =
    (sections.active ++ sections.pinned).countP fun row => row.cls = .running
  monitoring : sections.monitoringCount =
    (sections.active ++ sections.pinned).countP fun row => row.cls = .monitoring
  attention : sections.attentionCount =
    (sections.active ++ sections.pinned).countP fun row => row.cls = .attention ∨ row.cls = .error
  done : sections.doneCount =
    (sections.active ++ sections.pinned).countP fun row => row.cls = .done

/-- Threads dealt out among the sections, none with a request in the quiet
ones, each shown as its row. -/
structure Dealt (row : JsValue → Lifecycle → ThreadRow) (threads : List JsValue)
    (sections : Sections) (active pinned snoozed settled : List JsValue) : Prop where
  all : (active ++ pinned ++ snoozed ++ settled).Perm threads
  activeRows : sections.active.Perm (active.map (row · .active))
  pinnedRows : sections.pinned.Perm (pinned.map (row · .active))
  snoozedRows : sections.snoozed.Perm (snoozed.map (row · .snoozed))
  settledRows : sections.settled.Perm (settled.map (row · .settled))
  quiet : ∀ thread ∈ snoozed ++ settled, isPending thread = false

section

variable {row : JsValue → Lifecycle → ThreadRow} {threads : List JsValue} {sections : Sections}
  {active pinned snoozed settled : List JsValue} {thread : JsValue}

theorem Sections.Counted.add_active (h : sections.Counted) (added : ThreadRow) :
    ({ sections with active := sections.active ++ [added] }.countClass added.cls).Counted := by
  obtain ⟨hrunning, hmonitoring, hattention, hdone⟩ := h
  unfold Sections.countClass
  constructor <;> cases hcls : added.cls <;> simp_all [List.countP_append] <;> omega

theorem Sections.Counted.add_pinned (h : sections.Counted) (added : ThreadRow) :
    ({ sections with pinned := sections.pinned ++ [added] }.countClass added.cls).Counted := by
  obtain ⟨hrunning, hmonitoring, hattention, hdone⟩ := h
  unfold Sections.countClass
  constructor <;> cases hcls : added.cls <;> simp_all [List.countP_append] <;> omega

theorem Dealt.countClass (h : Dealt row threads sections active pinned snoozed settled)
    (cls : ThreadClass) :
    Dealt row threads (sections.countClass cls) active pinned snoozed settled := by
  cases cls <;> exact ⟨h.all, h.activeRows, h.pinnedRows, h.snoozedRows, h.settledRows, h.quiet⟩

theorem perm_move_last {α : Type} (front back : List α) (item : α) :
    (front ++ [item] ++ back).Perm (front ++ back ++ [item]) := by
  rw [List.append_assoc, List.append_assoc]
  exact List.perm_append_comm.append_left front

theorem Dealt.add_active (h : Dealt row threads sections active pinned snoozed settled) :
    Dealt row (threads ++ [thread])
      { sections with active := sections.active ++ [row thread .active] }
      (active ++ [thread]) pinned snoozed settled where
  all := by
    have hmoved := perm_move_last active (pinned ++ snoozed ++ settled) thread
    simp only [List.append_assoc] at hmoved ⊢
    exact hmoved.trans (by simpa only [List.append_assoc] using h.all.append_right [thread])
  activeRows := by
    rw [List.map_append, List.map_singleton]
    exact h.activeRows.append_right _
  pinnedRows := h.pinnedRows
  snoozedRows := h.snoozedRows
  settledRows := h.settledRows
  quiet := h.quiet

theorem Dealt.add_pinned (h : Dealt row threads sections active pinned snoozed settled) :
    Dealt row (threads ++ [thread])
      { sections with pinned := sections.pinned ++ [row thread .active] }
      active (pinned ++ [thread]) snoozed settled where
  all := by
    have hmoved := perm_move_last (active ++ pinned) (snoozed ++ settled) thread
    simp only [List.append_assoc] at hmoved ⊢
    exact hmoved.trans (by simpa only [List.append_assoc] using h.all.append_right [thread])
  activeRows := h.activeRows
  pinnedRows := by
    rw [List.map_append, List.map_singleton]
    exact h.pinnedRows.append_right _
  snoozedRows := h.snoozedRows
  settledRows := h.settledRows
  quiet := h.quiet

theorem Dealt.add_snoozed (h : Dealt row threads sections active pinned snoozed settled)
    (hquiet : isPending thread = false) :
    Dealt row (threads ++ [thread])
      { sections with snoozed := sections.snoozed ++ [row thread .snoozed] }
      active pinned (snoozed ++ [thread]) settled where
  all := by
    have hmoved := perm_move_last (active ++ pinned ++ snoozed) settled thread
    simp only [List.append_assoc] at hmoved ⊢
    exact hmoved.trans (by simpa only [List.append_assoc] using h.all.append_right [thread])
  activeRows := h.activeRows
  pinnedRows := h.pinnedRows
  snoozedRows := by
    rw [List.map_append, List.map_singleton]
    exact h.snoozedRows.append_right _
  settledRows := h.settledRows
  quiet := by
    intro other hother
    have hcases : other = thread ∨ other ∈ snoozed ++ settled := by
      simp only [List.mem_append, List.mem_singleton] at hother ⊢
      tauto
    rcases hcases with rfl | hbefore
    · exact hquiet
    · exact h.quiet other hbefore

theorem Dealt.add_settled (h : Dealt row threads sections active pinned snoozed settled)
    (hquiet : isPending thread = false) :
    Dealt row (threads ++ [thread])
      { sections with settled := sections.settled ++ [row thread .settled] }
      active pinned snoozed (settled ++ [thread]) where
  all := by
    rw [← List.append_assoc]
    exact h.all.append_right _
  activeRows := h.activeRows
  pinnedRows := h.pinnedRows
  snoozedRows := h.snoozedRows
  settledRows := by
    rw [List.map_append, List.map_singleton]
    exact h.settledRows.append_right _
  quiet := by
    intro other hother
    rw [← List.append_assoc] at hother
    rcases List.mem_append.mp hother with hbefore | hlast
    · exact h.quiet other hbefore
    · rw [List.mem_singleton.mp hlast]
      exact hquiet

end

theorem not_pending_of_snoozed {thread : JsValue} {nowMs : Option ℚ}
    (h : isEffectivelySnoozed dateParse thread nowMs = true) : isPending thread = false := by
  unfold isEffectivelySnoozed at h
  dsimp only at h
  by_contra hpending
  rw [Bool.not_eq_false] at hpending
  rw [if_pos hpending] at h
  split_ifs at h

theorem not_pending_of_settled {thread : JsValue} {nowMs autoSettleAfterDays : Option ℚ}
    (h : isEffectivelySettled dateParse thread nowMs autoSettleAfterDays = true) :
    isPending thread = false := by
  unfold isEffectivelySettled at h
  by_contra hpending
  rw [Bool.not_eq_false] at hpending
  rw [if_pos hpending] at h
  cases h

section

variable (projectMap : JsValue) (nowMs autoSettleAfterDays : Option ℚ)

/-- The sections that the threads so far have been dealt to. -/
def Placed (threads : List JsValue) (sections : Sections) : Prop :=
  sections.Counted ∧ ∃ active pinned snoozed settled,
    Dealt (fun thread => projectThread dateParse string thread projectMap nowMs)
      (threads.filter fun thread => !isArchived thread) sections active pinned snoozed settled

variable {projectMap nowMs}

theorem Placed.step {threads : List JsValue} {sections : Sections}
    (h : Placed dateParse string projectMap nowMs threads sections) (thread : JsValue) :
    Placed dateParse string projectMap nowMs (threads ++ [thread])
      (placeThread dateParse string projectMap nowMs autoSettleAfterDays sections thread) := by
  obtain ⟨hcounted, active, pinned, snoozed, settled, hdealt⟩ := h
  rw [Placed, List.filter_append]
  unfold placeThread
  dsimp only
  by_cases harchived : isArchived thread = true
  · rw [if_pos harchived, List.filter_cons_of_neg (by simp [harchived]), List.filter_nil,
      List.append_nil]
    exact ⟨hcounted, active, pinned, snoozed, settled, hdealt⟩
  · rw [if_neg harchived, List.filter_cons_of_pos (by simpa using harchived), List.filter_nil]
    split_ifs with hsnoozed hpinned hsettled
    · exact ⟨⟨hcounted.running, hcounted.monitoring, hcounted.attention, hcounted.done⟩,
        _, _, _, _, hdealt.add_snoozed (not_pending_of_snoozed dateParse hsnoozed)⟩
    · exact ⟨hcounted.add_pinned _, _, _, _, _, hdealt.add_pinned.countClass _⟩
    · exact ⟨⟨hcounted.running, hcounted.monitoring, hcounted.attention, hcounted.done⟩,
        _, _, _, _, hdealt.add_settled (not_pending_of_settled dateParse hsettled)⟩
    · exact ⟨hcounted.add_active _, _, _, _, _, hdealt.add_active.countClass _⟩

theorem Placed.loop {before : List JsValue} {sections : Sections}
    (h : Placed dateParse string projectMap nowMs before sections) (later : List JsValue) :
    Placed dateParse string projectMap nowMs (before ++ later)
      (later.foldl (placeThread dateParse string projectMap nowMs autoSettleAfterDays)
        sections) := by
  induction later generalizing before sections with
  | nil => rwa [List.append_nil]
  | cons thread later ih =>
      rw [List.append_cons]
      exact ih (h.step dateParse string autoSettleAfterDays thread)

end

theorem sortRows_perm (compareRows : ThreadRow → ThreadRow → Ordering) (rows : List ThreadRow) :
    (sortRows compareRows rows).Perm rows := List.perm_insertionSort _ rows

/-- Every thread that is not archived has exactly one row, in one of the four
sections, no other thread has one, the counts are those of the live rows, and
a thread with a request is a live row of class attention. -/
theorem classifyThreads_deals (threadMap projectMap : JsValue)
    (nowMs autoSettleAfterDays : Option ℚ) :
    let sections := classifyThreads dateParse localeCompare string projectMap nowMs
      autoSettleAfterDays threadMap
    let row := fun thread => projectThread dateParse string thread projectMap nowMs
    sections.Counted ∧ ∃ active pinned snoozed settled,
      Dealt row ((threadsOf threadMap).filter fun thread => !isArchived thread) sections
        active pinned snoozed settled ∧
      ∀ thread ∈ threadsOf threadMap, isArchived thread = false → isPending thread = true →
        (thread ∈ active ∨ thread ∈ pinned) ∧ (row thread .active).cls = .attention := by
  intro sections row
  have hstart : Placed dateParse string projectMap nowMs [] ⟨[], [], [], [], 0, 0, 0, 0⟩ :=
    ⟨⟨rfl, rfl, rfl, rfl⟩, [], [], [], [], List.Perm.nil, List.Perm.nil, List.Perm.nil,
      List.Perm.nil, List.Perm.nil, fun _ h => (by cases h)⟩
  obtain ⟨hcounted, active, pinned, snoozed, settled, hdealt⟩ :=
    hstart.loop dateParse string autoSettleAfterDays (threadsOf threadMap)
  rw [List.nil_append] at hdealt
  generalize hplaced : (threadsOf threadMap).foldl _ _ = placed at hcounted hdealt
  have hactive : sections.active.Perm placed.active := hplaced ▸ sortRows_perm _ _
  have hpinned : sections.pinned.Perm placed.pinned := hplaced ▸ sortRows_perm _ _
  have hsnoozed : sections.snoozed.Perm placed.snoozed := hplaced ▸ sortRows_perm _ _
  have hsettled : sections.settled.Perm placed.settled := hplaced ▸ sortRows_perm _ _
  have hrows := (hactive.append hpinned).countP_eq
  have hcounts : sections.runningCount = placed.runningCount ∧
      sections.monitoringCount = placed.monitoringCount ∧
      sections.attentionCount = placed.attentionCount ∧
      sections.doneCount = placed.doneCount := by
    rw [← hplaced]
    exact ⟨rfl, rfl, rfl, rfl⟩
  refine ⟨⟨?_, ?_, ?_, ?_⟩, active, pinned, snoozed, settled,
    ⟨hdealt.all, hactive.trans hdealt.activeRows, hpinned.trans hdealt.pinnedRows,
      hsnoozed.trans hdealt.snoozedRows, hsettled.trans hdealt.settledRows, hdealt.quiet⟩, ?_⟩
  · rw [hcounts.1, hcounted.running, hrows]
  · rw [hcounts.2.1, hcounted.monitoring, hrows]
  · rw [hcounts.2.2.1, hcounted.attention, hrows]
  · rw [hcounts.2.2.2, hcounted.done, hrows]
  · intro thread hthread hkept hpending
    have hdealtTo : thread ∈ active ++ pinned ++ snoozed ++ settled :=
      hdealt.all.mem_iff.mpr (List.mem_filter.mpr ⟨hthread, by rw [hkept]; rfl⟩)
    refine ⟨?_, by simp only [row, projectThread, threadClass, if_pos hpending]⟩
    rw [List.append_assoc, List.mem_append, List.mem_append] at hdealtTo
    rcases hdealtTo with hlive | hquiet
    · exact hlive
    · rw [hdealt.quiet thread hquiet] at hpending
      cases hpending

end

end T3

end CybexOS
