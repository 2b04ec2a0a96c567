/-
The agents a thread still counts as live: the fold of its task activities and
the settlement of workflow members.
-/
import CybexOS.Json.Js
import CybexOS.JsString
import CybexOS.T3.History

namespace CybexOS

namespace T3

open Json

/-! ### Agents -/

inductive AgentStatus where
  | pending
  | running
  | waiting
  | idle
  | completed
  | failed
  | cancelled
  | interrupted
deriving DecidableEq

def AgentStatus.terminal : AgentStatus → Bool
  | .completed | .failed | .cancelled | .interrupted => true
  | _ => false

def AgentStatus.active : AgentStatus → Bool
  | .pending | .running | .waiting => true
  | _ => false

structure Agent where
  id : Text
  status : AgentStatus
  workflow : Bool
  parentAgentId : Text
deriving DecidableEq

def STATUS_NAMES : List (String × AgentStatus) :=
  [("pending", .pending), ("running", .running), ("waiting", .waiting), ("idle", .idle),
    ("completed", .completed), ("failed", .failed), ("cancelled", .cancelled),
    ("interrupted", .interrupted)]

/-- `none` for any other value. -/
def knownStatus (value : Option JsValue) : Option AgentStatus :=
  (STATUS_NAMES.find? fun status => equalsText value status.1).map Prod.snd

def Agent.applyStatus (agent : Agent) : Option AgentStatus → Agent
  | none => agent
  | some status =>
      if agent.status.terminal && status.terminal then agent else { agent with status := status }

/-! ### Folding the activities -/

/-- What a lifecycle row does to the status of its agent. -/
def Agent.fold (agent : Agent) (existed : Bool) (kind : Option JsValue) (payload : JsValue) :
    Agent :=
  let status := property payload (ascii "status")
  if equalsText kind "task.started" then
    -- a late start neither reopens a settled agent nor wakes a waiting one
    if !existed || agent.status = .idle then agent.applyStatus (some .running) else agent
  else if equalsText kind "task.progress" then
    match knownStatus status with
    | some progressStatus => agent.applyStatus (some progressStatus)
    | none =>
        if (!isTrue (property payload (ascii "usageSnapshot")) || !existed) &&
            !agent.status.terminal && agent.status ≠ .idle then
          agent.applyStatus (some .running)
        else agent
  else if equalsText kind "task.updated" then agent.applyStatus (knownStatus status)
  else if equalsText kind "task.completed" then
    if !agent.status.terminal then
      agent.applyStatus (some (if equalsText status "failed" then .failed
        else if equalsText status "stopped" then .interrupted else .completed))
    else agent
  else agent

/-- A payload stamps an agent once and later fills in what it lacks. -/
def Agent.restamp (agent : Agent) (payload : JsValue) : Agent :=
  let parent := stringOr (property payload (ascii "parentAgentId")) []
  { agent with
    workflow := agent.workflow || equalsText (property payload (ascii "taskType")) "local_workflow"
    parentAgentId := if parent ≠ [] then parent else agent.parentAgentId }

def stampAgent (taskId : Text) (payload : JsValue) : Agent where
  id := taskId
  status := .pending
  workflow := equalsText (property payload (ascii "taskType")) "local_workflow"
  parentAgentId := stringOr (property payload (ascii "parentAgentId")) []

/-- One row; values without a task id, objects or not, are passed over. -/
def foldActivity (agents : List Agent) (activity : JsValue) : List Agent :=
  match property activity (ascii "payload") with
  | none => agents
  | some payload =>
      let taskId := jsTrim (stringOr (property payload (ascii "taskId")) [])
      let kind := property activity (ascii "kind")
      if taskId = [] then agents
      else if taskId ∈ agents.map Agent.id then
        agents.map fun agent =>
          if agent.id = taskId then (agent.restamp payload).fold true kind payload else agent
      else if equalsText (property payload (ascii "agentKind")) "agent" then
        agents ++ [(stampAgent taskId payload).fold false kind payload]
      else agents

/-- `Object.keys` order: array indices first, ascending, then as first seen. -/
def keyOrder (agents : List Agent) : List Agent :=
  (agents.filter (isArrayIndex ·.id)).insertionSort (fun a b => decimal a.id ≤ decimal b.id) ++
    agents.filter (!isArrayIndex ·.id)

def foldAgents (activities : JsValue) : List Agent :=
  keyOrder ((arrayOf activities).foldl foldActivity [])

/-! ### Settlement -/

def Agent.settle (status : AgentStatus) (agent : Agent) : Agent :=
  if agent.status.active then { agent with status := status } else agent

/-- The turn of one coordinator. -/
def settleMembers (agents : List Agent) (k : Nat) : List Agent :=
  match agents[k]? with
  | some coordinator =>
      if coordinator.workflow && coordinator.status.terminal then
        agents.map fun member =>
          if member.parentAgentId = coordinator.id then
            member.settle
              (if coordinator.status = .completed then .completed else .interrupted)
          else member
      else agents
  | none => agents

def propagate (agents : List Agent) : List Agent :=
  (List.range agents.length).foldl settleMembers agents

/-- The agents as `liveAgentCount` leaves them. -/
def settledAgents (activities sessionLive : JsValue) : List Agent :=
  let agents := propagate (foldAgents activities)
  if strictEquals sessionLive (.bool false) then agents.map (Agent.settle .interrupted)
  else agents

def liveAgentCount (activities sessionLive : JsValue) : Nat :=
  (settledAgents activities sessionLive).countP (·.status.active)

/-! ### One agent for each id -/

theorem Agent.fold_id (agent : Agent) (existed : Bool) (kind : Option JsValue)
    (payload : JsValue) : (agent.fold existed kind payload).id = agent.id := by
  have happly : ∀ status, (agent.applyStatus status).id = agent.id := by
    intro status
    cases status with
    | none => rfl
    | some status =>
        rw [applyStatus]
        split_ifs <;> rfl
  unfold Agent.fold
  dsimp only
  repeat' split
  all_goals first
    | rfl
    | exact happly _

theorem foldActivity_ids {agents : List Agent} (h : (agents.map Agent.id).Nodup)
    (activity : JsValue) : ((foldActivity agents activity).map Agent.id).Nodup := by
  unfold foldActivity
  split
  · exact h
  · next payload _ =>
    dsimp only
    split_ifs with hempty hmem hagent
    · exact h
    · rw [List.map_map]
      convert h using 2
      funext agent
      rw [Function.comp_apply]
      split_ifs with hid
      · exact Agent.fold_id _ _ _ _
      · rfl
    · rw [List.map_append, List.map_singleton, Agent.fold_id]
      refine List.nodup_append.mpr ⟨h, List.nodup_singleton _, ?_⟩
      rintro id hid _ hnew rfl
      have hnew : id = jsTrim (stringOr (property payload (ascii "taskId")) []) :=
        List.mem_singleton.mp hnew
      exact hmem (hnew ▸ hid)
    · exact h

theorem keyOrder_perm (agents : List Agent) : (keyOrder agents).Perm agents := by
  unfold keyOrder
  exact ((List.perm_insertionSort _ _).append_right _).trans (List.filter_append_perm _ agents)

theorem foldAgents_ids (activities : JsValue) :
    ((foldAgents activities).map Agent.id).Nodup := by
  unfold foldAgents
  rw [((keyOrder_perm _).map Agent.id).nodup_iff]
  have hloop : ∀ (values : List JsValue) (agents : List Agent), (agents.map Agent.id).Nodup →
      ((values.foldl foldActivity agents).map Agent.id).Nodup := by
    intro values
    induction values with
    | nil => exact fun _ h => h
    | cons activity values ih => exact fun agents h => ih _ (foldActivity_ids h activity)
  exact hloop _ [] List.nodup_nil

/-! ### What the propagation settles -/

section

variable (agents : List Agent)

/-- The workflow at this place is settled when its turn comes: it has ended,
or it is a live member of a workflow listed before it that is settled in its
own turn. -/
inductive SettledInTurn : Nat → Prop where
  | ended {k : Nat} {coordinator : Agent} (hk : agents[k]? = some coordinator)
      (hworkflow : coordinator.workflow = true) (hterminal : coordinator.status.terminal = true) :
      SettledInTurn k
  | member {j k : Nat} {parent coordinator : Agent} (hk : agents[k]? = some coordinator)
      (hworkflow : coordinator.workflow = true) (hactive : coordinator.status.active = true)
      (hlt : j < k) (hj : agents[j]? = some parent)
      (hparent : coordinator.parentAgentId = parent.id) (hsettled : SettledInTurn j) : SettledInTurn k

/-- A live agent whose coordinator had its turn, settled, before turn `k`. -/
def Reached (k : Nat) (agent : Agent) : Prop :=
  agent.status.active = true ∧
    ∃ j < k, SettledInTurn agents j ∧ ∃ parent, agents[j]? = some parent ∧
      agent.parentAgentId = parent.id

/-- Before turn `k` the reached agents are settled and the others untouched. -/
structure SettledBefore (k : Nat) (agent now : Agent) : Prop where
  id : now.id = agent.id
  workflow : now.workflow = agent.workflow
  parentAgentId : now.parentAgentId = agent.parentAgentId
  reached : Reached agents k agent → now.status.terminal = true
  untouched : ¬ Reached agents k agent → now.status = agent.status

variable {agents}

theorem not_terminal_of_active {status : AgentStatus} (h : status.active = true) :
    status.terminal = false := by
  cases status with
  | pending | running | waiting => rfl
  | _ => cases h

/-- A coordinator settles in its turn exactly where it is settled in turn. -/
theorem settles_iff {k : Nat} {coordinator now : Agent} (hk : agents[k]? = some coordinator)
    (h : SettledBefore agents k coordinator now) :
    (now.workflow && now.status.terminal) = true ↔ SettledInTurn agents k := by
  rw [Bool.and_eq_true, h.workflow]
  constructor
  · rintro ⟨hworkflow, hterminal⟩
    by_cases hreached : Reached agents k coordinator
    · obtain ⟨hactive, j, hlt, hsettled, parent, hj, hparent⟩ := hreached
      exact SettledInTurn.member hk hworkflow hactive hlt hj hparent hsettled
    · rw [h.untouched hreached] at hterminal
      exact SettledInTurn.ended hk hworkflow hterminal
  · intro hsettled
    cases hsettled with
    | ended hk' hworkflow hterminal =>
        rw [hk] at hk'
        cases hk'
        have hnot : ¬ Reached agents k coordinator := fun hreached => by
          rw [not_terminal_of_active hreached.1] at hterminal
          cases hterminal
        exact ⟨hworkflow, by rw [h.untouched hnot, hterminal]⟩
    | member hk' hworkflow hactive hlt hj hparent hsettled =>
        rw [hk] at hk'
        cases hk'
        exact ⟨hworkflow, h.reached ⟨hactive, _, hlt, hsettled, _, hj, hparent⟩⟩

theorem reached_succ {k : Nat} {agent : Agent} :
    Reached agents (k + 1) agent ↔ Reached agents k agent ∨
      agent.status.active = true ∧ SettledInTurn agents k ∧
        ∃ parent, agents[k]? = some parent ∧ agent.parentAgentId = parent.id := by
  constructor
  · rintro ⟨hactive, j, hlt, hsettled, hparent⟩
    rcases Nat.lt_succ_iff_lt_or_eq.mp hlt with hbefore | rfl
    · exact Or.inl ⟨hactive, j, hbefore, hsettled, hparent⟩
    · exact Or.inr ⟨hactive, hsettled, hparent⟩
  · rintro (⟨hactive, j, hlt, hsettled, hparent⟩ | ⟨hactive, hsettled, hparent⟩)
    · exact ⟨hactive, j, Nat.lt_succ_of_lt hlt, hsettled, hparent⟩
    · exact ⟨hactive, k, Nat.lt_succ_self k, hsettled, hparent⟩

/-- Nothing is reached in a turn that settles nobody or another's members. -/
theorem SettledBefore.keep {k : Nat} {agent now : Agent} (h : SettledBefore agents k agent now)
    (hother : SettledInTurn agents k → ∀ parent, agents[k]? = some parent →
      agent.parentAgentId ≠ parent.id) : SettledBefore agents (k + 1) agent now where
  id := h.id
  workflow := h.workflow
  parentAgentId := h.parentAgentId
  reached := fun hreached => (reached_succ.mp hreached).elim h.reached
    fun ⟨_, hsettled, parent, hk, hparent⟩ => absurd hparent (hother hsettled parent hk)
  untouched := fun hnot => h.untouched fun hreached => hnot (reached_succ.mpr (Or.inl hreached))

/-- A member of the coordinator that has its turn. -/
theorem SettledBefore.settle {k : Nat} {agent now parent : Agent}
    (h : SettledBefore agents k agent now) (hk : agents[k]? = some parent)
    (hparent : agent.parentAgentId = parent.id) (hsettled : SettledInTurn agents k)
    {status : AgentStatus} (hstatus : status.terminal = true) :
    SettledBefore agents (k + 1) agent (now.settle status) := by
  have hfields : (now.settle status).id = now.id ∧ (now.settle status).workflow = now.workflow ∧
      (now.settle status).parentAgentId = now.parentAgentId := by
    unfold Agent.settle
    split_ifs <;> exact ⟨rfl, rfl, rfl⟩
  refine ⟨hfields.1.trans h.id, hfields.2.1.trans h.workflow, hfields.2.2.trans h.parentAgentId,
    fun hreached => ?_, fun hnot => ?_⟩
  · unfold Agent.settle
    split_ifs with hactive
    · exact hstatus
    · refine h.reached (Classical.byContradiction fun hbefore => ?_)
      rw [h.untouched hbefore] at hactive
      exact hactive hreached.1
  · have hquiet : ¬ Reached agents k agent := fun hreached =>
      hnot (reached_succ.mpr (Or.inl hreached))
    have hinactive : agent.status.active ≠ true := fun hactive =>
      hnot (reached_succ.mpr (Or.inr ⟨hactive, hsettled, parent, hk, hparent⟩))
    unfold Agent.settle
    rw [if_neg (by rw [h.untouched hquiet]; exact hinactive)]
    exact h.untouched hquiet

/-- The whole list before turn `k`. -/
def AllSettledBefore (agents : List Agent) (k : Nat) (now : List Agent) : Prop :=
  List.Forall₂ (SettledBefore agents k) agents now

theorem AllSettledBefore.turn {k : Nat} {now : List Agent} (h : AllSettledBefore agents k now)
    (hlt : k < agents.length) : AllSettledBefore agents (k + 1) (settleMembers now k) := by
  have hk : agents[k]? = some agents[k] := List.getElem?_eq_getElem hlt
  have hlt' : k < now.length := h.length_eq ▸ hlt
  have hcoordinator : SettledBefore agents k agents[k] now[k] :=
    (List.forall₂_iff_get.mp h).2 k hlt hlt'
  have hstatus : (if now[k].status = .completed then AgentStatus.completed
      else .interrupted).terminal = true := by
    split_ifs <;> rfl
  rw [settleMembers, List.getElem?_eq_getElem hlt']
  dsimp only
  generalize (if now[k].status = .completed then AgentStatus.completed else .interrupted) =
    status at hstatus
  split_ifs with hsettles
  · have hsettled : SettledInTurn agents k := (settles_iff hk hcoordinator).mp hsettles
    refine List.forall₂_map_right_iff.mpr (h.imp fun agent member hmember => ?_)
    split_ifs with hparent
    · refine hmember.settle hk ?_ hsettled hstatus
      rw [← hmember.parentAgentId, hparent, hcoordinator.id]
    · refine hmember.keep fun _ parent hparent' heq => hparent ?_
      rw [hk] at hparent'
      cases hparent'
      rw [hmember.parentAgentId, heq, hcoordinator.id]
  · refine h.imp fun agent member hmember => hmember.keep fun hsettled => ?_
    exact absurd ((settles_iff hk hcoordinator).mpr hsettled) hsettles

theorem allSettled_propagate (agents : List Agent) :
    AllSettledBefore agents agents.length (propagate agents) := by
  have hturns : ∀ k ≤ agents.length,
      AllSettledBefore agents k ((List.range k).foldl settleMembers agents) := by
    intro k
    induction k with
    | zero =>
        intro _
        refine List.forall₂_same.mpr fun agent _ => ⟨rfl, rfl, rfl, ?_, fun _ => rfl⟩
        rintro ⟨-, j, hlt, -⟩
        exact absurd hlt (Nat.not_lt_zero j)
    | succ k ih =>
        intro hle
        rw [List.range_succ, List.foldl_append, List.foldl_cons, List.foldl_nil]
        exact (ih (Nat.le_of_succ_le hle)).turn hle
  exact hturns agents.length le_rfl

/-- No live agent belongs to a workflow that has ended. -/
def ClosedUnderSettlement (agents : List Agent) : Prop :=
  ∀ member ∈ agents, member.status.active = true → ∀ coordinator ∈ agents,
    coordinator.workflow = true → coordinator.id = member.parentAgentId →
      coordinator.status.terminal = false

instance (agents : List Agent) : Decidable (ClosedUnderSettlement agents) :=
  inferInstanceAs (Decidable (∀ member ∈ agents, member.status.active = true →
    ∀ coordinator ∈ agents, coordinator.workflow = true →
      coordinator.id = member.parentAgentId → coordinator.status.terminal = false))

/-- A live workflow listed before its own coordinator, which is settled when
its turn comes. -/
def SettledLate (agents : List Agent) (k : Nat) (workflow : Agent) : Prop :=
  agents[k]? = some workflow ∧ workflow.workflow = true ∧ workflow.status.active = true ∧
    ∃ j > k, SettledInTurn agents j ∧ ∃ parent, agents[j]? = some parent ∧
      workflow.parentAgentId = parent.id

theorem index_eq_of_id {agents : List Agent} (hids : (agents.map Agent.id).Nodup) {j k : Nat}
    {left right : Agent} (hj : agents[j]? = some left) (hk : agents[k]? = some right)
    (hid : left.id = right.id) : j = k := by
  have hj' : (agents.map Agent.id)[j]? = some left.id := by rw [List.getElem?_map, hj]; rfl
  have hk' : (agents.map Agent.id)[k]? = some left.id := by rw [List.getElem?_map, hk, hid]; rfl
  exact (List.getElem?_inj (List.getElem?_eq_some_iff.mp hj').1 hids).mp (hj'.trans hk'.symm)

/-- An agent that stays live, and the place of a workflow it belongs to. -/
theorem member_of_settledLate {agents : List Agent} (hids : (agents.map Agent.id).Nodup)
    {k : Nat} {workflow member : Agent} (hlate : SettledLate agents k workflow)
    (hparent : member.parentAgentId = workflow.id) : ¬ Reached agents agents.length member := by
  obtain ⟨hk, -, hactive, j, hlt, -, parent, hj, hworkflow⟩ := hlate
  rintro ⟨-, turn, -, hsettled, coordinator, hturn, hcoordinator⟩
  have heq : turn = k := index_eq_of_id hids hturn hk (hcoordinator ▸ hparent)
  subst heq
  cases hsettled with
  | ended hk' _ hterminal =>
      rw [hk] at hk'
      cases hk'
      rw [not_terminal_of_active hactive] at hterminal
      cases hterminal
  | member hk' _ _ hbefore hj' hparent' _ =>
      rw [hk] at hk'
      cases hk'
      have := index_eq_of_id hids hj hj' (hworkflow ▸ hparent')
      omega

theorem propagate_closed_iff {agents : List Agent} (hids : (agents.map Agent.id).Nodup) :
    ClosedUnderSettlement (propagate agents) ↔
      ∀ k workflow, SettledLate agents k workflow → ∀ member ∈ agents,
        member.parentAgentId = workflow.id → member.status.active = false := by
  have hall := allSettled_propagate agents
  have hafter : ∀ {k : Nat} {agent : Agent}, agents[k]? = some agent →
      ∃ now, (propagate agents)[k]? = some now ∧
        SettledBefore agents agents.length agent now := by
    intro k agent hk
    obtain ⟨hlt, rfl⟩ := List.getElem?_eq_some_iff.mp hk
    have hlt' : k < (propagate agents).length := hall.length_eq ▸ hlt
    exact ⟨_, List.getElem?_eq_getElem hlt', (List.forall₂_iff_get.mp hall).2 k hlt hlt'⟩
  have hbefore : ∀ {now : Agent}, now ∈ propagate agents → ∃ (k : Nat) (agent : Agent),
      agents[k]? = some agent ∧ SettledBefore agents agents.length agent now := by
    intro now hnow
    obtain ⟨k, hlt, rfl⟩ := List.mem_iff_getElem.mp hnow
    have hlt' : k < agents.length := hall.length_eq ▸ hlt
    exact ⟨k, _, List.getElem?_eq_getElem hlt', (List.forall₂_iff_get.mp hall).2 k hlt' hlt⟩
  constructor
  · intro hclosed k workflow hlate member hmember hparent
    have hlate' := hlate
    obtain ⟨hk, hworkflow, hactive, j, hlt, hsettled, parent, hj, hup⟩ := hlate'
    obtain ⟨i, hi⟩ := List.mem_iff_getElem?.mp hmember
    obtain ⟨now, hnow, hkept⟩ := hafter hi
    obtain ⟨ended, hended, hsettledWorkflow⟩ := hafter hk
    have hterminal : ended.status.terminal = true := hsettledWorkflow.reached
      ⟨hactive, j, (List.getElem?_eq_some_iff.mp hj).1, hsettled, parent, hj, hup⟩
    have hquiet := hkept.untouched (member_of_settledLate hids hlate hparent)
    by_contra hmemberActive
    have hnot := hclosed now (List.mem_of_getElem? hnow)
      (by rw [hquiet]; simpa using hmemberActive) ended (List.mem_of_getElem? hended)
      (hsettledWorkflow.workflow.trans hworkflow)
      (by rw [hsettledWorkflow.id, hkept.parentAgentId, hparent])
    rw [hterminal] at hnot
    cases hnot
  · intro hlate now hnow hactive ended hended hworkflow hid
    obtain ⟨i, member, hi, hkept⟩ := hbefore hnow
    obtain ⟨k, workflow, hk, hsettled⟩ := hbefore hended
    have hmember : ¬ Reached agents agents.length member := fun hreached => by
      have hterminal := hkept.reached hreached
      rw [not_terminal_of_active hactive] at hterminal
      cases hterminal
    have hmemberActive : member.status.active = true := hkept.untouched hmember ▸ hactive
    have hparent : member.parentAgentId = workflow.id := by
      rw [← hkept.parentAgentId, ← hid, hsettled.id]
    have hinTurn : ¬ SettledInTurn agents k := fun hinTurn => hmember
      ⟨hmemberActive, k, (List.getElem?_eq_some_iff.mp hk).1, hinTurn, workflow, hk, hparent⟩
    rw [hsettled.workflow] at hworkflow
    by_contra hterminal
    rw [Bool.not_eq_false] at hterminal
    by_cases hreached : Reached agents agents.length workflow
    · obtain ⟨hworkflowActive, j, -, hturn, parent, hj, hup⟩ := hreached
      rcases Nat.lt_trichotomy j k with hlt | rfl | hlt
      · exact hinTurn (.member hk hworkflow hworkflowActive hlt hj hup hturn)
      · exact hinTurn hturn
      · have hidle := hlate k workflow
          ⟨hk, hworkflow, hworkflowActive, j, hlt, hturn, parent, hj, hup⟩ member
          (List.mem_of_getElem? hi) hparent
        rw [hmemberActive] at hidle
        cases hidle
    · rw [hsettled.untouched hreached] at hterminal
      exact hinTurn (.ended hk hworkflow hterminal)

end

/-- The counted agents are closed under settlement exactly where the session
is known to have stopped or no live agent belongs to a live workflow that is
listed before the settled workflow it belongs to itself. -/
theorem liveAgentCount_closed_iff (activities sessionLive : JsValue) :
    ClosedUnderSettlement (settledAgents activities sessionLive) ↔
      strictEquals sessionLive (.bool false) = true ∨
        ∀ k workflow, SettledLate (foldAgents activities) k workflow →
          ∀ member ∈ foldAgents activities, member.parentAgentId = workflow.id →
            member.status.active = false := by
  unfold settledAgents
  dsimp only
  split_ifs with hstopped
  · refine iff_of_true ?_ (Or.inl hstopped)
    intro member hmember hactive
    obtain ⟨agent, -, rfl⟩ := List.mem_map.mp hmember
    unfold Agent.settle at hactive
    split_ifs at hactive with hagent
    · cases hactive
    · exact absurd hactive hagent
  · rw [propagate_closed_iff (foldAgents_ids activities)]
    exact (or_iff_right hstopped).symm

def taskActivity (kind taskId : String) (more : List (String × String)) : JsValue :=
  .obj [(ascii "kind", .str (ascii kind)),
    (ascii "payload", .obj ((("taskId", taskId) :: more).map fun field =>
      (ascii field.1, .str (ascii field.2))))]

/-- A nested workflow and its worker are seen before the outer workflow, which
then completes. -/
def nestedActivities : JsValue :=
  .arr [taskActivity "task.started" "inner"
      [("agentKind", "agent"), ("taskType", "local_workflow"), ("parentAgentId", "outer")],
    taskActivity "task.started" "worker" [("agentKind", "agent"), ("parentAgentId", "inner")],
    taskActivity "task.started" "outer" [("agentKind", "agent"), ("taskType", "local_workflow")],
    taskActivity "task.completed" "outer" []]

/-- The worker of the settled inner workflow is still counted. -/
theorem nested_worker_counted :
    liveAgentCount nestedActivities (.bool true) = 1 ∧
      ¬ ClosedUnderSettlement (settledAgents nestedActivities (.bool true)) := by
  decide +kernel

end T3

end CybexOS
