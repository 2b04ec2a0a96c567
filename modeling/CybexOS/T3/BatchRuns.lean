/-
Runs of action batches: while no two batches of one key overlap, each goes on in
its order until it is through or one of its own requests ends it.
-/
import CybexOS.T3.Batches
import CybexOS.Runs

namespace CybexOS

namespace T3

/-! ### The laws -/

/-- The commands of a batch that have been sent, by their indices. -/
def Rpc.sentOf (r : Rpc) (batch : Nat) : List Nat :=
  (r.sent.filter fun sent => sent.batch = batch).map Sent.index

/-- Each batch sends its commands in list order, one after the success of the
other, and stops early only after an end of its own request. -/
structure Rpc.Whole (r : Rpc) : Prop where
  ordered : ∀ batch, ∃ n, r.sentOf batch = List.range n
  commands : ∀ sent ∈ r.sent, ∃ accepted command, r.batches[sent.batch]? = some accepted ∧
    accepted.commands[sent.index]? = some command ∧ sent.command.body = command.body
  after : ∀ sent ∈ r.sent, ∀ index, sent.index = index + 1 →
    ⟨sent.batch, index, .succeeded⟩ ∈ r.ended
  goesOn : ∀ batch accepted, r.batches[batch]? = some accepted →
    (r.sentOf batch).length < accepted.commands.length →
      (∃ item ∈ r.rpcHandlers, item.2.batch = batch) ∨
        ∃ index ∈ r.sentOf batch, ∃ ending ≠ .succeeded, ⟨batch, index, ending⟩ ∈ r.ended

/-- However a request ends, a later batch of its key keeps its action state, and
nothing is sent. -/
def Rpc.Separate (genId : Nat → Text) (r : Rpc) : Prop :=
  ∀ item ∈ r.rpcHandlers, ∀ later accepted, item.2.batch < later →
    r.batches[later]? = some accepted → accepted.key = item.2.actionKey →
      ∀ ending message times,
        (r.finish genId item.2 ending message times).actionStates.lookup accepted.key =
            r.actionStates.lookup accepted.key ∧
          (r.finish genId item.2 ending message times).sent = r.sent

/-- The handler is of the last command of its batch. -/
def Rpc.IsLast (r : Rpc) (handler : Handler) : Prop :=
  ∀ accepted, r.batches[handler.batch]? = some accepted →
    handler.index + 1 = accepted.commands.length

/-- No batch is accepted for a key with a request in flight, and no rejection of
a repeated click reaches a batch that has commands left. -/
def Apart (r : Rpc) : Event → Prop
  | .dispatchBatch commands key _ _ => r.accepts commands key = true →
      ∀ item ∈ r.rpcHandlers, item.2.actionKey ≠ key
  | .rejectAction key _ _ _ => ∀ item ∈ r.rpcHandlers, item.2.actionKey = key → r.IsLast item.2
  | _ => True

/-! ### The invariant -/

def Rpc.PendingAt (r : Rpc) (key : Text) : Prop :=
  ∃ state, r.actionStates.lookup key = some state ∧ state.pending = true

/-- After a success the batch of the handler goes on, is through or has timed
out. -/
def Rpc.Going (r : Rpc) (handler : Handler) : Prop :=
  r.IsLast handler ∨ r.PendingAt handler.actionKey ∨
    ⟨handler.batch, handler.index, .timedOut⟩ ∈ r.ended

/-- Where each request in flight stands; one batch may be between two. -/
structure Rpc.KeptBut (skip : Option Nat) (r : Rpc) : Prop where
  ordered : ∀ batch, ∃ n, r.sentOf batch = List.range n
  commands : ∀ sent ∈ r.sent, ∃ accepted command, r.batches[sent.batch]? = some accepted ∧
    accepted.commands[sent.index]? = some command ∧ sent.command.body = command.body
  after : ∀ sent ∈ r.sent, ∀ index, sent.index = index + 1 →
    ⟨sent.batch, index, .succeeded⟩ ∈ r.ended
  goesOn : ∀ batch accepted, skip ≠ some batch → r.batches[batch]? = some accepted →
    (r.sentOf batch).length < accepted.commands.length →
      (∃ item ∈ r.rpcHandlers, item.2.batch = batch) ∨
        ∃ index ∈ r.sentOf batch, ∃ ending ≠ .succeeded, ⟨batch, index, ending⟩ ∈ r.ended
  ids : (Dict.keys r.rpcHandlers).Nodup
  fresh : ∀ item ∈ r.rpcHandlers, item.1 < r.nextReqId
  connected : r.rpcHandlers ≠ [] → r.connected = true
  flight : ∀ item ∈ r.rpcHandlers, ∃ accepted, r.batches[item.2.batch]? = some accepted ∧
    accepted.key = item.2.actionKey ∧ item.2.index < accepted.commands.length ∧
      r.sentOf item.2.batch = List.range (item.2.index + 1)
  alone : (r.rpcHandlers.map fun item => item.2.actionKey).Nodup
  latest : ∀ item ∈ r.rpcHandlers, ∀ later accepted, item.2.batch < later →
    r.batches[later]? = some accepted → accepted.key ≠ item.2.actionKey
  going : ∀ item ∈ r.rpcHandlers, r.Going item.2

abbrev Rpc.Kept (r : Rpc) : Prop := r.KeptBut none

theorem Rpc.Kept.whole {r : Rpc} (h : r.Kept) : r.Whole :=
  ⟨h.ordered, h.commands, h.after, fun batch accepted => h.goesOn batch accepted (by simp)⟩

theorem Rpc.Kept.separate {r : Rpc} (h : r.Kept) (genId : Nat → Text) : r.Separate genId := by
  intro item hitem later accepted hlater haccepted hkey
  exact absurd hkey (h.latest item hitem later accepted hlater haccepted)

/-- Requests may end other than by success, and actions may change where the
requests that remain can still go on. -/
theorem Rpc.KeptBut.shrink {skip skip' : Option Nat} {r t : Rpc} (h : r.KeptBut skip)
    (hbatches : t.batches = r.batches) (hsent : t.sent = r.sent)
    (hnext : t.nextReqId = r.nextReqId) (hskip : skip ≠ none → skip' = skip)
    (hconnected : t.rpcHandlers ≠ [] → t.connected = true)
    (hhandlers : t.rpcHandlers.Sublist r.rpcHandlers)
    (hended : ∀ ended ∈ r.ended, ended ∈ t.ended)
    (hdropped : ∀ item ∈ r.rpcHandlers, item ∈ t.rpcHandlers ∨ r.IsLast item.2 ∨
      skip' = some item.2.batch ∨
        ∃ ending ≠ .succeeded, ⟨item.2.batch, item.2.index, ending⟩ ∈ t.ended)
    (hgoing : ∀ item ∈ t.rpcHandlers, r.Going item.2 → t.Going item.2) : t.KeptBut skip' := by
  have hsentOf : ∀ batch, t.sentOf batch = r.sentOf batch := fun batch => by
    unfold Rpc.sentOf
    rw [hsent]
  constructor
  · intro batch
    rw [hsentOf]
    exact h.ordered batch
  · rw [hsent, hbatches]
    exact h.commands
  · rw [hsent]
    exact fun sent hmem index hindex => hended _ (h.after sent hmem index hindex)
  · intro batch accepted hother haccepted hlength
    rw [hbatches] at haccepted
    rw [hsentOf] at hlength ⊢
    have hskipped : skip ≠ some batch := by
      intro heq
      rw [hskip (by simp [heq]), heq] at hother
      exact hother rfl
    rcases h.goesOn batch accepted hskipped haccepted hlength with ⟨item, hitem, rfl⟩ | hleft
    · obtain ⟨found, hfound, -, -, hrange⟩ := h.flight item hitem
      rcases hdropped item hitem with hkept | hlast | hbetween | ⟨ending, hending, hlogged⟩
      · exact Or.inl ⟨item, hkept, rfl⟩
      · rw [hrange, List.length_range, hlast accepted haccepted] at hlength
        exact absurd hlength (lt_irrefl _)
      · exact absurd hbetween hother
      · refine Or.inr ⟨item.2.index, ?_, ending, hending, hlogged⟩
        rw [hrange, List.mem_range]
        exact Nat.lt_succ_self _
    · obtain ⟨index, hindex, ending, hending, hlogged⟩ := hleft
      exact Or.inr ⟨index, hindex, ending, hending, hended _ hlogged⟩
  · exact h.ids.sublist (hhandlers.map Prod.fst)
  · intro item hitem
    rw [hnext]
    exact h.fresh item (hhandlers.subset hitem)
  · exact hconnected
  · intro item hitem
    rw [hbatches, hsentOf]
    exact h.flight item (hhandlers.subset hitem)
  · exact h.alone.sublist (hhandlers.map _)
  · intro item hitem
    rw [hbatches]
    exact h.latest item (hhandlers.subset hitem)
  · exact fun item hitem => hgoing item hitem (h.going item (hhandlers.subset hitem))

/-! ### Ends of requests -/

/-- Only the state of the key changes. -/
theorem Rpc.failAction_eq (r : Rpc) (key message : Text) :
    ∃ states, r.failAction key message = { r with actionStates := states } ∧
      ∀ other ≠ key, states.lookup other = r.actionStates.lookup other := by
  unfold Rpc.failAction
  cases r.actionStates.lookup key with
  | none => exact ⟨r.actionStates, rfl, fun other _ => rfl⟩
  | some current =>
      refine ⟨_, rfl, fun other hother => ?_⟩
      rw [Dict.lookup_set, if_neg hother]

theorem Rpc.finish_eq (genId : Nat → Text) (r : Rpc) (handler : Handler) {ending : Ending}
    (hending : ending ≠ .succeeded) (message : Text) (times : Times) :
    ∃ states, r.finish genId handler ending message times =
        { r.note handler.batch handler.index ending with actionStates := states } ∧
      ∀ other ≠ handler.actionKey, states.lookup other = r.actionStates.lookup other := by
  cases ending with
  | succeeded => exact absurd rfl hending
  | rejected => exact (r.note handler.batch handler.index .rejected).failAction_eq _ _
  | timedOut => exact (r.note handler.batch handler.index .timedOut).failAction_eq _ _
  | dropped => exact (r.note handler.batch handler.index .dropped).failAction_eq _ _
  | cancelled => exact ⟨r.actionStates, rfl, fun other _ => rfl⟩

theorem mem_pop {handlers : List (Nat × Handler)} {id : Nat} {item : Nat × Handler} :
    item ∈ Dict.pop handlers id ↔ item ∈ handlers ∧ item.1 ≠ id := by
  simp [Dict.pop]

section

variable {r : Rpc} (h : r.Kept) {item : Nat × Handler} (hitem : item ∈ r.rpcHandlers)

include h hitem

/-- Handlers of other ids are of other keys. -/
theorem Rpc.KeptBut.other_key {other : Nat × Handler} (hother : other ∈ r.rpcHandlers)
    (hne : other.1 ≠ item.1) : other.2.actionKey ≠ item.2.actionKey := by
  intro heq
  have hsame := List.inj_on_of_nodup_map h.alone hother hitem heq
  exact hne (congrArg Prod.fst hsame)

theorem Rpc.KeptBut.same_id {other : Nat × Handler} (hother : other ∈ r.rpcHandlers)
    (heq : other.1 = item.1) : other = item :=
  List.inj_on_of_nodup_map h.ids hother hitem heq

/-- A request that ends, whether it failed or nothing has followed it yet. -/
theorem Rpc.KeptBut.popped (skip' : Option Nat) (ending : Ending)
    (hleft : r.IsLast item.2 ∨ skip' = some item.2.batch ∨ ending ≠ .succeeded)
    (states : List (Text × ActionState))
    (hstates : ∀ other ≠ item.2.actionKey, states.lookup other = r.actionStates.lookup other) :
    Rpc.KeptBut skip' { (r.dropRpcHandler item.1).note item.2.batch item.2.index ending with
      actionStates := states } := by
  refine h.shrink rfl rfl rfl (by simp) (fun _ => h.connected (List.ne_nil_of_mem hitem))
    List.filter_sublist (fun ended hended => List.mem_append_left _ hended) (fun other hother => ?_)
    fun other hother hgoing => ?_
  · by_cases heq : other.1 = item.1
    · rw [h.same_id hitem hother heq]
      refine Or.inr (hleft.imp_right (Or.imp_right fun hfailed => ?_))
      exact ⟨ending, hfailed, List.mem_append_right _ List.mem_cons_self⟩
    · exact Or.inl (mem_pop.mpr ⟨hother, heq⟩)
  · obtain ⟨hmem, hne⟩ := mem_pop.mp hother
    rcases hgoing with hlast | ⟨state, hstate, hpending⟩ | hlogged
    · exact Or.inl hlast
    · refine Or.inr (Or.inl ⟨state, ?_, hpending⟩)
      rw [← hstate]
      exact hstates _ (h.other_key hitem hmem hne)
    · exact Or.inr (Or.inr (List.mem_append_left _ hlogged))

end

/-! ### Sends -/

/-- The state after a batch has sent its next command. -/
def Rpc.sending (r : Rpc) (states : List (Text × ActionState)) (generated : Nat) (key : Text)
    (batch index : Nat) (command : Command) (deadline : ℤ) : Rpc :=
  { r with
    actionStates := states
    generated := generated
    rpcHandlers := r.rpcHandlers ++ [(r.nextReqId, ⟨deadline, key, batch, index⟩)]
    nextReqId := r.nextReqId + 1
    sent := r.sent ++ [⟨batch, index, command⟩] }

/-- The batch that was between two requests sends its next command. -/
theorem Rpc.KeptBut.sending {r : Rpc} {batch index : Nat} (h : r.KeptBut (some batch))
    {accepted : Batch} {command sent : Command} {states : List (Text × ActionState)}
    {generated : Nat} {deadline : ℤ} (haccepted : r.batches[batch]? = some accepted)
    (hcommand : accepted.commands[index]? = some command) (hbody : sent.body = command.body)
    (hconnected : r.connected = true)
    (hnone : ∀ item ∈ r.rpcHandlers, item.2.actionKey ≠ accepted.key)
    (hlatest : ∀ later other, batch < later → r.batches[later]? = some other →
      other.key ≠ accepted.key)
    (hrange : r.sentOf batch = List.range index)
    (hafter : ∀ previous, index = previous + 1 → ⟨batch, previous, .succeeded⟩ ∈ r.ended)
    (hstates : ∀ other ≠ accepted.key, states.lookup other = r.actionStates.lookup other)
    (hpending : ∃ state, states.lookup accepted.key = some state ∧ state.pending = true) :
    (r.sending states generated accepted.key batch index sent deadline).Kept := by
  have hindex : index < accepted.commands.length := (List.getElem?_eq_some_iff.mp hcommand).1
  have hsentOf : ∀ other, (r.sending states generated accepted.key batch index sent
      deadline).sentOf other = if other = batch then List.range (index + 1) else r.sentOf other := by
    intro other
    unfold Rpc.sentOf Rpc.sending
    simp only [List.filter_append, List.map_append]
    by_cases hother : other = batch
    · subst hother
      rw [if_pos rfl, List.range_succ, ← hrange]
      simp [Rpc.sentOf]
    · rw [if_neg hother]
      simp [Ne.symm hother]
  constructor
  · intro other
    rw [hsentOf]
    split_ifs
    · exact ⟨index + 1, rfl⟩
    · exact h.ordered other
  · intro entry hentry
    rcases List.mem_append.mp hentry with hold | hnew
    · exact h.commands entry hold
    · rw [List.mem_singleton.mp hnew]
      exact ⟨accepted, command, haccepted, hcommand, hbody⟩
  · intro entry hentry previous hprevious
    rcases List.mem_append.mp hentry with hold | hnew
    · exact h.after entry hold previous hprevious
    · rw [List.mem_singleton.mp hnew] at hprevious ⊢
      exact hafter previous hprevious
  · intro other found _ hfound hlength
    rw [hsentOf] at hlength ⊢
    by_cases hother : other = batch
    · refine Or.inl ⟨(r.nextReqId, ⟨deadline, accepted.key, batch, index⟩), ?_, hother.symm⟩
      exact List.mem_append_right _ List.mem_cons_self
    · rw [if_neg hother] at hlength ⊢
      have hskip : some batch ≠ some other := fun heq => hother (Option.some.inj heq).symm
      rcases h.goesOn other found hskip hfound hlength with ⟨item, hitem, hbatch⟩ | hleft
      · exact Or.inl ⟨item, List.mem_append_left _ hitem, hbatch⟩
      · exact Or.inr hleft
  · have hkeys : Dict.keys (r.sending states generated accepted.key batch index sent
        deadline).rpcHandlers = Dict.keys r.rpcHandlers ++ [r.nextReqId] := by
      simp [Rpc.sending, Dict.keys]
    rw [hkeys, List.nodup_append]
    refine ⟨h.ids, List.nodup_singleton _, ?_⟩
    rintro id hid _ hsingle rfl
    rw [List.mem_singleton] at hsingle
    obtain ⟨item, hitem, rfl⟩ := List.mem_map.mp hid
    exact absurd (h.fresh item hitem) (by omega)
  · intro item hitem
    rcases List.mem_append.mp hitem with hold | hnew
    · exact (h.fresh item hold).trans (Nat.lt_succ_self _)
    · rw [List.mem_singleton.mp hnew]
      exact Nat.lt_succ_self _
  · exact fun _ => hconnected
  · intro item hitem
    rw [hsentOf]
    rcases List.mem_append.mp hitem with hold | hnew
    · obtain ⟨found, hfound, hkey, hlength, hother⟩ := h.flight item hold
      have hne : item.2.batch ≠ batch := by
        rintro heq
        rw [heq, haccepted] at hfound
        exact hnone item hold (hkey ▸ (Option.some.inj hfound) ▸ rfl)
      rw [if_neg hne]
      exact ⟨found, hfound, hkey, hlength, hother⟩
    · rw [List.mem_singleton.mp hnew]
      exact ⟨accepted, haccepted, rfl, hindex, if_pos rfl⟩
  · have hkeys : (r.sending states generated accepted.key batch index sent
        deadline).rpcHandlers.map (fun item => item.2.actionKey) =
          r.rpcHandlers.map (fun item => item.2.actionKey) ++ [accepted.key] := by
      simp [Rpc.sending]
    rw [hkeys, List.nodup_append]
    refine ⟨h.alone, List.nodup_singleton _, ?_⟩
    rintro key hkey _ hsingle rfl
    rw [List.mem_singleton] at hsingle
    obtain ⟨item, hitem, rfl⟩ := List.mem_map.mp hkey
    exact hnone item hitem hsingle
  · intro item hitem later other hlater hother
    rcases List.mem_append.mp hitem with hold | hnew
    · exact h.latest item hold later other hlater hother
    · rw [List.mem_singleton.mp hnew] at hlater ⊢
      exact hlatest later other hlater hother
  · intro item hitem
    rcases List.mem_append.mp hitem with hold | hnew
    · rcases h.going item hold with hlast | ⟨state, hstate, hactive⟩ | hlogged
      · exact Or.inl hlast
      · refine Or.inr (Or.inl ⟨state, ?_, hactive⟩)
        rw [← hstate]
        exact hstates _ (hnone item hold)
      · exact Or.inr (Or.inr hlogged)
    · rw [List.mem_singleton.mp hnew]
      exact Or.inr (Or.inl hpending)

theorem Command.identified_body (genId : Nat → Text) (command : Command) (generated : Nat) :
    (command.identified genId generated).1.body = command.body := by
  unfold Command.identified
  split <;> rfl

/-- The batch between two requests is through, or has been stopped. -/
theorem Rpc.KeptBut.close {r : Rpc} {batch : Nat} (h : r.KeptBut (some batch))
    (hgoesOn : ∀ accepted, r.batches[batch]? = some accepted →
      (r.sentOf batch).length < accepted.commands.length →
        ∃ index ∈ r.sentOf batch, ∃ ending ≠ .succeeded, ⟨batch, index, ending⟩ ∈ r.ended) :
    r.Kept := by
  refine ⟨h.ordered, h.commands, h.after, fun other accepted _ haccepted hlength => ?_, h.ids,
    h.fresh, h.connected, h.flight, h.alone, h.latest, h.going⟩
  by_cases hother : other = batch
  · subst hother
    exact Or.inr (hgoesOn accepted haccepted hlength)
  · exact h.goesOn other accepted (fun heq => hother (Option.some.inj heq).symm) haccepted hlength

/-- Clearing the action of a key without requests ends none. -/
theorem Rpc.KeptBut.clearAction {skip : Option Nat} {r : Rpc} (h : r.KeptBut skip) {key : Text}
    (hnone : ∀ item ∈ r.rpcHandlers, item.2.actionKey ≠ key) :
    (r.clearAction key).KeptBut skip := by
  refine h.shrink rfl rfl rfl (fun _ => rfl) h.connected (List.Sublist.refl _)
    (fun _ hended => hended) (fun item hitem => Or.inl hitem) fun item hitem hgoing => ?_
  rcases hgoing with hlast | ⟨state, hstate, hpending⟩ | hlogged
  · exact Or.inl hlast
  · refine Or.inr (Or.inl ⟨state, ?_, hpending⟩)
    rw [Rpc.clearAction, Dict.lookup_pop, if_neg (hnone item hitem)]
    exact hstate
  · exact Or.inr (Or.inr hlogged)

theorem Rpc.requestOnce_connected {r : Rpc} (hconnected : r.connected = true) (key : Text)
    (batch index : Nat) (command : Command) (now : ℤ) :
    r.requestOnce key batch index command now =
      r.sending r.actionStates r.generated key batch index command (now + actionTimeoutMs) :=
  if_pos hconnected

/-- `sendAt` sends the next command, or there is a reason that it does not. -/
theorem Rpc.KeptBut.sendAt {r : Rpc} {batch index : Nat} (h : r.KeptBut (some batch))
    {accepted : Batch} (haccepted : r.batches[batch]? = some accepted)
    (hconnected : r.connected = true)
    (hnone : ∀ item ∈ r.rpcHandlers, item.2.actionKey ≠ accepted.key)
    (hlatest : ∀ later other, batch < later → r.batches[later]? = some other →
      other.key ≠ accepted.key)
    (hrange : r.sentOf batch = List.range index)
    (hafter : ∀ previous, index = previous + 1 → ⟨batch, previous, .succeeded⟩ ∈ r.ended)
    (hgoing : index < accepted.commands.length → r.PendingAt accepted.key ∨
      ∃ index ∈ r.sentOf batch, ∃ ending ≠ .succeeded, ⟨batch, index, ending⟩ ∈ r.ended)
    (genId : Nat → Text) (times : Times) : (r.sendAt genId batch index times).Kept := by
  have hthrough : ∀ t : Rpc, t.KeptBut (some batch) → t.batches = r.batches →
      t.sentOf batch = r.sentOf batch → accepted.commands.length ≤ index → t.Kept := by
    intro t ht hbatches hsent hindex
    refine ht.close fun found hfound hlength => ?_
    rw [hbatches, haccepted] at hfound
    rw [hsent, hrange, List.length_range, ← Option.some.inj hfound] at hlength
    exact absurd hlength (Nat.not_lt.mpr hindex)
  unfold Rpc.sendAt
  rw [haccepted]
  simp only
  cases hcurrent : (r.actionStates.lookup accepted.key).filter (·.pending) with
  | none =>
      refine h.close fun found hfound hlength => ?_
      rw [haccepted] at hfound
      rw [hrange, List.length_range, ← Option.some.inj hfound] at hlength
      rcases hgoing hlength with ⟨state, hstate, hpending⟩ | hlogged
      · rw [hstate, Option.filter_some, if_pos hpending] at hcurrent
        cases hcurrent
      · exact hlogged
  | some current =>
      obtain ⟨hstate, hpending⟩ := Option.filter_eq_some_iff.mp hcurrent
      simp only
      cases hcommand : accepted.commands[index]? with
      | none =>
          have hindex : accepted.commands.length ≤ index := List.getElem?_eq_none_iff.mp hcommand
          simp only
          split_ifs
          · exact hthrough _ (h.clearAction hnone) rfl rfl hindex
          · exact hthrough r h rfl rfl hindex
      | some command =>
          simp only
          rw [Rpc.requestOnce_connected]
          · refine @KeptBut.sending r batch index h accepted command _ _ _ _ haccepted hcommand
              (command.identified_body genId r.generated) hconnected hnone hlatest hrange hafter
              (fun other hother => Dict.lookup_set.trans (if_neg hother)) ?_
            exact ⟨_, Dict.lookup_set.trans (if_pos rfl), hpending⟩
          · exact hconnected

/-! ### Events -/

/-- An answer ends a request, and after a success its batch goes on. -/
theorem Rpc.KeptBut.finished {r : Rpc} (h : r.Kept) {item : Nat × Handler}
    (hitem : item ∈ r.rpcHandlers) (genId : Nat → Text) (ending : Ending) (message : Text)
    (times : Times) :
    ((r.dropRpcHandler item.1).finish genId item.2 ending message times).Kept := by
  by_cases hending : ending = .succeeded
  · subst hending
    obtain ⟨accepted, haccepted, hkey, hlength, hrange⟩ := h.flight item hitem
    have hbetween := h.popped hitem (some item.2.batch) .succeeded (Or.inr (Or.inl rfl))
      r.actionStates fun _ _ => rfl
    refine hbetween.sendAt haccepted (h.connected (List.ne_nil_of_mem hitem))
      (fun other hother => ?_) (fun later other hlater hother => ?_) hrange (fun previous heq => ?_)
      (fun hmore => ?_) genId times
    · obtain ⟨hmem, hne⟩ := mem_pop.mp hother
      rw [hkey]
      exact h.other_key hitem hmem hne
    · rw [hkey]
      exact h.latest item hitem later other hlater hother
    · obtain rfl := Nat.succ.inj heq
      exact List.mem_append_right _ List.mem_cons_self
    · rcases h.going item hitem with hlast | hpending | hlogged
      · exact absurd (hlast accepted haccepted) (Nat.ne_of_lt hmore)
      · rw [← hkey] at hpending
        exact Or.inl hpending
      · refine Or.inr ⟨item.2.index, ?_, .timedOut, by decide, List.mem_append_left _ hlogged⟩
        have hmem : item.2.index ∈ r.sentOf item.2.batch := by
          rw [hrange, List.mem_range]
          exact Nat.lt_succ_self _
        exact hmem
  · obtain ⟨states, heq, hstates⟩ :=
      Rpc.finish_eq genId (r.dropRpcHandler item.1) item.2 hending message times
    rw [heq]
    exact h.popped hitem none ending (Or.inr (Or.inr hending)) states hstates

theorem Rpc.dropRpcHandler_failAction (r : Rpc) (id : Nat) (key message : Text) :
    (r.failAction key message).dropRpcHandler id = (r.dropRpcHandler id).failAction key message := by
  have hstates : (r.dropRpcHandler id).actionStates = r.actionStates := rfl
  unfold Rpc.failAction
  rw [hstates]
  cases r.actionStates.lookup key <;> rfl

theorem Rpc.dropRpcHandler_sendAt (genId : Nat → Text) {r : Rpc} {id : Nat} (hid : id < r.nextReqId)
    (batch index : Nat) (times : Times) :
    (r.sendAt genId batch index times).dropRpcHandler id =
      (r.dropRpcHandler id).sendAt genId batch index times := by
  have hbatches : (r.dropRpcHandler id).batches = r.batches := rfl
  have hstates : (r.dropRpcHandler id).actionStates = r.actionStates := rfl
  unfold Rpc.sendAt
  rw [hbatches, hstates]
  cases r.batches[batch]? with
  | none => rfl
  | some accepted =>
      simp only
      cases (r.actionStates.lookup accepted.key).filter (·.pending) with
      | none => rfl
      | some current =>
          simp only
          cases accepted.commands[index]? with
          | none =>
              simp only
              split_ifs <;> rfl
          | some command =>
              simp only [Rpc.requestOnce]
              have hnew : r.nextReqId ≠ id := (Nat.ne_of_lt hid).symm
              by_cases hconnected : r.connected = true
              · simp [Rpc.dropRpcHandler, Rpc.putActionState, hconnected, Dict.pop, hnew]
              · simp only [Rpc.dropRpcHandler, Rpc.putActionState, hconnected]
                exact dropRpcHandler_failAction _ _ _ _

/-- The handler is dropped after it has run, which makes no difference. -/
theorem Rpc.dropRpcHandler_finish (genId : Nat → Text) {r : Rpc} {id : Nat}
    (hid : id < r.nextReqId) (handler : Handler) (ending : Ending) (message : Text)
    (times : Times) :
    (r.finish genId handler ending message times).dropRpcHandler id =
      (r.dropRpcHandler id).finish genId handler ending message times := by
  cases ending with
  | succeeded =>
      exact dropRpcHandler_sendAt genId (r := r.note handler.batch handler.index .succeeded) hid _ _ _
  | rejected => exact dropRpcHandler_failAction _ _ _ _
  | timedOut => exact dropRpcHandler_failAction _ _ _ _
  | dropped => exact dropRpcHandler_failAction _ _ _ _
  | cancelled => rfl

theorem Rpc.KeptBut.answer {r : Rpc} (h : r.Kept) (genId : Nat → Text) (id : Nat)
    (succeeded : Bool) (message : Text) (times : Times) :
    (r.answer genId id succeeded message times).Kept := by
  unfold Rpc.answer
  cases hhandler : r.rpcHandlers.lookup id with
  | none => exact h
  | some handler =>
      have hitem : (id, handler) ∈ r.rpcHandlers := Dict.mem_of_lookup hhandler
      simp only
      rw [dropRpcHandler_finish genId (h.fresh _ hitem)]
      exact h.finished hitem genId _ message times

/-- Requests that time out one after the other, all in flight at first. -/
theorem Rpc.KeptBut.timeouts (genId : Nat → Text) {items : List (Nat × Handler)} {r : Rpc}
    (h : r.Kept) (hitems : ∀ item ∈ items, item ∈ r.rpcHandlers)
    (hids : (Dict.keys items).Nodup) : (items.foldl (Rpc.timeout genId) r).Kept := by
  induction items generalizing r with
  | nil => exact h
  | cons item items ih =>
      rw [Dict.keys, List.map_cons, List.nodup_cons] at hids
      refine ih (h.finished (hitems item List.mem_cons_self) genId .timedOut [] ⟨0, 0⟩)
        (fun other hother => ?_) hids.2
      obtain ⟨states, heq, -⟩ := Rpc.finish_eq genId (r.dropRpcHandler item.1) item.2
        (by decide : Ending.timedOut ≠ .succeeded) [] ⟨0, 0⟩
      rw [Rpc.timeout, heq]
      refine mem_pop.mpr ⟨hitems other (List.mem_cons_of_mem _ hother), fun hsame => ?_⟩
      exact hids.1 (hsame ▸ List.mem_map_of_mem hother)

theorem Rpc.timeouts_connected (genId : Nat → Text) (items : List (Nat × Handler)) (r : Rpc) :
    (items.foldl (Rpc.timeout genId) r).connected = r.connected := by
  induction items generalizing r with
  | nil => rfl
  | cons item items ih =>
      obtain ⟨states, heq, -⟩ := Rpc.finish_eq genId (r.dropRpcHandler item.1) item.2
        (by decide : Ending.timedOut ≠ .succeeded) [] ⟨0, 0⟩
      rw [List.foldl_cons, ih, Rpc.timeout, heq]
      rfl

theorem lookup_expireActionStates (states : List (Text × ActionState)) (now : ℤ) (key : Text) :
    (expireActionStates states now).lookup key = (states.lookup key).map fun state =>
      if state.expired now then
        { state with pending := false, error := ascii "Action timed out" } else state :=
  Dict.lookup_map_item fun _ => rfl

/-- Expired actions leave their requests in flight, as timed out. -/
theorem Rpc.KeptBut.expire {r : Rpc} (h : r.Kept) (now : ℤ) :
    Rpc.Kept { r with
      actionStates := expireActionStates r.actionStates now
      ended := r.ended ++ (r.overtaken now).map fun item =>
        ⟨item.2.batch, item.2.index, .timedOut⟩ } := by
  refine h.shrink rfl rfl rfl (by simp) h.connected (List.Sublist.refl _)
    (fun _ hended => List.mem_append_left _ hended) (fun item hitem => Or.inl hitem)
    fun item hitem hgoing => ?_
  rcases hgoing with hlast | ⟨state, hstate, hpending⟩ | hlogged
  · exact Or.inl hlast
  · by_cases hexpired : state.expired now = true
    · refine Or.inr (Or.inr (List.mem_append_right _ (List.mem_map.mpr ⟨item, ?_, rfl⟩)))
      refine List.mem_filter.mpr ⟨hitem, ?_⟩
      rw [hstate]
      exact hexpired
    · refine Or.inr (Or.inl ⟨state, ?_, hpending⟩)
      rw [lookup_expireActionStates, hstate, Option.map_some, if_neg hexpired]
  · exact Or.inr (Or.inr (List.mem_append_left _ hlogged))

theorem Rpc.KeptBut.sweep {r : Rpc} (h : r.Kept) (genId : Nat → Text) (now : ℤ) :
    (r.sweep genId now).Kept := by
  unfold Rpc.sweep
  split_ifs
  · exact h
  · refine (KeptBut.timeouts genId h (fun item hitem => (List.mem_filter.mp hitem).1) ?_).expire now
    exact Dict.nodup_filter h.ids _

theorem Rpc.KeptBut.cancel {r : Rpc} (h : r.Kept) (key : Text) :
    (r.cancelActionRequests key).Kept := by
  have hcancelled : Rpc.Kept { r with
      rpcHandlers := r.rpcHandlers.filter fun item => item.2.actionKey ≠ key
      ended := r.ended ++ (r.rpcHandlers.filter fun item => item.2.actionKey = key).map
        fun item => ⟨item.2.batch, item.2.index, .cancelled⟩ } := by
    refine h.shrink rfl rfl rfl (by simp) (fun hsome => ?_) List.filter_sublist
      (fun _ hended => List.mem_append_left _ hended) (fun item hitem => ?_)
      fun item hitem hgoing => ?_
    · obtain ⟨item, hitem⟩ := List.exists_mem_of_ne_nil _ hsome
      exact h.connected (List.ne_nil_of_mem (List.mem_filter.mp hitem).1)
    · by_cases hkey : item.2.actionKey = key
      · refine Or.inr (Or.inr (Or.inr ⟨.cancelled, by decide, ?_⟩))
        refine List.mem_append_right _ (List.mem_map.mpr ⟨item, ?_, rfl⟩)
        exact List.mem_filter.mpr ⟨hitem, decide_eq_true hkey⟩
      · exact Or.inl (List.mem_filter.mpr ⟨hitem, decide_eq_true hkey⟩)
    · rcases hgoing with hlast | hpending | hlogged
      · exact Or.inl hlast
      · exact Or.inr (Or.inl hpending)
      · exact Or.inr (Or.inr (List.mem_append_left _ hlogged))
  exact hcancelled.clearAction fun item hitem => of_decide_eq_true (List.mem_filter.mp hitem).2

/-- Handlers that are told of a dropped link only note it and fail actions. -/
theorem Rpc.disconnects_eq (genId : Nat → Text) (items : List (Nat × Handler)) (r : Rpc) :
    ∃ states ended, items.foldl (Rpc.disconnect genId) r =
        { r with actionStates := states, ended := ended } ∧
      (∀ entry ∈ r.ended, entry ∈ ended) ∧
      ∀ item ∈ items, ⟨item.2.batch, item.2.index, .dropped⟩ ∈ ended := by
  induction items generalizing r with
  | nil => exact ⟨r.actionStates, r.ended, rfl, fun _ h => h, fun item hitem => by cases hitem⟩
  | cons item items ih =>
      obtain ⟨states, heq, -⟩ := Rpc.finish_eq genId r item.2
        (by decide : Ending.dropped ≠ .succeeded) [] ⟨0, 0⟩
      obtain ⟨last, ended, hlast, hold, hnew⟩ := ih (Rpc.disconnect genId r item)
      rw [Rpc.disconnect, heq] at hlast hold
      refine ⟨last, ended, ?_, fun entry hentry => ?_, fun other hother => ?_⟩
      · rw [List.foldl_cons, Rpc.disconnect, heq, hlast]
        rfl
      · exact hold entry (List.mem_append_left _ hentry)
      · rcases List.mem_cons.mp hother with rfl | hother
        · exact hold _ (List.mem_append_right _ List.mem_cons_self)
        · exact hnew other hother

theorem Rpc.KeptBut.drop {r : Rpc} (h : r.Kept) (genId : Nat → Text) : (r.drop genId).Kept := by
  obtain ⟨states, ended, heq, hold, hdropped⟩ := Rpc.disconnects_eq genId r.rpcHandlers
    { r with connected := false, rpcHandlers := [] }
  unfold Rpc.drop Rpc.abortPendingRpcs
  rw [heq]
  refine h.shrink rfl rfl rfl (by simp) (fun hsome => absurd rfl hsome) (List.nil_sublist _) hold
    (fun item hitem => ?_) fun item hitem => ?_
  · exact Or.inr (Or.inr (Or.inr ⟨.dropped, by decide, hdropped item hitem⟩))
  · cases hitem

/-- A rejected click leaves the batches that have commands left. -/
theorem Rpc.KeptBut.reject {r : Rpc} (h : r.Kept) {key : Text} {message : Text}
    {awaitResolution : Bool} {now : ℤ}
    (hapart : ∀ item ∈ r.rpcHandlers, item.2.actionKey = key →
      ¬ r.PendingAt key ∨ r.IsLast item.2) :
    (r.rejectAction key message awaitResolution now).Kept := by
  refine h.shrink rfl rfl rfl (by simp) h.connected (List.Sublist.refl _)
    (fun _ hended => hended) (fun item hitem => Or.inl hitem) fun item hitem hgoing => ?_
  rcases hgoing with hlast | ⟨state, hstate, hpending⟩ | hlogged
  · exact Or.inl hlast
  · by_cases hkey : item.2.actionKey = key
    · rcases hapart item hitem hkey with hidle | hlast
      · exact absurd ⟨state, hkey ▸ hstate, hpending⟩ hidle
      · exact Or.inl hlast
    · refine Or.inr (Or.inl ⟨state, ?_, hpending⟩)
      rw [Rpc.rejectAction, Rpc.putActionState, Dict.lookup_set, if_neg hkey]
      exact hstate
  · exact Or.inr (Or.inr hlogged)

theorem not_pendingAt {r : Rpc} {key : Text} (h : canBeginAction r.actionStates key = true) :
    ¬ r.PendingAt key := by
  rintro ⟨state, hstate, hpending⟩
  rw [canBeginAction, hstate, Option.any_some, hpending] at h
  cases h

/-- A new batch begins between two requests: none has been sent yet. -/
theorem Rpc.KeptBut.begin {r : Rpc} (h : r.Kept) (accepted : Batch) (state : ActionState)
    (generated : Nat) (hnone : ∀ item ∈ r.rpcHandlers, item.2.actionKey ≠ accepted.key) :
    Rpc.KeptBut (some r.batches.length) (Rpc.putActionState
      { r with generated := generated, batches := r.batches ++ [accepted] } accepted.key state) := by
  have hbatch : ∀ {batch : Nat} {found : Batch}, r.batches[batch]? = some found →
      (r.batches ++ [accepted])[batch]? = some found := by
    intro batch found hfound
    rw [List.getElem?_append_left (List.getElem?_eq_some_iff.mp hfound).1]
    exact hfound
  have hnew : ∀ {batch : Nat} {found : Batch}, (r.batches ++ [accepted])[batch]? = some found →
      batch = r.batches.length ∧ found = accepted ∨ r.batches[batch]? = some found := by
    intro batch found hfound
    rcases Nat.lt_or_ge batch r.batches.length with hlt | hge
    · rw [List.getElem?_append_left hlt] at hfound
      exact Or.inr hfound
    · rw [List.getElem?_append_right hge, List.getElem?_eq_some_iff] at hfound
      obtain ⟨hlength, hfound⟩ := hfound
      rw [List.length_singleton] at hlength
      refine Or.inl ⟨by omega, ?_⟩
      rw [← hfound]
      simp
  refine ⟨h.ordered, fun sent hsent => ?_, h.after, fun batch found hskip hfound hlength => ?_,
    h.ids, h.fresh, h.connected, fun item hitem => ?_, h.alone,
    fun item hitem later found hlater hfound => ?_, fun item hitem => ?_⟩
  · obtain ⟨found, command, hfound, hrest⟩ := h.commands sent hsent
    exact ⟨found, command, hbatch hfound, hrest⟩
  · rcases hnew hfound with ⟨rfl, -⟩ | hold
    · exact absurd rfl hskip
    · exact h.goesOn batch found (by simp) hold hlength
  · obtain ⟨found, hfound, hrest⟩ := h.flight item hitem
    exact ⟨found, hbatch hfound, hrest⟩
  · rcases hnew hfound with ⟨-, rfl⟩ | hold
    · exact Ne.symm (hnone item hitem)
    · exact h.latest item hitem later found hlater hold
  · rcases h.going item hitem with hlast | ⟨state, hstate, hpending⟩ | hlogged
    · obtain ⟨found, hfound, -⟩ := h.flight item hitem
      refine Or.inl fun other hother => ?_
      have hsame := (hbatch hfound).symm.trans hother
      exact hlast other (hsame ▸ hfound)
    · refine Or.inr (Or.inl ⟨state, ?_, hpending⟩)
      rw [← hstate]
      exact Dict.lookup_set.trans (if_neg (hnone item hitem))
    · exact Or.inr (Or.inr hlogged)

/-- What has been sent is of batches that were accepted. -/
theorem Rpc.KeptBut.sentOf_new {r : Rpc} (h : r.Kept) : r.sentOf r.batches.length = [] := by
  unfold Rpc.sentOf
  rw [List.map_eq_nil_iff, List.filter_eq_nil_iff]
  intro sent hsent hbatch
  obtain ⟨found, -, hfound, -⟩ := h.commands sent hsent
  rw [of_decide_eq_true hbatch] at hfound
  exact absurd (List.getElem?_eq_some_iff.mp hfound).1 (lt_irrefl _)

theorem Rpc.KeptBut.dispatch {r : Rpc} (h : r.Kept) (genId : Nat → Text)
    {commands : List Command} {key : Text} (options : BatchOptions) (times : Times)
    (hapart : r.accepts commands key = true → ∀ item ∈ r.rpcHandlers, item.2.actionKey ≠ key) :
    (r.dispatchBatch genId commands key options times).1.Kept := by
  unfold Rpc.dispatchBatch
  simp only
  by_cases hbegin : canBeginAction r.actionStates key = true
  · have hreject : ∀ message, (r.rejectAction key message options.awaitResolution
        times.startedAt).Kept :=
      fun message => h.reject fun _ _ _ => Or.inl (not_pendingAt hbegin)
    rw [if_neg (by simp [hbegin])]
    by_cases hoperate : r.canOperate = true
    · rw [if_neg (by simp [hoperate])]
      by_cases hconnected : r.connected = true
      · rw [if_neg (by simp [hconnected])]
        cases commands with
        | nil => exact hreject _
        | cons first rest =>
            have hnone := hapart (by simp [Rpc.accepts, hbegin, hoperate, hconnected])
            have hstart := h.begin
              ⟨key, { first with
                commandId := some (first.commandId.getD (genId r.generated)) } :: rest, options⟩
              ⟨true, [], first.commandId.getD (genId r.generated), options.awaitResolution,
                times.startedAt, none⟩
              (if first.commandId.isSome then r.generated else r.generated + 1) hnone
            refine hstart.sendAt (List.getElem?_concat_length) hconnected hnone
              (fun later other hlater hother => ?_)
              (h.sentOf_new.trans List.range_zero.symm) (fun previous heq => ?_)
              (fun _ => Or.inl ⟨_, Dict.lookup_set.trans (if_pos rfl), rfl⟩) genId times
            · have hlength : later < r.batches.length + 1 := by
                simpa [Rpc.putActionState] using (List.getElem?_eq_some_iff.mp hother).1
              omega
            · cases heq
      · rw [if_pos (by simp [hconnected])]
        exact hreject _
    · rw [if_pos (by simp [hoperate])]
      exact hreject _
  · rw [if_pos (by simp [hbegin])]
    exact h

/-! ### Runs -/

theorem Rpc.initial_kept : Rpc.initial.Kept where
  ordered := fun _ => ⟨0, rfl⟩
  commands := fun sent hsent => by cases hsent
  after := fun sent hsent => by cases hsent
  goesOn := fun batch accepted _ haccepted => by cases haccepted
  ids := List.nodup_nil
  fresh := fun item hitem => by cases hitem
  connected := fun hsome => absurd rfl hsome
  flight := fun item hitem => by cases hitem
  alone := List.nodup_nil
  latest := fun item hitem => by cases hitem
  going := fun item hitem => by cases hitem

/-- One event that keeps batches of a key apart keeps the invariant. -/
theorem Rpc.KeptBut.step {r : Rpc} (h : r.Kept) (genId : Nat → Text) {event : Event}
    (hapart : Apart r event) : (r.step genId event).Kept := by
  cases event with
  | dispatchBatch commands key options times => exact h.dispatch genId options times hapart
  | rejectAction key message awaitResolution now =>
      exact h.reject fun item hitem hkey => Or.inr (hapart item hitem hkey)
  | answer id succeeded message times => exact h.answer genId id succeeded message times
  | sweep now => exact h.sweep genId now
  | cancelActionRequests key => exact h.cancel key
  | drop => exact h.drop genId
  | opened canOperate =>
      exact h.shrink rfl rfl rfl (by simp) (fun _ => rfl) (List.Sublist.refl _)
        (fun _ hended => hended) (fun item hitem => Or.inl hitem) fun item _ hgoing => hgoing

def promptKey : Text := ascii "prompt|t|"

/-- The commands of a prompt that also changes the thread's model. -/
def promptCommands : List Command :=
  [⟨some (ascii "c1"), .str (ascii "thread.meta.update")⟩,
    ⟨some (ascii "c2"), .str (ascii "thread.turn.start")⟩]

def sendPrompt : List Event :=
  [.opened true, .dispatchBatch promptCommands promptKey {} ⟨0, 0⟩]

def emptyClick : Event := .rejectAction promptKey (ascii "Write a message first") false 1

/-- A prompt whose commands succeed, with a sweep between them, and another one. -/
def twoPrompts : List Event :=
  sendPrompt ++ [.sweep 5, .answer 2 true [] ⟨6, 6⟩, .answer 3 true [] ⟨7, 7⟩, emptyClick,
    .dispatchBatch promptCommands promptKey {} ⟨8, 8⟩, .drop]

end T3

end CybexOS
