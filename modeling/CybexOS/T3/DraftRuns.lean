/-
Runs of drafts and reports: while no submission takes the place of one that may
still arrive, each prompt that is sent is confirmed once and clears its own draft.
-/
import CybexOS.T3.Drafts
import CybexOS.T3.BatchRuns

namespace CybexOS

namespace T3

open Json (JsValue)

/-! ### What has been sent -/

/-- A request of the batch is in flight. -/
def Rpc.InFlight (r : Rpc) (batch : Nat) : Prop :=
  ∃ item ∈ r.rpcHandlers, item.2.batch = batch

/-- The command has been sent and was not rejected. -/
def Rpc.Arrived (r : Rpc) (batch index : Nat) : Prop :=
  ⟨batch, index, .rejected⟩ ∉ r.ended ∧ ∃ sent ∈ r.sent, sent.batch = batch ∧ sent.index = index

/-- The server may have the command or get it yet. -/
def Rpc.MayArrive (r : Rpc) (batch index : Nat) : Prop :=
  ⟨batch, index, .rejected⟩ ∉ r.ended ∧
    ((∃ sent ∈ r.sent, sent.batch = batch ∧ sent.index = index) ∨ r.InFlight batch)

instance (r : Rpc) (batch : Nat) : Decidable (r.InFlight batch) :=
  inferInstanceAs (Decidable (∃ item ∈ r.rpcHandlers, item.2.batch = batch))

instance (r : Rpc) (batch index : Nat) : Decidable (r.Arrived batch index) :=
  inferInstanceAs (Decidable (_ ∧ _))

instance (r : Rpc) (batch index : Nat) : Decidable (r.MayArrive batch index) :=
  inferInstanceAs (Decidable (_ ∧ _))

theorem Rpc.Arrived.mayArrive {r : Rpc} {batch index : Nat} (h : r.Arrived batch index) :
    r.MayArrive batch index :=
  ⟨h.1, Or.inl h.2⟩

/-! ### Later states of the RPC layer -/

/-- The batch sends only if it is new or has a request in flight. -/
def Rpc.Active (r : Rpc) (batch : Nat) : Prop :=
  r.batches.length ≤ batch ∨ r.InFlight batch

/-- Whatever happened between, an old batch with no request in flight has sent
nothing more. -/
structure Rpc.Extends (r t : Rpc) : Prop where
  generated : r.generated ≤ t.generated
  ended : ∀ ended ∈ r.ended, ended ∈ t.ended
  batches : r.batches.length ≤ t.batches.length
  flight : ∀ item ∈ t.rpcHandlers, r.Active item.2.batch
  sent : ∀ sent ∈ t.sent, sent ∈ r.sent ∨ r.Active sent.batch

theorem Rpc.Extends.refl (r : Rpc) : r.Extends r :=
  ⟨le_rfl, fun _ h => h, le_rfl, fun item h => Or.inr ⟨item, h, rfl⟩, fun _ h => Or.inl h⟩

/-- What could not arrive before cannot arrive later. -/
theorem Rpc.Extends.mayArrive {r t : Rpc} (h : r.Extends t) {batch index : Nat}
    (hbatch : batch < r.batches.length) (hmay : t.MayArrive batch index) :
    r.MayArrive batch index := by
  have hactive : r.Active batch → r.InFlight batch := fun hactive =>
    hactive.resolve_left (Nat.not_le.mpr hbatch)
  refine ⟨fun hended => hmay.1 (h.ended _ hended), ?_⟩
  rcases hmay.2 with ⟨sent, hsent, rfl, rfl⟩ | ⟨item, hitem, rfl⟩
  · rcases h.sent sent hsent with hold | hnew
    · exact Or.inl ⟨sent, hold, rfl, rfl⟩
    · exact Or.inr (hactive hnew)
  · exact Or.inr (hactive (h.flight item hitem))

section

variable {r s : Rpc} (h : r.Extends s)

include h

theorem Rpc.Extends.states (states : List (Text × ActionState)) :
    r.Extends { s with actionStates := states } :=
  ⟨h.generated, h.ended, h.batches, h.flight, h.sent⟩

theorem Rpc.Extends.fewer {handlers : List (Nat × Handler)}
    (hsub : ∀ item ∈ handlers, item ∈ s.rpcHandlers) :
    r.Extends { s with rpcHandlers := handlers } :=
  ⟨h.generated, h.ended, h.batches, fun item hitem => h.flight item (hsub item hitem), h.sent⟩

theorem Rpc.Extends.ends (ended : List Ended) : r.Extends { s with ended := s.ended ++ ended } :=
  ⟨h.generated, fun entry hentry => List.mem_append_left _ (h.ended entry hentry), h.batches,
    h.flight, h.sent⟩

theorem Rpc.Extends.taken {generated : Nat} (hgenerated : s.generated ≤ generated) :
    r.Extends { s with generated := generated } :=
  ⟨h.generated.trans hgenerated, h.ended, h.batches, h.flight, h.sent⟩

theorem Rpc.Extends.failAction (key message : Text) : r.Extends (s.failAction key message) := by
  obtain ⟨states, heq, -⟩ := s.failAction_eq key message
  rw [heq]
  exact h.states states

theorem Rpc.Extends.requestOnce (key : Text) {batch : Nat} (hbatch : r.Active batch) (index : Nat)
    (command : Command) (now : ℤ) : r.Extends (s.requestOnce key batch index command now) := by
  unfold Rpc.requestOnce
  split_ifs
  · refine ⟨h.generated, h.ended, h.batches, fun item hitem => ?_, fun sent hsent => ?_⟩
    · rcases List.mem_append.mp hitem with hold | hnew
      · exact h.flight item hold
      · rw [List.mem_singleton.mp hnew]
        exact hbatch
    · rcases List.mem_append.mp hsent with hold | hnew
      · exact h.sent sent hold
      · rw [List.mem_singleton.mp hnew]
        exact Or.inr hbatch
  · exact Rpc.Extends.failAction (h.ends _) _ _

theorem Rpc.Extends.sendAt (genId : Nat → Text) {batch : Nat} (hbatch : r.Active batch)
    (index : Nat) (times : Times) : r.Extends (s.sendAt genId batch index times) := by
  unfold Rpc.sendAt
  cases s.batches[batch]? with
  | none => exact h
  | some accepted =>
      dsimp only
      cases (s.actionStates.lookup accepted.key).filter (·.pending) with
      | none => exact h
      | some current =>
          dsimp only
          cases accepted.commands[index]? with
          | none =>
              dsimp only
              split_ifs
              · exact h.states _
              · exact h
          | some command =>
              have hgenerated : s.generated ≤ (command.identified genId s.generated).2 := by
                unfold Command.identified
                cases command.commandId.filter (· ≠ []) with
                | none => exact Nat.le_succ _
                | some _ => exact le_rfl
              exact ((h.taken hgenerated).states _).requestOnce _ hbatch _ _ _

theorem Rpc.Extends.finish (genId : Nat → Text) (handler : Handler) {ending : Ending}
    (hbatch : ending = .succeeded → r.Active handler.batch) (message : Text) (times : Times) :
    r.Extends (s.finish genId handler ending message times) := by
  by_cases hending : ending = .succeeded
  · subst hending
    exact Rpc.Extends.sendAt (h.ends _) genId (hbatch rfl) _ _
  · obtain ⟨states, heq, -⟩ := s.finish_eq genId handler hending message times
    rw [heq]
    exact Rpc.Extends.states (h.ends _) states

theorem Rpc.Extends.dispatchBatch (genId : Nat → Text) (commands : List Command) (key : Text)
    (options : BatchOptions) (times : Times) :
    r.Extends (s.dispatchBatch genId commands key options times).1 := by
  unfold Rpc.dispatchBatch
  split_ifs
  · exact h
  · exact h.states _
  · exact h.states _
  · cases commands with
    | nil => exact h.states _
    | cons first rest =>
        refine Rpc.Extends.sendAt (Rpc.Extends.states ?_ _) genId (Or.inl h.batches) _ _
        refine ⟨h.generated.trans ?_, h.ended, h.batches.trans ?_, h.flight, h.sent⟩
        · dsimp only
          split_ifs
          · exact le_rfl
          · exact Nat.le_succ _
        · rw [List.length_append]
          exact Nat.le_add_right _ _

end

theorem Rpc.sweep_extends (genId : Nat → Text) (r : Rpc) (now : ℤ) :
    r.Extends (r.sweep genId now) := by
  unfold Rpc.sweep
  split_ifs
  · exact Rpc.Extends.refl r
  · refine Rpc.Extends.states (Rpc.Extends.ends ?_ _) _
    refine List.foldlRecOn _ _ (Rpc.Extends.refl r) fun s h item _ => ?_
    exact Rpc.Extends.finish (h.fewer fun _ hitem => (mem_pop.mp hitem).1) genId _ (by simp) _ _

theorem Rpc.step_extends (genId : Nat → Text) (r : Rpc) (event : Event) :
    r.Extends (r.step genId event) := by
  cases event with
  | dispatchBatch commands key options times =>
      exact (Rpc.Extends.refl r).dispatchBatch genId commands key options times
  | rejectAction key message awaitResolution now => exact (Rpc.Extends.refl r).states _
  | answer id succeeded message times =>
      rw [Rpc.step, Rpc.answer]
      cases hlookup : r.rpcHandlers.lookup id with
      | none => exact Rpc.Extends.refl r
      | some handler =>
          refine Rpc.Extends.fewer ?_ fun _ hitem => (mem_pop.mp hitem).1
          refine (Rpc.Extends.refl r).finish genId handler (fun _ => Or.inr ?_) _ _
          exact ⟨_, Dict.mem_of_lookup hlookup, rfl⟩
  | sweep now => exact r.sweep_extends genId now
  | cancelActionRequests key =>
      refine ⟨le_rfl, fun _ h => List.mem_append_left _ h, le_rfl, fun item hitem => ?_,
        fun _ h => Or.inl h⟩
      exact Or.inr ⟨item, (List.mem_filter.mp hitem).1, rfl⟩
  | drop =>
      have hstart : r.Extends { r with connected := false, rpcHandlers := [] } :=
        ⟨le_rfl, fun _ h => h, le_rfl, by simp, fun _ h => Or.inl h⟩
      refine Rpc.Extends.states (List.foldlRecOn _ _ hstart fun s h item _ => ?_) _
      exact h.finish genId _ (by simp) _ _
  | opened canOperate =>
      exact ⟨le_rfl, fun _ h => h, le_rfl, fun item h => Or.inr ⟨item, h, rfl⟩, fun _ h => Or.inl h⟩

namespace Drafts

/-! ### The laws -/

/-- Each created thread that has been reported is confirmed, and once. -/
def State.ConfirmedOnce (s : State) : Prop :=
  ∀ creation ∈ s.creations, creation.threadId ∈ s.reportedThreads →
    s.confirmed.count creation.threadId = 1

/-- The first report of a message clears the draft that still has its text. -/
def Clears (s t : State) : Event → Prop
  | .messageReported threadId messageId =>
      ∀ message ∈ s.messages, message.threadId = threadId → message.messageId = messageId →
        message.clearDraft = true → (threadId, messageId) ∉ s.reportedMessages →
          s.threadPrompt threadId = message.text → t.threadPrompt threadId = []
  | _ => True

/-- A report takes no text from a draft but that of the message or the creation
it confirms. -/
def KeepsText (s t : State) : Event → Prop
  | .messageReported threadId messageId =>
      t.newThreadDraft = s.newThreadDraft ∧
        ∀ other, t.threadPrompt other = s.threadPrompt other ∨
          other = threadId ∧ ∃ message ∈ s.messages, message.threadId = threadId ∧
            message.messageId = messageId ∧ message.text = s.threadPrompt threadId
  | .shellItems _ =>
      (∀ other, t.threadPrompt other = s.threadPrompt other) ∧
        (t.newThreadDraft = s.newThreadDraft ∨
          ∃ creation ∈ s.creations, creation.threadId ∉ s.confirmed ∧
            creation.threadId ∈ t.confirmed ∧ creation.text = s.newThreadDraft.prompt)
  | _ => True

/-! ### The conditions -/

/-- The server reports only what it has been sent and has not rejected. -/
def Reported (s : State) : Event → Prop
  | .shellItems items =>
      ∀ creation ∈ s.creations, creation.threadId ∈ items.flatMap ShellItem.names →
        s.rpc.Arrived creation.batch 0
  | .messageReported threadId messageId =>
      ∀ message ∈ s.messages, message.threadId = threadId → message.messageId = messageId →
        ∃ batch ∈ message.batch, s.rpc.Arrived batch message.last
  | _ => True

/-- The thread in the slot may still be created. -/
def State.AwaitsThread (s : State) : Prop :=
  ∃ creation ∈ s.creations, creation.threadId = s.pendingNewThreadId ∧
    s.rpc.MayArrive creation.batch 0

/-- The message may still be reported and clear its draft. -/
def State.AwaitsMessage (s : State) (message : Message) : Prop :=
  message.clearDraft = true ∧ (message.threadId, message.messageId) ∉ s.reportedMessages ∧
    ∃ batch ∈ message.batch, s.rpc.MayArrive batch message.last

/-- While a thread may still be created its prompt is neither sent again nor
edited, nor does one chunk of the shell report and remove it; while a message may
still clear its draft nothing else is sent to its thread. -/
def Careful (s : State) : Event → Prop
  | .editNewThread draft => draft.prompt = s.newThreadDraft.prompt ∨ ¬ s.AwaitsThread
  | .submitNewThread before more _ _ =>
      newThreadRefusal before s.newThreadDraft.prompt more = none → ¬ s.AwaitsThread
  | .submitExisting threadId overrideText _ more _ _ _ =>
      existingRefusal (threadId ∈ s.threads) (s.existingText threadId overrideText) more = none →
        ∀ message ∈ s.messages, message.threadId = threadId → ¬ s.AwaitsMessage message
  | .shellItems items =>
      s.AwaitsThread → s.pendingNewThreadId ∈ items.flatMap ShellItem.names →
        s.pendingNewThreadId ∈ items.foldl ShellItem.apply s.threads
  | _ => True

/-! ### The invariant -/

/-- An id that has been generated. -/
def Rpc.Known (genId : Nat → Text) (r : Rpc) (id : Text) : Prop :=
  ∃ n < r.generated, genId n = id

/-- Creations are confirmed, in the slot or never to arrive, and messages that may
clear their draft are the ones their thread waits for. -/
structure State.Correlated (genId : Nat → Text) (s : State) : Prop where
  creationBatches : ∀ creation ∈ s.creations, creation.batch < s.rpc.batches.length
  messageBatches : ∀ message ∈ s.messages, ∀ batch ∈ message.batch, batch < s.rpc.batches.length
  slotKnown : s.pendingNewThreadId = [] ∨ Rpc.Known genId s.rpc s.pendingNewThreadId
  confirmedKnown : ∀ threadId ∈ s.confirmed, Rpc.Known genId s.rpc threadId
  slotOpen : s.pendingNewThreadId = [] ∨ s.pendingNewThreadId ∉ s.confirmed
  slotDraft : s.pendingNewThreadId = [] ∨
    ∃ creation ∈ s.creations, creation.threadId = s.pendingNewThreadId ∧
      (s.rpc.MayArrive creation.batch 0 → creation.text = s.newThreadDraft.prompt)
  once : s.confirmed.Nodup
  created : ∀ creation ∈ s.creations, creation.threadId ∈ s.confirmed ∨
    creation.threadId = s.pendingNewThreadId ∨ ¬ s.rpc.MayArrive creation.batch 0
  creationIds : ∀ creation ∈ s.creations, creation.threadId ≠ []
  reported : ∀ threadId ∈ s.reportedThreads, threadId ∈ s.confirmed
  entry : ∀ message ∈ s.messages, s.AwaitsMessage message →
    s.pendingDraftMessages.lookup message.threadId =
      some ⟨message.messageId, message.text, true⟩
  entryMessage : ∀ threadId pending, s.pendingDraftMessages.lookup threadId = some pending →
    ∃ message ∈ s.messages, message.threadId = threadId ∧
      message.messageId = pending.messageId ∧ message.text = pending.prompt

theorem initial_correlated (genId : Nat → Text) : State.initial.Correlated genId where
  creationBatches := by simp [State.initial]
  messageBatches := by simp [State.initial]
  slotKnown := Or.inl rfl
  confirmedKnown := by simp [State.initial]
  slotOpen := Or.inl rfl
  slotDraft := Or.inl rfl
  once := List.nodup_nil
  created := by simp [State.initial]
  creationIds := by simp [State.initial]
  reported := by simp [State.initial]
  entry := by simp [State.initial]
  entryMessage := by simp [State.initial]

theorem State.Correlated.confirmedOnce {genId : Nat → Text} {s : State} (h : s.Correlated genId) :
    s.ConfirmedOnce :=
  fun _ _ hreported => List.count_eq_one_of_mem h.once (h.reported _ hreported)

theorem Rpc.Known.extend {genId : Nat → Text} {r t : Rpc} (h : r.Extends t) {id : Text}
    (hknown : Rpc.Known genId r id) : Rpc.Known genId t id :=
  let ⟨n, hn, hid⟩ := hknown
  ⟨n, hn.trans_le h.generated, hid⟩

section

variable {genId : Nat → Text} {s : State} (h : s.Correlated genId)

include h

/-- What may clear a draft after more requests might have before. -/
theorem State.Correlated.awaited {t : State} {message : Message} (hawaits : t.AwaitsMessage message)
    (hmessage : message ∈ s.messages) (hextends : s.rpc.Extends t.rpc)
    (hreported : ∀ report ∈ s.reportedMessages, report ∈ t.reportedMessages) :
    s.AwaitsMessage message := by
  obtain ⟨hclear, hunreported, batch, hbatch, hmay⟩ := hawaits
  refine ⟨hclear, fun hreport => hunreported (hreported _ hreport), batch, hbatch, ?_⟩
  exact hextends.mayArrive (h.messageBatches message hmessage batch hbatch) hmay

/-- Requests, the shell's threads and the text of thread drafts may change. -/
theorem State.Correlated.extend {rpc : Rpc} (hextends : s.rpc.Extends rpc) (threads : List Text)
    (threadDrafts : List (Text × Text)) :
    State.Correlated genId
      { s with rpc := rpc, threads := threads, threadDrafts := threadDrafts } where
  creationBatches := fun creation hmem =>
    (h.creationBatches creation hmem).trans_le hextends.batches
  messageBatches := fun message hmem batch hbatch =>
    (h.messageBatches message hmem batch hbatch).trans_le hextends.batches
  slotKnown := h.slotKnown.imp_right fun hknown => hknown.extend hextends
  confirmedKnown := fun threadId hmem => (h.confirmedKnown threadId hmem).extend hextends
  slotOpen := h.slotOpen
  slotDraft := h.slotDraft.imp_right fun ⟨creation, hmem, hslot, htext⟩ =>
    ⟨creation, hmem, hslot, fun hmay =>
      htext (hextends.mayArrive (h.creationBatches creation hmem) hmay)⟩
  once := h.once
  created := fun creation hmem =>
    (h.created creation hmem).imp_right <| Or.imp_right fun hnever hmay =>
      hnever (hextends.mayArrive (h.creationBatches creation hmem) hmay)
  creationIds := h.creationIds
  reported := h.reported
  entry := fun message hmem hawaits =>
    h.entry message hmem (h.awaited hawaits hmem hextends fun _ hreport => hreport)
  entryMessage := h.entryMessage

theorem State.Correlated.setThreadPrompt (threadId prompt : Text) :
    (s.setThreadPrompt threadId prompt).Correlated genId := by
  unfold State.setThreadPrompt
  split_ifs
  · exact h.extend (Rpc.Extends.refl _) _ _
  · exact h

theorem State.Correlated.rpcEvent (event : T3.Event) : (s.rpcEvent genId event).Correlated genId := by
  have hstep := s.rpc.step_extends genId event
  cases event with
  | answer id succeeded message times =>
      cases succeeded with
      | false => exact h.extend hstep _ _
      | true =>
          rw [State.rpcEvent]
          cases s.rpc.rpcHandlers.lookup id with
          | none => exact h
          | some handler =>
              refine h.extend ?_ _ _
              unfold awaitShell
              split
              · split_ifs
                · exact Rpc.Extends.states hstep _
                · exact hstep
              · exact hstep
  | dispatchBatch commands key options times => exact h.extend hstep _ _
  | rejectAction key message awaitResolution now => exact h.extend hstep _ _
  | sweep now => exact h.extend hstep _ _
  | cancelActionRequests key => exact h.extend hstep _ _
  | drop => exact h.extend hstep _ _
  | opened canOperate => exact h.extend hstep _ _

/-- The text of the new draft may change unless its thread may still be created. -/
theorem State.Correlated.editNewThread {draft : NewThreadDraft}
    (hcareful : draft.prompt = s.newThreadDraft.prompt ∨ ¬ s.AwaitsThread) :
    State.Correlated genId { s with newThreadDraft := draft } where
  creationBatches := h.creationBatches
  messageBatches := h.messageBatches
  slotKnown := h.slotKnown
  confirmedKnown := h.confirmedKnown
  slotOpen := h.slotOpen
  slotDraft := h.slotDraft.imp_right fun ⟨creation, hmem, hslot, htext⟩ =>
    ⟨creation, hmem, hslot, fun hmay => by
      rcases hcareful with hsame | hnever
      · exact (htext hmay).trans hsame.symm
      · exact absurd ⟨creation, hmem, hslot, hmay⟩ hnever⟩
  once := h.once
  created := h.created
  creationIds := h.creationIds
  reported := h.reported
  entry := h.entry
  entryMessage := h.entryMessage

end

/-! ### Submissions -/

theorem Rpc.requestOnce_batches (r : Rpc) (key : Text) (batch index : Nat) (command : Command)
    (now : ℤ) : (r.requestOnce key batch index command now).batches = r.batches := by
  unfold Rpc.requestOnce
  split_ifs
  · rfl
  · obtain ⟨states, heq, -⟩ := (r.note batch index .dropped).failAction_eq key
      (ascii "Not connected")
    rw [heq]
    rfl

theorem Rpc.sendAt_batches (genId : Nat → Text) (r : Rpc) (batch index : Nat) (times : Times) :
    (r.sendAt genId batch index times).batches = r.batches := by
  unfold Rpc.sendAt
  cases r.batches[batch]? with
  | none => rfl
  | some accepted =>
      dsimp only
      cases (r.actionStates.lookup accepted.key).filter (·.pending) with
      | none => rfl
      | some current =>
          dsimp only
          cases accepted.commands[index]? with
          | none =>
              dsimp only
              split_ifs <;> rfl
          | some command => exact Rpc.requestOnce_batches _ _ _ _ _ _

theorem Rpc.dispatchBatch_refused {genId : Nat → Text} {r : Rpc} {commands : List Command}
    {key : Text} (h : ¬ r.accepts commands key = true) (options : BatchOptions) (times : Times) :
    (r.dispatchBatch genId commands key options times).2 = [] := by
  unfold Rpc.dispatchBatch
  split_ifs with hbegin hoperate hconnected
  · rfl
  · rfl
  · rfl
  · cases commands with
    | nil => rfl
    | cons first rest => exact absurd (by simp_all [Rpc.accepts]) h

theorem Rpc.dispatchBatch_accepted {genId : Nat → Text} {r : Rpc} {commands : List Command}
    {key : Text} (h : r.accepts commands key = true) (options : BatchOptions) (times : Times) :
    (r.dispatchBatch genId commands key options times).1.batches.length =
        r.batches.length + 1 ∧
      ∃ first ∈ commands, (r.dispatchBatch genId commands key options times).2 =
        first.commandId.getD (genId r.generated) := by
  cases commands with
  | nil => simp [Rpc.accepts] at h
  | cons first rest =>
      obtain ⟨⟨hbegin, hoperate⟩, hconnected⟩ :
          (canBeginAction r.actionStates key = true ∧ r.canOperate = true) ∧
            r.connected = true := by
        simpa [Rpc.accepts] using h
      rw [Rpc.dispatchBatch]
      simp only [hbegin, hoperate, hconnected, Bool.not_true, Bool.false_eq_true, if_false]
      refine ⟨?_, first, List.mem_cons_self, rfl⟩
      rw [Rpc.sendAt_batches]
      simp [Rpc.beginAction, Rpc.putActionState]

section

variable {genId : Nat → Text} {s : State} (h : s.Correlated genId)

include h

/-- A message takes the entry of its thread. -/
theorem State.Correlated.putMessage {rpc : Rpc} (hextends : s.rpc.Extends rpc) (message : Message)
    (hbatch : ∀ batch ∈ message.batch, batch < rpc.batches.length)
    (hcareful : ∀ other ∈ s.messages, other.threadId = message.threadId →
      ¬ s.AwaitsMessage other) :
    State.Correlated genId { s with
      rpc := rpc
      pendingDraftMessages := Dict.set s.pendingDraftMessages message.threadId
        ⟨message.messageId, message.text, message.clearDraft⟩
      messages := s.messages ++ [message] } :=
  have hrest := h.extend hextends s.threads s.threadDrafts
  { hrest with
    messageBatches := by
      intro other hother
      rcases List.mem_append.mp hother with hold | hnew
      · exact hrest.messageBatches other hold
      · rw [List.mem_singleton.mp hnew]
        exact hbatch
    entry := by
      intro other hother hawaits
      rw [Dict.lookup_set]
      rcases List.mem_append.mp hother with hold | hnew
      · have hawaited := h.awaited hawaits hold hextends fun _ hreport => hreport
        rw [if_neg fun hthread => hcareful other hold hthread hawaited]
        exact h.entry other hold hawaited
      · obtain rfl := List.mem_singleton.mp hnew
        rw [if_pos rfl, hawaits.1]
    entryMessage := by
      intro threadId pending hlookup
      rw [Dict.lookup_set] at hlookup
      split_ifs at hlookup with hthread
      · refine ⟨message, List.mem_append_right _ List.mem_cons_self, hthread.symm, ?_⟩
        rw [← Option.some.inj hlookup]
        exact ⟨rfl, rfl⟩
      · obtain ⟨other, hother, hfields⟩ := h.entryMessage threadId pending hlookup
        exact ⟨other, List.mem_append_left _ hother, hfields⟩ }

theorem State.Correlated.sendExisting {threadId : Text} (text : Text) (clearDraft : Bool)
    (settings : List JsValue) (turn : JsValue) (times : Times)
    (hcareful : ∀ message ∈ s.messages, message.threadId = threadId → ¬ s.AwaitsMessage message) :
    (s.sendExisting genId threadId text clearDraft settings turn times).Correlated genId := by
  refine h.putMessage ?_ ⟨threadId, genId s.rpc.generated, text, clearDraft, _, settings.length⟩ ?_
    hcareful
  · refine Rpc.Extends.dispatchBatch (Rpc.Extends.taken (Rpc.Extends.refl s.rpc) ?_) _ _ _ _ _
    exact (Nat.le_add_right _ _).trans (Nat.le_add_right _ _)
  · intro batch hbatch
    dsimp only at hbatch
    split_ifs at hbatch with haccepts
    · rw [← Option.mem_some.mp hbatch, (Rpc.dispatchBatch_accepted haccepts _ _).1]
      exact Nat.lt_succ_self _
    · cases hbatch

theorem State.Correlated.rejectAction (key message : Text) (now : ℤ) :
    (s.rejectAction key message now).Correlated genId :=
  h.extend ((Rpc.Extends.refl s.rpc).states _) s.threads s.threadDrafts

/-- A thread takes the slot. -/
theorem State.Correlated.putThread (hinj : Function.Injective genId) (hids : ∀ n, genId n ≠ [])
    {rpc : Rpc} (hextends : s.rpc.Extends rpc) (hgenerated : s.rpc.generated < rpc.generated)
    (hbatches : s.rpc.batches.length < rpc.batches.length) (hcareful : ¬ s.AwaitsThread) :
    State.Correlated genId { s with
      rpc := rpc
      pendingNewThreadId := genId s.rpc.generated
      pendingNewThreadActionKey := newKey
      creations := s.creations ++
        [⟨genId s.rpc.generated, s.newThreadDraft.prompt, s.rpc.batches.length⟩] } :=
  have hrest := h.extend hextends s.threads s.threadDrafts
  have hmem : ∀ {property : Creation → Prop}, (∀ creation ∈ s.creations, property creation) →
      property ⟨genId s.rpc.generated, s.newThreadDraft.prompt, s.rpc.batches.length⟩ →
        ∀ creation ∈ s.creations ++
          [⟨genId s.rpc.generated, s.newThreadDraft.prompt, s.rpc.batches.length⟩],
            property creation := by
    intro property hold hnew creation hcreation
    rcases List.mem_append.mp hcreation with hmem | hmem
    · exact hold creation hmem
    · rw [List.mem_singleton.mp hmem]
      exact hnew
  { hrest with
    creationBatches := hmem hrest.creationBatches hbatches
    slotKnown := Or.inr ⟨s.rpc.generated, hgenerated, rfl⟩
    slotOpen := by
      refine Or.inr fun hconfirmed => ?_
      obtain ⟨n, hn, hid⟩ := h.confirmedKnown _ hconfirmed
      exact absurd (hinj hid) hn.ne
    slotDraft :=
      Or.inr ⟨_, List.mem_append_right _ List.mem_cons_self, rfl, fun _ => rfl⟩
    created := by
      refine hmem (fun creation hcreation => ?_) (Or.inr (Or.inl rfl))
      rcases hrest.created creation hcreation with hconfirmed | hslot | hnever
      · exact Or.inl hconfirmed
      · refine Or.inr (Or.inr fun hmay => hcareful ⟨creation, hcreation, hslot, ?_⟩)
        exact hextends.mayArrive (h.creationBatches creation hcreation) hmay
      · exact Or.inr (Or.inr hnever)
    creationIds := hmem h.creationIds (hids _) }

/-- The slot is emptied by a submission that is not accepted. -/
theorem State.Correlated.dropThread {rpc : Rpc} (hextends : s.rpc.Extends rpc)
    (hcareful : ¬ s.AwaitsThread) :
    State.Correlated genId { s with
      rpc := rpc, pendingNewThreadId := [], pendingNewThreadActionKey := [] } :=
  have hrest := h.extend hextends s.threads s.threadDrafts
  { hrest with
    slotKnown := Or.inl rfl
    slotOpen := Or.inl rfl
    slotDraft := Or.inl rfl
    created := by
      intro creation hcreation
      rcases hrest.created creation hcreation with hconfirmed | hslot | hnever
      · exact Or.inl hconfirmed
      · refine Or.inr (Or.inr fun hmay => hcareful ⟨creation, hcreation, hslot, ?_⟩)
        exact hextends.mayArrive (h.creationBatches creation hcreation) hmay
      · exact Or.inr (Or.inr hnever) }

theorem State.Correlated.sendNewThread (hinj : Function.Injective genId) (hids : ∀ n, genId n ≠ [])
    (body : JsValue) (times : Times) (hcareful : ¬ s.AwaitsThread) :
    (s.sendNewThread genId body times).Correlated genId := by
  have htaken : s.rpc.Extends { s.rpc with generated := s.rpc.generated + 3 } :=
    Rpc.Extends.taken (Rpc.Extends.refl s.rpc) (Nat.le_add_right _ _)
  unfold State.sendNewThread
  dsimp only
  split_ifs with hid haccepts haccepts
  · obtain ⟨-, first, hfirst, hsnd⟩ := Rpc.dispatchBatch_accepted haccepts
      { holdAfterSuccess := true } times
    rw [List.mem_singleton.mp hfirst] at hsnd
    exact absurd (hsnd.symm.trans hid) (hids _)
  · exact h.dropThread (htaken.dispatchBatch genId _ _ _ _) hcareful
  · refine h.putThread hinj hids (htaken.dispatchBatch genId _ _ _ _) ?_ ?_ hcareful
    · have hmore : s.rpc.generated < s.rpc.generated + 3 := by omega
      exact hmore.trans_le
        (Rpc.Extends.dispatchBatch (Rpc.Extends.refl { s.rpc with
          generated := s.rpc.generated + 3 }) genId _ _ _ _).generated
    · rw [(Rpc.dispatchBatch_accepted haccepts _ _).1]
      exact Nat.lt_succ_self _
  · exact absurd (Rpc.dispatchBatch_refused haccepts _ _) hid

theorem State.Correlated.submitExisting (threadId : Text) (overrideText : Option Text)
    (clearDraft : Bool) (more : Option Text) (settings : List JsValue) (turn : JsValue)
    (times : Times)
    (hcareful : Careful s
      (.submitExisting threadId overrideText clearDraft more settings turn times)) :
    (s.submitExisting genId threadId overrideText clearDraft more settings turn
      times).Correlated genId := by
  rw [State.submitExisting]
  split
  · exact h.rejectAction _ _ _
  · exact h.sendExisting _ _ _ _ _ (hcareful ‹_›)

theorem State.Correlated.submitNewThread (hinj : Function.Injective genId)
    (hids : ∀ n, genId n ≠ []) (before more : Option Text) (body : JsValue) (times : Times)
    (hcareful : Careful s (.submitNewThread before more body times)) :
    (s.submitNewThread genId before more body times).Correlated genId := by
  rw [State.submitNewThread]
  split
  · exact h.rejectAction _ _ _
  · exact h.sendNewThread hinj hids _ _ (hcareful ‹_›)

end

/-! ### Reports of the shell -/

/-- The thread in the slot is confirmed. -/
def State.confirmThread (s : State) : State :=
  { s with
    rpc := if s.pendingNewThreadActionKey = [] then s.rpc
      else s.rpc.clearAction s.pendingNewThreadActionKey
    pendingNewThreadId := []
    pendingNewThreadActionKey := []
    newThreadDraft := ⟨[], []⟩
    confirmed := s.confirmed ++ [s.pendingNewThreadId] }

/-- The item lets the slot be confirmed. -/
def ShellItem.offers (threadId : Text) : ShellItem → Bool
  | .snapshot _ => true
  | .threadUpserted named => named = threadId
  | .threadRemoved _ => false

/-- The slot is filled, and its thread is there once an item offers it. -/
def State.Confirms (s : State) (items : List ShellItem) : Prop :=
  s.pendingNewThreadId ≠ [] ∧ s.pendingNewThreadId ∈ s.threads ∧
    ∃ item ∈ items, item.offers s.pendingNewThreadId = true

theorem State.reconcile_eq (s : State) (candidateId : Option Text) :
    (s.pendingNewThreadId ≠ [] ∧ s.pendingNewThreadId ∈ s.threads ∧
        candidateId.any (· ≠ s.pendingNewThreadId) = false) ∧
        s.reconcileNewThreadCreation candidateId = s.confirmThread ∨
      ¬ (s.pendingNewThreadId ≠ [] ∧ s.pendingNewThreadId ∈ s.threads ∧
        candidateId.any (· ≠ s.pendingNewThreadId) = false) ∧
        s.reconcileNewThreadCreation candidateId = s := by
  unfold State.reconcileNewThreadCreation
  by_cases hempty : s.pendingNewThreadId = []
  · exact Or.inr ⟨fun h => h.1 hempty, if_pos hempty⟩
  rw [if_neg hempty]
  by_cases hother : candidateId.any (· ≠ s.pendingNewThreadId) = true
  · exact Or.inr ⟨fun h => Bool.false_ne_true (h.2.2.symm.trans hother), if_pos hother⟩
  rw [if_neg hother]
  by_cases hthere : s.pendingNewThreadId ∈ s.threads
  · exact Or.inl ⟨⟨hempty, hthere, Bool.not_eq_true _ ▸ hother⟩, if_neg (not_not.mpr hthere)⟩
  · exact Or.inr ⟨fun h => hthere h.2.1, if_pos hthere⟩

theorem State.relay_eq (s : State) (item : ShellItem) :
    s.Confirms [item] ∧ s.relay item = s.confirmThread ∨
      ¬ s.Confirms [item] ∧ s.relay item = s := by
  have hone : s.Confirms [item] ↔ s.pendingNewThreadId ≠ [] ∧
      s.pendingNewThreadId ∈ s.threads ∧ item.offers s.pendingNewThreadId = true := by
    simp [State.Confirms]
  rw [hone]
  cases item with
  | snapshot ids => simpa [ShellItem.offers, State.relay] using s.reconcile_eq none
  | threadUpserted threadId =>
      simpa [ShellItem.offers, State.relay] using s.reconcile_eq (some threadId)
  | threadRemoved threadId => exact Or.inr ⟨by simp [ShellItem.offers], rfl⟩

theorem State.foldl_relay_empty {s : State} (hempty : s.pendingNewThreadId = [])
    (items : List ShellItem) : items.foldl State.relay s = s := by
  induction items with
  | nil => rfl
  | cons item items ih =>
      rcases s.relay_eq item with ⟨hconfirms, -⟩ | ⟨-, heq⟩
      · exact absurd hempty hconfirms.1
      · rw [List.foldl_cons, heq, ih]

/-- The signals of a chunk confirm the slot at most once. -/
theorem State.foldl_relay (s : State) (items : List ShellItem) :
    s.Confirms items ∧ items.foldl State.relay s = s.confirmThread ∨
      ¬ s.Confirms items ∧ items.foldl State.relay s = s := by
  induction items with
  | nil => exact Or.inr ⟨fun ⟨_, _, _, hitem, _⟩ => (List.not_mem_nil hitem).elim, rfl⟩
  | cons item items ih =>
      rw [List.foldl_cons]
      rcases s.relay_eq item with ⟨⟨hfilled, hthere, found, hfound, hoffers⟩, heq⟩ | ⟨hnot, heq⟩
      · rw [heq, State.foldl_relay_empty rfl]
        rw [List.mem_singleton.mp hfound] at hoffers
        exact Or.inl ⟨⟨hfilled, hthere, item, List.mem_cons_self, hoffers⟩, rfl⟩
      · rw [heq]
        refine ih.imp (And.imp_left ?_) (And.imp_left ?_)
        · rintro ⟨hfilled, hthere, found, hfound, hoffers⟩
          exact ⟨hfilled, hthere, found, List.mem_cons_of_mem _ hfound, hoffers⟩
        · rintro hrest ⟨hfilled, hthere, found, hfound, hoffers⟩
          rcases List.mem_cons.mp hfound with rfl | hmem
          · exact hnot ⟨hfilled, hthere, found, List.mem_cons_self, hoffers⟩
          · exact hrest ⟨hfilled, hthere, found, hmem, hoffers⟩

/-- A thread that an item offers and that is there in the end has been named. -/
theorem mem_names {threadId : Text} {items : List ShellItem} {threads : List Text}
    (hthere : threadId ∈ items.foldl ShellItem.apply threads)
    (hoffers : threadId ∈ threads → ∃ item ∈ items, item.offers threadId = true) :
    threadId ∈ items.flatMap ShellItem.names := by
  induction items generalizing threads with
  | nil =>
      obtain ⟨item, hitem, -⟩ := hoffers hthere
      exact (List.not_mem_nil hitem).elim
  | cons item items ih =>
      rw [List.flatMap_cons, List.mem_append]
      by_cases hnamed : threadId ∈ item.names
      · exact Or.inl hnamed
      · refine Or.inr (ih hthere fun hleft => ?_)
        have hheld : threadId ∈ threads ∧ item.offers threadId = false := by
          cases item with
          | snapshot ids => exact absurd hleft hnamed
          | threadUpserted named =>
              simp only [ShellItem.names, List.mem_singleton] at hnamed
              simpa [ShellItem.apply, ShellItem.offers, hnamed, Ne.symm hnamed] using hleft
          | threadRemoved removed =>
              exact ⟨(List.mem_filter.mp hleft).1, rfl⟩
        obtain ⟨found, hfound, hoffered⟩ := hoffers hheld.1
        rcases List.mem_cons.mp hfound with rfl | hmem
        · rw [hheld.2] at hoffered
          cases hoffered
        · exact ⟨found, hmem, hoffered⟩

theorem offers_of_mem_names {threadId : Text} {items : List ShellItem}
    (hnamed : threadId ∈ items.flatMap ShellItem.names) :
    ∃ item ∈ items, item.offers threadId = true := by
  obtain ⟨item, hitem, hname⟩ := List.mem_flatMap.mp hnamed
  refine ⟨item, hitem, ?_⟩
  cases item with
  | snapshot ids => rfl
  | threadUpserted named =>
      rw [ShellItem.offers, List.mem_singleton.mp hname]
      exact decide_eq_true rfl
  | threadRemoved removed => cases hname

/-- The chunk has been read, and no signal has gone out yet. -/
def State.heard (s : State) (items : List ShellItem) : State :=
  { s with
    threads := items.foldl ShellItem.apply s.threads
    reportedThreads := s.reportedThreads ++
      (items.flatMap ShellItem.names).filter fun threadId =>
        threadId ∈ s.creations.map Creation.threadId }

theorem State.applyItems_eq (s : State) (items : List ShellItem) :
    (s.heard items).Confirms items ∧ s.applyItems items = (s.heard items).confirmThread ∨
      ¬ (s.heard items).Confirms items ∧ s.applyItems items = s.heard items :=
  (s.heard items).foldl_relay items

theorem State.Confirms.named {s : State} {items : List ShellItem}
    (h : (s.heard items).Confirms items) :
    s.pendingNewThreadId ∈ items.flatMap ShellItem.names :=
  mem_names h.2.1 fun _ => h.2.2

section

variable {genId : Nat → Text} {s : State} (h : s.Correlated genId) {items : List ShellItem}
  (hreported : Reported s (.shellItems items)) (hcareful : Careful s (.shellItems items))

include h hreported

/-- What is reported has been confirmed or is about to be. -/
theorem State.Correlated.named {threadId : Text}
    (hnamed : threadId ∈ (s.heard items).reportedThreads) :
    threadId ∈ s.confirmed ∨ threadId = s.pendingNewThreadId ∧ s.AwaitsThread ∧
      threadId ∈ items.flatMap ShellItem.names := by
  rcases List.mem_append.mp hnamed with hold | hnew
  · exact Or.inl (h.reported threadId hold)
  · obtain ⟨hname, hcreated⟩ := List.mem_filter.mp hnew
    obtain ⟨creation, hmem, rfl⟩ := List.mem_map.mp (of_decide_eq_true hcreated)
    have hmay := (hreported creation hmem hname).mayArrive
    rcases h.created creation hmem with hconfirmed | hslot | hnever
    · exact Or.inl hconfirmed
    · exact Or.inr ⟨hslot, ⟨creation, hmem, hslot, hmay⟩, hname⟩
    · exact absurd hmay hnever

/-- The text that a confirmation discards is the one that was sent. -/
theorem State.Correlated.keepsText : KeepsText s (s.applyItems items) (.shellItems items) := by
  rcases s.applyItems_eq items with ⟨hconfirms, heq⟩ | ⟨-, heq⟩
  · rw [heq]
    refine ⟨fun _ => rfl, Or.inr ?_⟩
    obtain ⟨creation, hmem, hslot, htext⟩ := h.slotDraft.resolve_left hconfirms.1
    refine ⟨creation, hmem, ?_, ?_, htext ?_⟩
    · rw [hslot]
      exact h.slotOpen.resolve_left hconfirms.1
    · rw [hslot]
      exact List.mem_append_right _ List.mem_cons_self
    · exact (hreported creation hmem (hslot ▸ hconfirms.named)).mayArrive
  · rw [heq]
    exact ⟨fun _ => rfl, Or.inl rfl⟩

include hcareful

theorem State.Correlated.applyItems : (s.applyItems items).Correlated genId := by
  have hrest := h.extend (Rpc.Extends.refl s.rpc) (items.foldl ShellItem.apply s.threads)
    s.threadDrafts
  rcases s.applyItems_eq items with ⟨hconfirms, heq⟩ | ⟨hnot, heq⟩
  · have hcleared : s.rpc.Extends (s.heard items).confirmThread.rpc := by
      unfold State.confirmThread
      dsimp only
      split_ifs
      · exact Rpc.Extends.refl _
      · exact Rpc.Extends.states (Rpc.Extends.refl _) _
    have hmore := h.extend hcleared (items.foldl ShellItem.apply s.threads) s.threadDrafts
    rw [heq]
    exact { hmore with
      slotKnown := Or.inl rfl
      slotOpen := Or.inl rfl
      slotDraft := Or.inl rfl
      confirmedKnown := by
        intro threadId hmem
        rcases List.mem_append.mp hmem with hold | hnew
        · exact hmore.confirmedKnown threadId hold
        · rw [List.mem_singleton.mp hnew]
          exact hmore.slotKnown.resolve_left hconfirms.1
      once := by
        refine List.nodup_append.mpr ⟨h.once, List.nodup_singleton _, ?_⟩
        rintro threadId hmem _ hslot rfl
        exact h.slotOpen.resolve_left hconfirms.1 (List.mem_singleton.mp hslot ▸ hmem)
      created := by
        intro creation hmem
        rcases hmore.created creation hmem with hconfirmed | hslot | hnever
        · exact Or.inl (List.mem_append_left _ hconfirmed)
        · exact Or.inl (List.mem_append_right _ (List.mem_singleton.mpr hslot))
        · exact Or.inr (Or.inr hnever)
      reported := by
        intro threadId hmem
        rcases h.named hreported hmem with hconfirmed | ⟨hslot, -⟩
        · exact List.mem_append_left _ hconfirmed
        · exact List.mem_append_right _ (List.mem_singleton.mpr hslot) }
  · rw [heq]
    exact { hrest with
      reported := by
        intro threadId hmem
        rcases h.named hreported hmem with hconfirmed | ⟨rfl, hawaits, hname⟩
        · exact hconfirmed
        · refine absurd ⟨?_, hcareful hawaits hname, offers_of_mem_names hname⟩ hnot
          obtain ⟨creation, hcreation, hslot, -⟩ := hawaits
          exact hslot ▸ h.creationIds creation hcreation }

end

/-! ### Reports of messages -/

theorem State.threadPrompt_clear (s : State) (threadId other : Text) :
    (s.setThreadPrompt threadId []).threadPrompt other =
      if other = threadId then [] else s.threadPrompt other := by
  unfold State.setThreadPrompt
  split_ifs with hheld hother hother
  · simp [State.threadPrompt, hother]
  · simp [State.threadPrompt, hother]
  · have hnone : s.threadDrafts.lookup threadId = none :=
      Option.not_isSome_iff_eq_none.mp (not_or.mp hheld).1
    simp [State.threadPrompt, hother, hnone]
  · rfl

/-- A report either finds the entry of its thread and removes it, or does nothing. -/
theorem State.confirmDraftMessage_eq (s : State) (threadId messageId : Text) :
    (∃ pending, s.pendingDraftMessages.lookup threadId = some pending ∧
        pending.messageId = messageId ∧
      ∃ drafts, s.confirmDraftMessage threadId messageId =
          { s with threadDrafts := drafts,
                   pendingDraftMessages := Dict.pop s.pendingDraftMessages threadId } ∧
        ∀ other, (drafts.lookup other).getD [] =
          if other = threadId ∧ pending.clearDraft = true ∧
            s.threadPrompt threadId = pending.prompt then [] else s.threadPrompt other) ∨
      (∀ pending, s.pendingDraftMessages.lookup threadId = some pending →
        pending.messageId ≠ messageId) ∧ s.confirmDraftMessage threadId messageId = s := by
  unfold State.confirmDraftMessage
  cases hlookup : s.pendingDraftMessages.lookup threadId with
  | none => exact Or.inr ⟨by simp, rfl⟩
  | some pending =>
      dsimp only
      by_cases hid : pending.messageId = messageId
      · rw [if_neg (not_not.mpr hid)]
        refine Or.inl ⟨pending, rfl, hid, ?_⟩
        by_cases hclear : pending.clearDraft = true ∧ s.threadPrompt threadId = pending.prompt
        · rw [if_pos hclear]
          refine ⟨(s.setThreadPrompt threadId []).threadDrafts, ?_, fun other => ?_⟩
          · unfold State.setThreadPrompt
            split_ifs <;> rfl
          · refine (s.threadPrompt_clear threadId other).trans ?_
            simp only [hclear, and_self, and_true]
        · rw [if_neg hclear]
          refine ⟨s.threadDrafts, rfl, fun other => ?_⟩
          rw [if_neg fun h => hclear h.2]
          rfl
      · rw [if_pos hid]
        exact Or.inr ⟨by simpa using hid, rfl⟩

section

variable {genId : Nat → Text} {s : State} (h : s.Correlated genId) (threadId messageId : Text)

include h

theorem State.Correlated.messageReported :
    (s.step genId (.messageReported threadId messageId)).Correlated genId := by
  have hothers : ∀ {message : Message} {t : State}, t.AwaitsMessage message →
      message ∈ s.messages → t.rpc = s.rpc →
        t.reportedMessages = s.reportedMessages ++ [(threadId, messageId)] →
          s.AwaitsMessage message ∧ (message.threadId, message.messageId) ≠ (threadId, messageId) := by
    intro message t hawaits hmem hrpc hreports
    refine ⟨h.awaited hawaits hmem (hrpc ▸ Rpc.Extends.refl _) ?_, ?_⟩
    · rw [hreports]
      exact fun _ => List.mem_append_left _
    · rintro heq
      exact hawaits.2.1 (hreports ▸ List.mem_append_right _ (List.mem_singleton.mpr heq))
  rcases s.confirmDraftMessage_eq threadId messageId with
    ⟨pending, hlookup, hid, drafts, heq, -⟩ | ⟨hnone, heq⟩
  · have hrest := h.extend (Rpc.Extends.refl s.rpc) s.threads drafts
    rw [State.step, heq]
    exact { hrest with
      entry := by
        intro message hmem hawaits
        obtain ⟨hawaited, hne⟩ := hothers hawaits hmem rfl rfl
        have hentry := h.entry message hmem hawaited
        rw [Dict.lookup_pop, if_neg, hentry]
        rintro rfl
        rw [hentry] at hlookup
        exact hne (by rw [← hid, ← Option.some.inj hlookup])
      entryMessage := by
        intro other found hfound
        rw [Dict.lookup_pop] at hfound
        split_ifs at hfound
        exact h.entryMessage other found hfound }
  · rw [State.step, heq]
    exact { h with
      entry := fun message hmem hawaits =>
        h.entry message hmem (hothers hawaits hmem rfl rfl).1 }

theorem State.Correlated.message_keepsText :
    KeepsText s (s.step genId (.messageReported threadId messageId))
      (.messageReported threadId messageId) := by
  rw [State.step]
  rcases s.confirmDraftMessage_eq threadId messageId with
    ⟨pending, hlookup, hid, drafts, heq, hprompts⟩ | ⟨-, heq⟩
  · rw [heq]
    refine ⟨rfl, fun other => ?_⟩
    by_cases hcleared : other = threadId ∧ pending.clearDraft = true ∧
        s.threadPrompt threadId = pending.prompt
    · obtain ⟨message, hmem, hthread, hmessage, htext⟩ := h.entryMessage _ _ hlookup
      exact Or.inr ⟨hcleared.1, message, hmem, hthread, hmessage.trans hid,
        htext.trans hcleared.2.2.symm⟩
    · exact Or.inl ((hprompts other).trans (if_neg hcleared))
  · rw [heq]
    exact ⟨rfl, fun other => Or.inl rfl⟩

theorem State.Correlated.clears (hreported : Reported s (.messageReported threadId messageId)) :
    Clears s (s.step genId (.messageReported threadId messageId))
      (.messageReported threadId messageId) := by
  intro message hmem hthread hmessage hclear hunreported htext
  subst hthread hmessage
  obtain ⟨batch, hbatch, harrived⟩ := hreported message hmem rfl rfl
  have hentry := h.entry message hmem ⟨hclear, hunreported, batch, hbatch, harrived.mayArrive⟩
  rw [State.step]
  rcases s.confirmDraftMessage_eq message.threadId message.messageId with
    ⟨pending, hlookup, -, drafts, heq, hprompts⟩ | ⟨hnone, -⟩
  · rw [hentry] at hlookup
    obtain rfl := Option.some.inj hlookup
    rw [heq]
    exact (hprompts _).trans (if_pos ⟨rfl, rfl, htext⟩)
  · exact absurd rfl (hnone _ hentry)

end

/-! ### Runs -/

theorem State.Correlated.step {genId : Nat → Text} (hinj : Function.Injective genId)
    (hids : ∀ n, genId n ≠ []) {s : State} (h : s.Correlated genId) (event : Event)
    (hreported : Reported s event) (hcareful : Careful s event) :
    (s.step genId event).Correlated genId := by
  cases event with
  | rpc event => exact h.rpcEvent event
  | setThreadPrompt threadId prompt => exact h.setThreadPrompt threadId prompt
  | editNewThread draft => exact h.editNewThread hcareful
  | submitExisting threadId overrideText clearDraft more settings turn times =>
      exact h.submitExisting _ _ _ _ _ _ _ hcareful
  | submitNewThread before more body times =>
      exact h.submitNewThread hinj hids _ _ _ _ hcareful
  | shellItems items => exact h.applyItems hreported hcareful
  | messageReported threadId messageId => exact h.messageReported threadId messageId

theorem State.Correlated.laws {genId : Nat → Text} {s : State} (h : s.Correlated genId)
    (event : Event) (hreported : Reported s event) :
    Clears s (s.step genId event) event ∧ KeepsText s (s.step genId event) event := by
  cases event with
  | shellItems items => exact ⟨trivial, h.keepsText hreported⟩
  | messageReported threadId messageId =>
      exact ⟨h.clears _ _ hreported, h.message_keepsText _ _⟩
  | rpc event => exact ⟨trivial, trivial⟩
  | setThreadPrompt threadId prompt => exact ⟨trivial, trivial⟩
  | editNewThread draft => exact ⟨trivial, trivial⟩
  | submitExisting threadId overrideText clearDraft more settings turn times =>
      exact ⟨trivial, trivial⟩
  | submitNewThread before more body times => exact ⟨trivial, trivial⟩

/-- While no submission or edit crosses one that may still arrive, each created
thread is confirmed once, each reported message clears its draft, and no other
text is discarded. -/
theorem prompts_correlated (genId : Nat → Text) (hinj : Function.Injective genId)
    (hids : ∀ n, genId n ≠ []) (events : List Event)
    (hreported : EachStep (State.step genId) Reported State.initial events)
    (hcareful : EachStep (State.step genId) Careful State.initial events) :
    (∀ s ∈ states (State.step genId) State.initial events, s.ConfirmedOnce) ∧
      EachStep (State.step genId) (fun s event =>
        Clears s (s.step genId event) event ∧ KeepsText s (s.step genId event) event)
        State.initial events := by
  have hrun := hreported.and hcareful
  have hstep : ∀ s event, s.Correlated genId → Reported s event ∧ Careful s event →
      (s.step genId event).Correlated genId :=
    fun s event h hevent => h.step hinj hids event hevent.1 hevent.2
  refine ⟨fun s hs => ?_, ?_⟩
  · exact (hrun.states hstep (initial_correlated genId) s hs).confirmedOnce
  · exact hrun.of_invariant hstep (fun s event h hevent => h.laws event hevent.1)
      (initial_correlated genId)

/-! ### A second submission -/

instance (s : State) : Decidable s.ConfirmedOnce :=
  inferInstanceAs (Decidable (∀ creation ∈ s.creations, creation.threadId ∈ s.reportedThreads →
    s.confirmed.count creation.threadId = 1))

instance (s : State) (event : Event) : Decidable (Reported s event) := by
  cases event <;> unfold Reported <;> infer_instance

instance (s : State) : Decidable s.AwaitsThread :=
  inferInstanceAs (Decidable (∃ creation ∈ s.creations, _ ∧ _))

instance (s : State) (message : Message) : Decidable (s.AwaitsMessage message) :=
  inferInstanceAs (Decidable (_ ∧ _ ∧ _))

instance (s : State) (event : Event) : Decidable (Careful s event) := by
  cases event <;> unfold Careful <;> infer_instance

/-- Ids that are longer each time. -/
def growingId (n : Nat) : Text := List.replicate (n + 1) 97

theorem growingId_injective : Function.Injective growingId := by
  intro m n h
  have hlength := congrArg List.length h
  simpa [growingId] using hlength

/-- A prompt written and submitted after the first snapshot. -/
def promptSubmitted : List Event :=
  [.rpc (.opened true), .shellItems [.snapshot []], .editNewThread ⟨ascii "p", ascii "hello"⟩,
    .submitNewThread none none .null ⟨0, 0⟩]

/-- The submission times out and is made again before the shell reports the thread
of the first. -/
def submittedAgain : List Event :=
  promptSubmitted ++ [.rpc (.sweep 15000), .submitNewThread none none .null ⟨15001, 15001⟩,
    .shellItems [.threadUpserted (growingId 0)]]

theorem submittedAgain_unconfirmed :
    EachStep (State.step growingId) Reported State.initial submittedAgain ∧
      ¬ State.ConfirmedOnce (submittedAgain.foldl (State.step growingId) State.initial) := by
  decide +kernel

/-- The thread is created, and a second prompt is sent to it and reported. -/
def promptAnswered : List Event :=
  promptSubmitted ++ [.rpc (.answer 2 true [] ⟨10, 10⟩),
    .shellItems [.threadUpserted (growingId 0)], .setThreadPrompt (growingId 0) (ascii "more"),
    .submitExisting (growingId 0) none true none [] .null ⟨20, 20⟩,
    .messageReported (growingId 0) (growingId 3)]

theorem prompts_correlated_answered :
    State.ConfirmedOnce (promptAnswered.foldl (State.step growingId) State.initial) := by
  have hreported : EachStep (State.step growingId) Reported State.initial promptAnswered := by
    decide +kernel
  have hcareful : EachStep (State.step growingId) Careful State.initial promptAnswered := by
    decide +kernel
  exact (prompts_correlated growingId growingId_injective (by simp [growingId]) promptAnswered
    hreported hcareful).1 _ (foldl_mem_states _ _)

end Drafts

end T3

end CybexOS
