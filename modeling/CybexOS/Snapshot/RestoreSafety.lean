/-
No run of restores and refreshes, stopped wherever it may, loses a system
root.
-/
import CybexOS.Snapshot.RestoreSteps

namespace CybexOS

namespace Snapshot

open Program

section

variable {base : ℕ} {allowed : Option ℕ}

/-! ### The restore proper -/

/-- The copy is there beside its root, and whatever waits names it. -/
structure InHand (stamp : Stamp) (copy : ℕ) (record : Record) (r : Roots) : Prop where
  copy : r.held (.incoming stamp) = some copy
  free : r.held (.replaced stamp) = none
  same : ∀ found, r.Pending stamp found → found.newRoot = record.newRoot

theorem orUndo_leads {α : Type} {env : Env} {stamp : Stamp} {record : Record}
    {program : Run α} {s : System} {post : Except Failure α → System → Prop}
    (hbase : ∀ u ∈ record.newRoot, base ≤ u)
    (h : program.Leads (Safe base allowed) (fun
      | .ok value, t => post (.ok value) t
      | .error _, t => ∀ found, t.view.Pending stamp found → found.newRoot = record.newRoot) s)
    (hpost : ∀ error t, post (.error error) t) :
    (orUndo env stamp record program).Leads (Safe base allowed) post s := by
  refine leads_catching.mpr (h.imp ?_)
  rintro (error | value) t ht
  · refine Leads.bind (undoPrepared_leads ht hbase) ?_ fun _ _ _ => hpost _ _
    exact fun _ u _ => leads_fail.mpr (hpost _ u)
  · exact ht

theorem pending_written {stamp : Stamp} {record found : Record} {r : Roots}
    (h : (r.setRecord stamp (some record)).Pending stamp found) : found = record := by
  simp only [Roots.pending_setRecord, ↓reduceIte, Option.some.injEq] at h
  exact h.1.symm

theorem prepareRestore_leads {env : Env} {name : Text} {point : Point} {stamp : Stamp}
    {copy : ℕ} {record : Record} {s : System} (h : InHand stamp copy record s.view)
    (hstate : record.state = .prepared) (hbase : base ≤ copy)
    (hnew : ∀ u ∈ record.newRoot, u = copy) :
    (prepareRestore env name point stamp record).Leads (Safe base allowed) (fun
      | .ok _, t => InHand stamp copy record t.view
      | .error _, t => ∀ found, t.view.Pending stamp found → found.newRoot = record.newRoot)
      s := by
  refine Leads.bind ((quiet_mayRaise env _).leads fun _ t ht => ht) ?_ ?_
  · intro _ t ht
    rw [writeRecord, leads_effect_bind, Safe, System.view_writeRecord, ht]
    refine ⟨.prepare _ stamp copy record hstate h.free h.copy hbase hnew h.same, ?_⟩
    refine (quiet_stageBootFiles env name point.archive _ stamp).leads ?_
    have hwritten : InHand stamp copy record (t.writeRecord stamp record).view := by
      rw [System.view_writeRecord, ht]
      exact ⟨h.copy, h.free, fun found hfound => by rw [pending_written hfound]⟩
    rintro (error | placed) u hu
    · simpa only [hu] using hwritten.same
    · simpa only [hu] using hwritten
  · intro error t ht
    simpa only [ht] using h.same

theorem exchangeRoots_leads {env : Env} {stamp : Stamp} {copy : ℕ} {record : Record}
    {s : System} (h : InHand stamp copy record s.view) (hstate : record.state = .prepared)
    (hbase : base ≤ copy) (hnew : ∀ u ∈ record.newRoot, u = copy) (hallowed : allowed = some copy) :
    (exchangeRoots env stamp record).Leads (Safe base allowed) (fun
      | .ok _, _ => True
      | .error _, t => ∀ found, t.view.Pending stamp found → found.newRoot = record.newRoot)
      s := by
  refine Leads.bind ((quiet_mayRaise env _).leads fun _ t ht => ht) ?_ fun _ t ht => by
    simpa only [ht] using h.same
  intro _ t ht
  rw [writeRecord, leads_effect_bind, Safe, System.view_writeRecord, ht]
  refine ⟨.prepare _ stamp copy record hstate h.free h.copy hbase hnew h.same, ?_⟩
  have hview : (t.writeRecord stamp record).view = s.view.setRecord stamp (some record) := by
    rw [System.view_writeRecord, ht]
  generalize t.writeRecord stamp record = t at hview
  have hsame : ∀ u : System, u.view.record = t.view.record →
      ∀ found, u.view.Pending stamp found → found.newRoot = record.newRoot := by
    intro u hu found hfound
    rw [Roots.Pending, hu, hview] at hfound
    rw [pending_written hfound]
  rw [leads_look_bind, leads_ite]
  split_ifs with hboot
  · exact leads_fail.mpr (hsame t rfl)
  · refine Leads.bind ((quiet_mayRaise env _).leads fun _ u hu => hu) ?_ fun _ u hu =>
      hsame u (congrArg Roots.record hu)
    intro _ u hu
    have hexchange : (u.exchange (.incoming stamp) .root).view =
        (u.view.setAt (.incoming stamp) (u.view.held .root)).setAt .root (some copy) := by
      rw [System.view_exchange, hu, hview, Roots.setRecord_held, h.copy]
    rw [leads_effect_bind, Safe, hexchange]
    refine ⟨.exchange _ stamp copy record ?_ ?_ hnew hallowed, ?_⟩
    · rw [hu, hview]
      exact h.copy
    · rw [hu, hview]
      simp [Roots.pending_setRecord, hstate]
    · refine (quiet_mayRaise env _).leads ?_
      rintro (error | value) v hv
      · refine hsame v ?_
        rw [hv, hexchange, hu]
        rfl
      · trivial

/-- The restore from the copy on. -/
theorem copied_leads {env : Env} {name : Text} {point : Point} {stamp : Stamp} {copy : ℕ}
    {record : Record} {s : System} (h : InHand stamp copy record s.view)
    (hstate : record.state = .prepared) (hbase : base ≤ copy)
    (hnew : ∀ u ∈ record.newRoot, u = copy) (hallowed : allowed = some copy) :
    Leads (Safe base allowed) (fun _ _ => True) (do
      let placed ← orUndo env stamp record (prepareRestore env name point stamp record)
      let record := { record with staged := placed }
      orUndo env stamp record (exchangeRoots env stamp record)
      renameIncoming stamp
      let record := { record with state := .swapped }
      writeRecord stamp record
      moveNestedSubvolumes stamp
      finishRestore env stamp record) s := by
  have hcreated : ∀ u ∈ record.newRoot, base ≤ u := fun u hu => hnew u hu ▸ hbase
  refine leads_bind.mpr (orUndo_leads hcreated
    ((prepareRestore_leads h hstate hbase hnew).imp ?_) fun _ _ => trivial)
  rintro (error | placed) t ht
  · exact ht
  have hstaged : InHand stamp copy { record with staged := placed } t.view :=
    ⟨ht.copy, ht.free, ht.same⟩
  refine leads_bind.mpr (orUndo_leads hcreated
    ((exchangeRoots_leads hstaged hstate hbase hnew hallowed).imp ?_) fun _ _ => trivial)
  rintro (error | _) u hu
  · exact hu
  refine renameIncoming_leads trivial fun v _ hfree => ?_
  refine Leads.imp (swapped_leads hfree (by simp) fun w _ hidle => ?_) fun _ _ _ => trivial
  exact finishRestore_leads hidle

theorem restorePoint_leads {env : Env} {name : Text} {point : Point} {kernel : Text}
    {stamp : Stamp} {s : System} (hincoming : s.view.held (.incoming stamp) = none)
    (hreplaced : s.view.held (.replaced stamp) = none) (hidle : Idle stamp s.view)
    (hbase : base ≤ s.view.next) (hallowed : allowed = some s.view.next) :
    (restorePoint env name point kernel stamp).Leads (Safe base allowed) (fun _ _ => True) s := by
  unfold restorePoint
  rw [leads_effect_bind, Safe, System.view_snapshotTo]
  refine ⟨.copy _ stamp hincoming hidle, ?_⟩
  have hcopied := System.view_snapshotTo s (.incoming stamp) point.snapshot
  generalize s.snapshotTo (.incoming stamp) point.snapshot = t at hcopied
  refine subvolumeUuid_bind fun oldRoot _ => subvolumeUuid_bind fun newRoot hnewRoot => ?_
  have hnew : ∀ u ∈ newRoot, u = s.view.next := by
    intro u hu
    have hheld := hnewRoot u hu
    simp only [hcopied, Roots.setAt_held, ↓reduceIte, Option.some.injEq] at hheld
    exact hheld.symm
  have hinhand : ∀ record : Record, InHand stamp s.view.next record t.view := by
    intro record
    refine ⟨by simp [hcopied], by simp [hcopied, hreplaced], fun found hfound => ?_⟩
    rw [hcopied] at hfound
    exact absurd hfound (hidle found)
  exact copied_leads (hinhand _) rfl hbase hnew hallowed

/-! ### The commands -/

theorem commandRestore_leads {repairing env : Env} {name : Text} {stamp : Stamp} {s : System}
    (h : Roots.Keeping base ∅ s.view) (hallowed : allowed = some s.view.next) :
    (commandRestore repairing env name stamp).Leads (Safe base allowed) (fun _ _ => True) s := by
  refine Leads.bind ((completeInterrupted_leads h).and_last
    (fun t => Roots.Keeping base ∅ t.view) (fun _ _ hstep hs => hs.step hstep) h) ?_
    fun _ _ _ => trivial
  rintro _ t ⟨⟨hnext, -, hrooted⟩, hkeeping⟩
  rw [leads_look_bind]
  cases t.points.lookup name with
  | none => exact leads_fail.mpr trivial
  | some point =>
      simp only [leads_look_bind, leads_ite]
      split_ifs with hroot
      · exact leads_fail.mpr trivial
      · cases pointKernel point (bootEntries t.boot) <|> point.snapshot.kernels.getLast? with
        | none => exact leads_fail.mpr trivial
        | some kernel =>
            simp only [leads_look_bind, leads_ite]
            split_ifs with htaken
            · exact leads_fail.mpr trivial
            · simp only [System.hasRoot_eq, Bool.or_eq_true, not_or, Bool.not_eq_true,
                Option.isSome_eq_false_iff, Option.isNone_iff_eq_none] at htaken
              refine restorePoint_leads htaken.2 htaken.1 (fun found hfound => ?_)
                hkeeping.base_le (by rw [hallowed, hnext])
              rcases hrooted () rfl stamp found hfound with hheld | hheld
              · exact hheld htaken.2
              · exact hheld htaken.1

theorem commandRefresh_leads {env : Env} {s : System} (h : Roots.Keeping base ∅ s.view) :
    (commandRefresh env).Leads (Safe base allowed) (fun _ _ => True) s :=
  (completeInterrupted_leads h).imp fun _ _ _ => trivial

/-! ### Runs -/

/-- A command and what it meets. -/
inductive Command where
  | restore (repairing env : Env) (name : Text) (stamp : Stamp)
  | refresh (repairing : Env)

def Command.run : Command → Run Unit
  | .restore repairing env name stamp => commandRestore repairing env name stamp
  | .refresh repairing => commandRefresh repairing

/-- A call of the tool, and the number of effects after which it is killed. -/
structure Call where
  command : Command
  killedAfter : Option ℕ

/-- The states a call passes until it ends or is killed. -/
def Call.moments (call : Call) (s : System) : List System :=
  let passed := call.command.run.moments s
  match call.killedAfter with
  | none => passed
  | some count => passed.take count

/-- The states that calls pass one after the other. -/
def history (s : System) : List Call → List System
  | [] => []
  | call :: calls => call.moments s ++ history ((call.moments s).getLastD s) calls

/-- The state that calls leave. -/
def leave (s : System) (calls : List Call) : System := (history s calls).getLastD s

/-- The copy a call may make the root. -/
def Call.copy (call : Call) (s : System) : Option ℕ :=
  match call.command with
  | .restore .. => some s.nextUuid
  | .refresh _ => none

/-- A system with a root and distinct uuids in which no restore waits. -/
structure Installed (s : System) : Prop where
  root : s.hasRoot .root = true
  distinct : ∀ a b u, s.uuidOf a = some u → s.uuidOf b = some u → a = b
  below : ∀ a u, s.uuidOf a = some u → u < s.nextUuid
  settled : ∀ stamp record, s.records.lookup stamp = some record → record.state ≠ .prepared

theorem Installed.keeping {s : System} (h : Installed s) :
    Roots.Keeping s.nextUuid { u | ∃ name, s.uuidOf name = some u } s.view where
  root := Option.isSome_iff_exists.mp (s.hasRoot_eq .root ▸ h.root)
  distinct := h.distinct
  below := h.below
  base_le := le_refl _
  copies stamp record hpending := absurd hpending.2 (h.settled stamp record hpending.1)
  apart stamp record hpending := absurd hpending.2 (h.settled stamp record hpending.1)
  there _ hu := hu
  documented _ u _ hheld := Or.inl (h.below _ u hheld)

theorem Call.moments_safe {call : Call} {s : System} {base : ℕ}
    (h : Roots.Keeping base ∅ s.view) :
    List.IsChain (Safe base (call.copy s)) (s :: call.moments s) := by
  have hrun : List.IsChain (Safe base (call.copy s))
      (s :: call.command.run.moments s) := by
    cases hcommand : call.command with
    | restore repairing env name stamp =>
        simp only [Call.copy, hcommand]
        exact (commandRestore_leads h rfl).1
    | refresh repairing =>
        simp only [Call.copy, hcommand]
        exact (commandRefresh_leads h).1
  unfold Call.moments
  cases call.killedAfter with
  | none => exact hrun
  | some count => simpa using hrun.take (count + 1)

/-- What every effect of every call keeps. -/
abbrev Sound (base : ℕ) (s t : System) : Prop := ∃ allowed, Safe base allowed s t

/-- Kept roots stay kept along states that effects connect. -/
theorem Sound.keeping {base : ℕ} {kept : Set ℕ} {s : System} {passed : List System}
    (hchain : List.IsChain (Sound base) (s :: passed)) (h : Roots.Keeping base kept s.view) :
    ∀ t ∈ s :: passed, Roots.Keeping base kept t.view := by
  induction passed generalizing s with
  | nil => simpa using h
  | cons head tail ih =>
      rw [List.isChain_cons_cons] at hchain
      obtain ⟨⟨allowed, hstep⟩, htail⟩ := hchain
      exact List.forall_mem_cons.mpr ⟨h, ih htail (h.step hstep)⟩

/-- A root is kept from the moment it is the root. -/
theorem Sound.pairwise {base : ℕ} {kept : Set ℕ} {s : System} {passed : List System}
    (hchain : List.IsChain (Sound base) (s :: passed)) (h : Roots.Keeping base kept s.view) :
    (s :: passed).Pairwise fun earlier later =>
      ∀ u, earlier.uuidOf .root = some u → ∃ name, later.uuidOf name = some u := by
  induction passed generalizing s with
  | nil => exact List.pairwise_singleton _ _
  | cons head tail ih =>
      refine List.pairwise_cons.mpr ⟨fun t ht u hu => ?_, ?_⟩
      · have hkept := Sound.keeping hchain (h.insert_root hu)
        exact (hkept t (List.mem_cons_of_mem _ ht)).there u (Set.mem_insert _ _)
      · rw [List.isChain_cons_cons] at hchain
        obtain ⟨⟨allowed, hstep⟩, htail⟩ := hchain
        exact ih htail (h.step hstep)

theorem Sound.points {base : ℕ} {s : System} {passed : List System}
    (hchain : List.IsChain (Sound base) (s :: passed)) :
    ∀ t ∈ s :: passed, t.points = s.points := by
  induction passed generalizing s with
  | nil => simp
  | cons head tail ih =>
      rw [List.isChain_cons_cons] at hchain
      obtain ⟨⟨allowed, hstep⟩, htail⟩ := hchain
      have hhead : head.points = s.points := hstep.points_root.1
      rw [List.forall_mem_cons]
      exact ⟨rfl, fun t ht => (ih htail t ht).trans hhead⟩

theorem Roots.Keeping.unkept {base : ℕ} {kept : Set ℕ} {r : Roots} (h : Roots.Keeping base kept r) :
    Roots.Keeping base ∅ r :=
  { h with
    there := fun _ hu => absurd hu (Set.notMem_empty _)
    documented := fun _ _ hu => absurd hu (Set.notMem_empty _) }

theorem history_sound {base : ℕ} {s : System} (calls : List Call)
    (h : Roots.Keeping base ∅ s.view) :
    List.IsChain (Sound base) (s :: history s calls) := by
  induction calls generalizing s with
  | nil => exact List.isChain_singleton s
  | cons call calls ih =>
      have hcall : List.IsChain (Sound base) (s :: call.moments s) :=
        (Call.moments_safe h).imp fun _ _ hstep => ⟨_, hstep⟩
      refine isChain_append_iff.mpr ⟨hcall, ih ?_⟩
      exact Sound.keeping hcall h _ List.getLastD_mem_cons

/-- Along the effects of one call the root is the one before it or its copy. -/
theorem Call.root_along {base : ℕ} {allowed : Option ℕ} {s : System} {passed : List System}
    (hchain : List.IsChain (Safe base allowed) (s :: passed)) :
    ∀ t ∈ passed, t.uuidOf .root = s.uuidOf .root ∨
      ∃ copy, allowed = some copy ∧ t.uuidOf .root = some copy := by
  induction passed generalizing s with
  | nil => simp
  | cons head tail ih =>
      rw [List.isChain_cons_cons] at hchain
      have hhead := hchain.1.points_root.2
      rw [List.forall_mem_cons]
      refine ⟨hhead, fun t ht => ?_⟩
      rcases ih hchain.2 t ht with hsame | hcopy
      · rw [hsame]
        exact hhead
      · exact Or.inr hcopy

/-- Whatever calls are made and wherever each is killed, at every moment there
is a root, the recovery points and every root from before are there, and so is
everything that was the root at an earlier moment; within one call the root is
the one it found or the copy it made. -/
theorem history_keeps_roots {s : System} (h : Installed s) (calls : List Call) :
    (∀ t ∈ s :: history s calls, t.hasRoot .root = true ∧ t.points = s.points ∧
      ∀ name u, s.uuidOf name = some u → ∃ held, t.uuidOf held = some u) ∧
    ((s :: history s calls).Pairwise fun earlier later =>
      ∀ u, earlier.uuidOf .root = some u → ∃ held, later.uuidOf held = some u) ∧
    ∀ call : Call, ∀ t ∈ call.moments (leave s calls),
      t.uuidOf .root = (leave s calls).uuidOf .root ∨
        ∃ copy, call.copy (leave s calls) = some copy ∧ t.uuidOf .root = some copy := by
  have hsound := history_sound calls h.keeping.unkept
  have hkeeping := Sound.keeping hsound h.keeping
  refine ⟨fun t ht => ⟨?_, Sound.points hsound t ht, fun name u hu => ?_⟩,
    Sound.pairwise hsound h.keeping, fun call => ?_⟩
  · rw [System.hasRoot_eq]
    exact Option.isSome_iff_exists.mpr (hkeeping t ht).root
  · exact (hkeeping t ht).there u ⟨name, hu⟩
  · have hlast := (hkeeping _ List.getLastD_mem_cons).unkept
    exact Call.root_along (Call.moments_safe hlast)

/-- A root with one kernel, one recovery point and a /boot that has its entry. -/
def smallSystem : System where
  roots
    | .root => some ⟨1, [ascii "6.1"], []⟩
    | _ => none
  points := [(ascii "p", ⟨⟨0, [ascii "6.1"], []⟩, some [], some (ascii "6.1")⟩)]
  records := []
  boot := [(ascii "loader/entries/a.conf", ⟨ascii "6.1", []⟩)]
  staging := []
  backups := []
  savedEntry := none
  nextEntry := none
  nextUuid := 2

/-- Everything works. -/
def smoothly : Env := ⟨fun _ _ => true, fun _ => true, fun _ => false, true⟩

theorem smallSystem_installed : Installed smallSystem where
  root := rfl
  distinct a b u ha hb := by
    cases a <;> cases b <;> simp_all [smallSystem, System.uuidOf]
  below a u ha := by
    cases a <;> simp_all [smallSystem, System.uuidOf] <;> omega
  settled := by simp [smallSystem]

/-- A restore killed right after its exchange, then a refresh. -/
def killedThenRepaired : List Call :=
  [⟨.restore smoothly smoothly (ascii "p") 7, some 4⟩, ⟨.refresh smoothly, none⟩]

theorem history_keeps_roots_killed :
    (∀ t ∈ smallSystem :: history smallSystem killedThenRepaired,
      t.hasRoot .root = true ∧ t.points = smallSystem.points ∧
        ∀ name u, smallSystem.uuidOf name = some u → ∃ held, t.uuidOf held = some u) ∧
    ((smallSystem :: history smallSystem killedThenRepaired).Pairwise fun earlier later =>
      ∀ u, earlier.uuidOf .root = some u → ∃ held, later.uuidOf held = some u) ∧
    ∀ call : Call, ∀ t ∈ call.moments (leave smallSystem killedThenRepaired),
      t.uuidOf .root = (leave smallSystem killedThenRepaired).uuidOf .root ∨
        ∃ copy, call.copy (leave smallSystem killedThenRepaired) = some copy ∧
          t.uuidOf .root = some copy :=
  history_keeps_roots smallSystem_installed killedThenRepaired

example : (leave smallSystem killedThenRepaired).uuidOf .root = some 2 := by decide +kernel

example : (leave smallSystem killedThenRepaired).uuidOf (.replaced 7) = some 1 := by
  decide +kernel

end

end Snapshot

end CybexOS
