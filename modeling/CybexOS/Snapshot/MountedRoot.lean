/-
What the running system is called while its root is exchanged under it, and
when the tool still knows it.
-/
import CybexOS.Snapshot.Create
import CybexOS.Snapshot.RestoreSafety

namespace CybexOS

namespace Snapshot

open Program

/-! ### Names of roots -/

/-- The second of a restore as it is written. -/
structure StampText where
  text : Text
  shape : isStamp text = true

/-- The path of a root at the top level. -/
def rootPath (spell : Stamp → StampText) : RootName → Text
  | .root => ascii "/root"
  | .incoming stamp => ascii "/root.incoming-" ++ (spell stamp).text
  | .replaced stamp => ascii "/root.replaced-" ++ (spell stamp).text

theorem getLast_stamp (stamp : StampText) (before : Text) :
    (before ++ stamp.text).getLast? ≠ some 10 := by
  have hshape := stamp.shape
  rw [isStamp, Bool.and_eq_true, beq_iff_eq] at hshape
  have hlast : stamp.text.getLast? = some 90 := by
    rw [← List.take_append_drop 15 stamp.text, hshape.2]
    simp [ascii]
  simp [List.getLast?_append, hlast]

theorem matchesReplaced_replaced (stamp : StampText) :
    matchesReplaced (ascii "root.replaced-" ++ stamp.text) = true := by
  have hdrop : (ascii "root.replaced-" ++ stamp.text).drop 14 = stamp.text :=
    List.drop_left' rfl
  have hstart : startsWith (ascii "root.replaced-" ++ stamp.text) (ascii "root.replaced-") = true :=
    List.isPrefixOf_iff_prefix.mpr (List.prefix_append _ _)
  rw [matchesReplaced, if_neg (getLast_stamp stamp _), hdrop, hstart, stamp.shape]
  rfl

theorem matchesReplaced_incoming (stamp : StampText) :
    matchesReplaced (ascii "root.incoming-" ++ stamp.text) = false := by
  rw [matchesReplaced, if_neg (getLast_stamp stamp _)]
  simp [startsWith, ascii]

/-! ### Where the mounted root goes -/

/-- The mounted root stays where it is, is exchanged, or gets its final name. -/
inductive Moves (mounted : ℕ) (stamp : Stamp) (r t : Roots) : Prop
  | rooted (hbefore : r.held .root = some mounted) (hafter : t.held .root = some mounted)
  | exchanged (hbefore : r.held .root = some mounted)
      (hafter : t.held (.incoming stamp) = some mounted)
  | renamed (hbefore : r.held (.incoming stamp) = some mounted)
      (hafter : t.held (.replaced stamp) = some mounted)
  | settled (hbefore : r.held (.replaced stamp) = some mounted)
      (hafter : t.held (.replaced stamp) = some mounted)

section

variable {base mounted : ℕ} {stamp : Stamp}

abbrev Moving (mounted : ℕ) (stamp : Stamp) (s t : System) : Prop :=
  Moves mounted stamp s.view t.view

/-- Without an exchange the root stays. -/
theorem rooted_leads {α : Type} {program : Run α} {post : Except Failure α → System → Prop}
    {s : System} (h : program.Leads (Safe base none) post s)
    (hroot : s.view.held .root = some mounted) :
    program.Leads (Moving mounted stamp)
      (fun result t => post result t ∧ t.view.held .root = some mounted) s := by
  have halong := h.along (fun t => t.view.held .root = some mounted) (fun t u hstep ht => by
    rcases hstep.points_root.2 with hsame | ⟨copy, hcopy, -⟩
    · rw [hsame, ht]
    · cases hcopy) hroot
  exact halong.mono (fun t u htu => .rooted htu.2.1 htu.2.2) fun _ _ => id

/-- Programs that change no root leave a set-aside one where it is. -/
theorem settled_leads {α : Type} {program : Run α}
    (h : ∀ s : System, program.Leads (fun s t => t.view.held = s.view.held)
      (fun _ t => t.view.held = s.view.held) s) {s : System}
    (hreplaced : s.view.held (.replaced stamp) = some mounted) :
    program.Leads (Moving mounted stamp)
      (fun _ t => t.view.held (.replaced stamp) = some mounted) s := by
  have halong := (h s).along (fun t => t.view.held (.replaced stamp) = some mounted)
    (fun t u hstep ht => by rw [hstep, ht]) hreplaced
  exact halong.mono (fun t u htu => .settled htu.2.1 htu.2.2) fun _ t ht => ht.2

theorem Quiet.settled {α : Type} {program : Run α} (h : Quiet program) {s : System}
    (hreplaced : s.view.held (.replaced stamp) = some mounted) :
    program.Leads (Moving mounted stamp)
      (fun _ t => t.view.held (.replaced stamp) = some mounted) s :=
  settled_leads (fun s => (h s).mono (fun _ _ ht => by rw [ht]) fun _ _ ht => by rw [ht]) hreplaced

theorem writeRecord_settled (record : Record) {s : System}
    (hreplaced : s.view.held (.replaced stamp) = some mounted) :
    (writeRecord stamp record).Leads (Moving mounted stamp)
      (fun _ t => t.view.held (.replaced stamp) = some mounted) s := by
  apply settled_leads _ hreplaced
  intro t
  rw [writeRecord, leads_effect, System.view_writeRecord]
  exact ⟨rfl, rfl⟩

theorem finishRestore_settled {env : Env} {record : Record} {s : System}
    (hreplaced : s.view.held (.replaced stamp) = some mounted) :
    (finishRestore env stamp record).Leads (Moving mounted stamp)
      (fun _ t => t.view.held (.replaced stamp) = some mounted) s := by
  rw [finishRestore, leads_ite]
  split_ifs with hswapped
  · refine Leads.bind ((quiet_reconcileBoot env stamp record).settled hreplaced) ?_ fun _ _ => id
    intro _ t ht
    exact writeRecord_settled _ ht
  · exact leads_pure.mpr hreplaced

/-- The rename of the exchanged root, and what follows it. -/
theorem renamed_leads {env : Env} {record : Record} {s : System}
    (hincoming : s.view.held (.incoming stamp) = some mounted)
    (hfree : s.view.held (.replaced stamp) = none) :
    Leads (Moving mounted stamp) (fun _ _ => True) (do
      renameIncoming stamp
      writeRecord stamp record
      moveNestedSubvolumes stamp
      finishRestore env stamp record) s := by
  have htaken : s.hasRoot (.replaced stamp) = false := by
    rw [System.hasRoot_eq, hfree]
    rfl
  rw [renameIncoming, leads_bind, leads_look_bind, htaken]
  have hview : ((s.setRoot (.replaced stamp) (s.roots (.incoming stamp))).setRoot
      (.incoming stamp) none).view.held (.replaced stamp) = some mounted := by
    rw [System.view_setRoot, System.view_setRoot]
    simpa [System.uuidOf] using hincoming
  simp only [Bool.false_eq_true, if_false, leads_effect]
  refine ⟨.renamed hincoming hview, ?_⟩
  refine Leads.bind (writeRecord_settled record hview) ?_ fun _ _ _ => trivial
  intro _ t ht
  refine Leads.bind ((quiet_moveNestedSubvolumes stamp).settled ht) ?_ fun _ _ _ => trivial
  intro _ u hu
  exact (finishRestore_settled hu).imp fun _ _ _ => trivial

/-- After the exchange nothing is undone. -/
theorem undoPrepared_exchanged {env : Env} {record : Record} {s : System}
    (hincoming : s.view.held (.incoming stamp) = some mounted)
    (hnew : record.newRoot ≠ some mounted) :
    (undoPrepared env stamp record).Leads (Moving mounted stamp) (fun _ _ => True) s := by
  have hthere : s.hasRoot (.incoming stamp) = true := by
    rw [System.hasRoot_eq, hincoming]
    rfl
  have hother : (if env.readable stamp .unusedIncoming then s.uuidOf (.incoming stamp) else none) =
      none ∨ (if env.readable stamp .unusedIncoming then s.uuidOf (.incoming stamp) else none) ≠
        record.newRoot := by
    split
    · right
      rw [← System.view_held, hincoming]
      exact hnew.symm
    · exact Or.inl rfl
  rw [undoPrepared, leads_look_bind, hthere, if_pos rfl, isUnused, subvolumeUuid, leads_bind,
    leads_look_bind, if_pos hother, leads_pure]
  exact leads_pure.mpr trivial

/-- A failure before the exchange finds the root where it was, one after it
under the incoming name. -/
theorem exchangeRoots_moves {env : Env} {copy : ℕ} {record : Record} {s : System}
    (h : InHand stamp copy record s.view) (hroot : s.view.held .root = some mounted) :
    (exchangeRoots env stamp record).Leads (Moving mounted stamp) (fun
      | .ok _, t => t.view.held (.incoming stamp) = some mounted ∧
          t.view.held (.replaced stamp) = none
      | .error _, t => (t.view.held .root = some mounted ∧
          ∀ found, t.view.Pending stamp found → found.newRoot = record.newRoot) ∨
          t.view.held (.incoming stamp) = some mounted) s := by
  unfold exchangeRoots
  have hquiet : ∀ point, ∀ t : System, t.view.held .root = some mounted →
      (mayRaise env point).Leads (Moving mounted stamp) (fun _ u => u = t) t := by
    intro point t ht
    rw [mayRaise, leads_ite]
    split_ifs
    · exact leads_fail.mpr rfl
    · exact leads_pure.mpr rfl
  refine Leads.bind (hquiet .staged s hroot) ?_ fun _ t ht => Or.inl (ht ▸ ⟨hroot, h.same⟩)
  rintro _ t rfl
  rw [writeRecord, leads_effect_bind, Moving, System.view_writeRecord]
  refine ⟨.rooted hroot hroot, ?_⟩
  have hview : (t.writeRecord stamp record).view = t.view.setRecord stamp (some record) := by
    rw [System.view_writeRecord]
  generalize t.writeRecord stamp record = u at hview
  have hrooted : u.view.held .root = some mounted := by rw [hview]; exact hroot
  have hsame : ∀ found, u.view.Pending stamp found → found.newRoot = record.newRoot := by
    intro found hfound
    rw [hview] at hfound
    rw [pending_written hfound]
  rw [leads_look_bind, leads_ite]
  split_ifs with hboot
  · exact leads_fail.mpr (Or.inl ⟨hrooted, hsame⟩)
  · refine Leads.bind (hquiet .exchange u hrooted) ?_ fun _ v hv =>
      Or.inl (hv ▸ ⟨hrooted, hsame⟩)
    rintro _ v rfl
    have hincoming : (v.exchange (.incoming stamp) .root).view.held (.incoming stamp) =
        some mounted := by
      rw [System.view_exchange]
      simpa using hrooted
    have hfree : (v.exchange (.incoming stamp) .root).view.held (.replaced stamp) = none := by
      rw [System.view_exchange]
      simpa [hview] using h.free
    rw [leads_effect_bind]
    refine ⟨.exchanged hrooted hincoming, ?_⟩
    rw [mayRaise, leads_ite]
    split_ifs
    · exact leads_fail.mpr (Or.inr hincoming)
    · exact leads_pure.mpr ⟨hincoming, hfree⟩

/-- The restore from the copy on. -/
theorem copied_moves {env : Env} {name : Text} {point : Point} {copy : ℕ} {record : Record}
    {s : System} (h : InHand stamp copy record s.view) (hstate : record.state = .prepared)
    (hbase : base ≤ copy) (hnew : ∀ u ∈ record.newRoot, u = copy)
    (hroot : s.view.held .root = some mounted) (hne : copy ≠ mounted) :
    Leads (Moving mounted stamp) (fun _ _ => True) (do
      let placed ← orUndo env stamp record (prepareRestore env name point stamp record)
      let record := { record with staged := placed }
      orUndo env stamp record (exchangeRoots env stamp record)
      renameIncoming stamp
      let record := { record with state := .swapped }
      writeRecord stamp record
      moveNestedSubvolumes stamp
      finishRestore env stamp record) s := by
  have hcreated : ∀ u ∈ record.newRoot, base ≤ u := fun u hu => hnew u hu ▸ hbase
  have hother : record.newRoot ≠ some mounted := fun hmounted => hne (hnew mounted hmounted).symm
  have hprepare : (orUndo env stamp record (prepareRestore env name point stamp record)).Leads
      (Safe base none) (fun result t => ∀ placed, result = .ok placed →
        InHand stamp copy { record with staged := placed } t.view) s := by
    refine orUndo_leads hcreated ((prepareRestore_leads h hstate hbase hnew).imp ?_)
      fun _ _ _ hfailed => by cases hfailed
    rintro (error | placed) t ht
    · exact ht
    · rintro _ ⟨⟩
      exact ⟨ht.copy, ht.free, ht.same⟩
  refine Leads.bind (rooted_leads hprepare hroot) ?_ fun _ _ _ => trivial
  rintro placed t ⟨hplaced, hrooted⟩
  have hstaged := hplaced placed rfl
  refine leads_bind.mpr ?_
  rw [orUndo, leads_catching]
  refine (exchangeRoots_moves hstaged hrooted).imp ?_
  rintro (error | value) u hu
  · rcases hu with ⟨hstill, hsame⟩ | hincoming
    · refine Leads.bind (rooted_leads (undoPrepared_leads hsame hcreated) hstill) ?_
        fun _ _ _ => trivial
      exact fun _ _ _ => leads_fail.mpr trivial
    · refine Leads.bind (undoPrepared_exchanged hincoming hother) ?_ fun _ _ _ => trivial
      exact fun _ _ _ => leads_fail.mpr trivial
  · exact renamed_leads hu.1 hu.2

theorem restorePoint_moves {env : Env} {name : Text} {point : Point} {kernel : Text} {s : System}
    (hreplaced : s.view.held (.replaced stamp) = none) (hidle : Idle stamp s.view)
    (hroot : s.view.held .root = some mounted) (hbelow : mounted < s.view.next) :
    (restorePoint env name point kernel stamp).Leads (Moving mounted stamp) (fun _ _ => True)
      s := by
  unfold restorePoint
  have hcopied := System.view_snapshotTo s (.incoming stamp) point.snapshot
  have hstill : (s.snapshotTo (.incoming stamp) point.snapshot).view.held .root =
      some mounted := by
    rw [hcopied]
    simpa using hroot
  rw [leads_effect_bind]
  refine ⟨.rooted hroot hstill, ?_⟩
  generalize s.snapshotTo (.incoming stamp) point.snapshot = t at hcopied hstill
  refine subvolumeUuid_bind fun oldRoot _ => subvolumeUuid_bind fun newRoot hnewRoot => ?_
  have hnew : ∀ u ∈ newRoot, u = s.view.next := by
    intro u hu
    have hheld := hnewRoot u hu
    simp only [hcopied, Roots.setAt_held, ↓reduceIte, Option.some.injEq] at hheld
    exact hheld.symm
  have hinhand : ∀ record : Record, InHand stamp s.view.next record t.view := by
    intro record
    refine ⟨by simp [hcopied], by simp [hcopied, hreplaced], fun found hfound => ?_⟩
    rw [hcopied] at hfound
    exact absurd hfound (hidle found)
  exact copied_moves (hinhand _) rfl (le_refl _) hnew hstill (Nat.ne_of_gt hbelow)

theorem commandRestore_moves {repairing env : Env} {name : Text} {s : System}
    (h : Roots.Keeping base ∅ s.view) (hroot : s.view.held .root = some mounted) :
    (commandRestore repairing env name stamp).Leads (Moving mounted stamp) (fun _ _ => True)
      s := by
  refine Leads.bind (rooted_leads ((completeInterrupted_leads h).and_last
    (fun t => Roots.Keeping base ∅ t.view) (fun _ _ hstep hs => hs.step hstep) h) hroot) ?_
    fun _ _ _ => trivial
  rintro _ t ⟨⟨⟨-, -, hrooted⟩, hkeeping⟩, hstill⟩
  rw [leads_look_bind]
  cases t.points.lookup name with
  | none => exact leads_fail.mpr trivial
  | some point =>
      simp only [leads_look_bind, leads_ite]
      split_ifs with hmissing
      · exact leads_fail.mpr trivial
      · cases pointKernel point (bootEntries t.boot) <|> point.snapshot.kernels.getLast? with
        | none => exact leads_fail.mpr trivial
        | some kernel =>
            simp only [leads_look_bind, leads_ite]
            split_ifs with htaken
            · exact leads_fail.mpr trivial
            · simp only [System.hasRoot_eq, Bool.or_eq_true, not_or, Bool.not_eq_true,
                Option.isSome_eq_false_iff, Option.isNone_iff_eq_none] at htaken
              refine restorePoint_moves htaken.1 (fun found hfound => ?_) hstill
                (hkeeping.below .root mounted hstill)
              rcases hrooted () rfl stamp found hfound with hheld | hheld
              · exact hheld htaken.2
              · exact hheld htaken.1

/-! ### Refreshes afterwards -/

/-- What each step of a chain keeps holds along it. -/
theorem forall_of_isChain {step : System → System → Prop} (invariant : System → Prop)
    (hstep : ∀ s t, step s t → invariant s → invariant t) {s : System} {passed : List System}
    (hchain : List.IsChain step (s :: passed)) (hs : invariant s) :
    ∀ t ∈ s :: passed, invariant t := by
  induction passed generalizing s with
  | nil => simpa using hs
  | cons head tail ih =>
      rw [List.isChain_cons_cons] at hchain
      exact List.forall_mem_cons.mpr ⟨hs, ih hchain.2 (hstep s head hchain.1 hs)⟩

/-- Without an exchange a set-aside root stays where it is. -/
theorem replaced_stays {r t : Roots} (h : Roots.Step base none r t)
    (hheld : r.held (.replaced stamp) = some mounted) :
    t.held (.replaced stamp) = some mounted := by
  cases h with
  | rename other hfree =>
      have hne : stamp ≠ other := by
        rintro rfl
        rw [hheld] at hfree
        cases hfree
      simpa [hne] using hheld
  | copy other hfree hidle => simpa using hheld
  | discard other copy hcopy hbase hsame => simpa using hheld
  | exchange other copy record hcopy hpending hnew hallowed => cases hallowed
  | _ => exact hheld

/-- Calls of refresh, each with what it meets and where it is killed. -/
def refreshes (calls : List (Env × Option ℕ)) : List Call :=
  calls.map fun call => ⟨.refresh call.1, call.2⟩

theorem refreshes_chain {s : System} (calls : List (Env × Option ℕ))
    (h : Roots.Keeping base ∅ s.view) :
    List.IsChain (Safe base none) (s :: history s (refreshes calls)) := by
  induction calls generalizing s with
  | nil => exact List.isChain_singleton s
  | cons call calls ih =>
      have hcall := @Call.moments_safe ⟨.refresh call.1, call.2⟩ _ _ h
      refine isChain_append_iff.mpr ⟨hcall, ih ?_⟩
      exact forall_of_isChain (fun t => Roots.Keeping base ∅ t.view)
        (fun _ _ hstep hs => hs.step hstep) hcall h _ List.getLastD_mem_cons

end

/-! ### What the tool sees -/

/-- A machine that booted its installed system, after whatever was done before. -/
structure NormalBoot where
  before : System
  installed : Installed before
  calls : List Call
  mounted : ℕ
  boots : (leave before calls).uuidOf .root = some mounted
  spell : Stamp → StampText
  uuid : Text
  uuid_safe : isSafeUuid uuid = true

namespace NormalBoot

variable (boot : NormalBoot)

def state : System := leave boot.before boot.calls

/-- What the mounts say when the mounted root has this name. -/
def layout (name : RootName) : Layout :=
  detectLayout
    { rootType := ascii "btrfs"
      rootPath := rootPath boot.spell name
      rootUuid := boot.uuid
      homePath := ascii "/home"
      lowerType := []
      lowerPath := []
      lowerUuid := []
      recovery := [] }

theorem layout_root : boot.layout .root = ⟨.btrfs, boot.uuid, [], [], ascii "/root"⟩ := by
  simp [layout, detectLayout, rootPath, boot.uuid_safe]

theorem layout_replaced (stamp : Stamp) :
    boot.layout (.replaced stamp) =
      ⟨.btrfs, boot.uuid, [], [], rootPath boot.spell (.replaced stamp)⟩ := by
  have hname : (rootPath boot.spell (.replaced stamp)).dropWhile (· = 47) =
      ascii "root.replaced-" ++ (boot.spell stamp).text := by
    simp [rootPath, ascii]
  simp [layout, detectLayout, hname, matchesReplaced_replaced, boot.uuid_safe]

theorem layout_incoming (stamp : Stamp) : (boot.layout (.incoming stamp)).kind = .unsupported := by
  have hname : (rootPath boot.spell (.incoming stamp)).dropWhile (· = 47) =
      ascii "root.incoming-" ++ (boot.spell stamp).text := by
    simp [rootPath, ascii]
  have hother : rootPath boot.spell (.incoming stamp) ≠ ascii "/root" := by
    simp [rootPath, ascii]
  simp [layout, detectLayout, hname, hother, matchesReplaced_incoming, unsupported]

theorem pending_replaced (stamp : Stamp) :
    (boot.layout (.replaced stamp)).pendingReboot = true := by
  rw [layout_replaced]
  simp [Layout.pendingReboot, rootPath, ascii]

end NormalBoot

/-- `command_refresh`, where the menu is left out. -/
def refreshOn (layout : Layout) (env : Env) : Run Unit :=
  if layout.usable then completeInterrupted env else pure ()

/-- The tool knows the mounted root under this name. -/
structure Recognised (boot : NormalBoot) (t : System) (name : RootName) : Prop where
  usable : (boot.layout name).kind = .btrfs
  pending : (boot.layout name).pendingReboot = true ↔ t.uuidOf .root ≠ some boot.mounted
  refreshes : ∀ env, refreshOn (boot.layout name) env = completeInterrupted env
  refused : t.uuidOf .root ≠ some boot.mounted → ∀ (inputs : Create.Inputs) (store : Create.Store),
    inputs.layout = boot.layout name → inputs.arguments.length ≤ 1 →
      inputs.early store = some (.refused .awaitsRestart)

/-- The mounted root has one name, and the tool knows it. -/
def Known (boot : NormalBoot) (t : System) : Prop :=
  ∃ name, t.uuidOf name = some boot.mounted ∧
    (∀ other, t.uuidOf other = some boot.mounted → other = name) ∧ Recognised boot t name

/-- The last effect is the exchange of the mounted root. -/
def ExchangedLast (mounted : ℕ) (before t : System) : Prop :=
  before.uuidOf .root = some mounted ∧ t.uuidOf .root ≠ some mounted

theorem early_awaitsRestart {inputs : Create.Inputs} {store : Create.Store}
    (hpending : inputs.layout.pendingReboot = true) (hlength : inputs.arguments.length ≤ 1) :
    inputs.early store = some (.refused .awaitsRestart) := by
  have hkind : inputs.layout.kind = .btrfs := by
    rw [Layout.pendingReboot, Bool.and_eq_true, decide_eq_true_eq] at hpending
    exact hpending.1
  simp [Create.Inputs.early, hkind, hpending, Nat.not_lt.mpr hlength]

section

variable {boot : NormalBoot} {base : ℕ} {t : System}

theorem known_root {kept : Set ℕ} (h : Roots.Keeping base kept t.view)
    (hroot : t.uuidOf .root = some boot.mounted) : Known boot t := by
  refine ⟨.root, hroot, fun other hother => h.distinct _ _ _ hother hroot, ?_⟩
  constructor
  · rw [boot.layout_root]
  · rw [boot.layout_root]
    simp [Layout.pendingReboot, hroot]
  · intro env
    rw [refreshOn, boot.layout_root]
    rfl
  · exact fun hother => absurd hroot hother

theorem known_replaced {kept : Set ℕ} (h : Roots.Keeping base kept t.view) {stamp : Stamp}
    (hreplaced : t.uuidOf (.replaced stamp) = some boot.mounted) : Known boot t := by
  have haway : t.uuidOf .root ≠ some boot.mounted := by
    intro hroot
    cases h.distinct _ _ _ hroot hreplaced
  refine ⟨.replaced stamp, hreplaced, fun other hother => h.distinct _ _ _ hother hreplaced, ?_⟩
  constructor
  · rw [boot.layout_replaced]
  · exact iff_of_true (boot.pending_replaced stamp) haway
  · intro env
    rw [refreshOn, boot.layout_replaced]
    rfl
  · intro _ inputs store hlayout hlength
    exact early_awaitsRestart (hlayout ▸ boot.pending_replaced stamp) hlength

theorem not_known_incoming {stamp : Stamp}
    (hincoming : t.uuidOf (.incoming stamp) = some boot.mounted) : ¬ Known boot t := by
  rintro ⟨name, -, honly, hknown⟩
  have hname := honly _ hincoming
  have hkind := hknown.usable
  rw [← hname, boot.layout_incoming] at hkind
  cases hkind

/-- Refreshes keep a known root known. -/
theorem known_refreshes (h : Roots.Keeping base ∅ t.view)
    (hheld : t.uuidOf .root = some boot.mounted ∨
      ∃ stamp, t.uuidOf (.replaced stamp) = some boot.mounted)
    (calls : List (Env × Option ℕ)) :
    ∀ u ∈ t :: history t (refreshes calls), Known boot u := by
  have hchain := refreshes_chain calls h
  have hkeeping := forall_of_isChain (fun u => Roots.Keeping base ∅ u.view)
    (fun _ _ hstep hs => hs.step hstep) hchain h
  intro u hu
  rcases hheld with hroot | ⟨stamp, hreplaced⟩
  · have hstill := forall_of_isChain (fun v => v.uuidOf .root = some boot.mounted)
      (fun v w hstep hv => by
        rcases hstep.points_root.2 with hsame | ⟨copy, hcopy, -⟩
        · exact hsame.trans hv
        · cases hcopy) hchain hroot
    exact known_root (hkeeping u hu) (hstill u hu)
  · have hstill := forall_of_isChain (fun v => v.uuidOf (.replaced stamp) = some boot.mounted)
      (fun _ _ hstep hv => replaced_stays hstep hv) hchain hreplaced
    exact known_replaced (hkeeping u hu) (hstill u hu)

end

theorem NormalBoot.keeping (boot : NormalBoot) :
    Roots.Keeping boot.before.nextUuid ∅ boot.state.view :=
  (Sound.keeping (history_sound boot.calls boot.installed.keeping.unkept)
    boot.installed.keeping.unkept) _ List.getLastD_mem_cons

section

variable (boot : NormalBoot) (repairing env : Env) (point : Text) (stamp : Stamp)

/-- The state in which a restore is interrupted after some effects. -/
def NormalBoot.interrupted (effects : ℕ) : System :=
  (commandRestore repairing env point stamp).leaves (some effects) boot.state

theorem keeping_interrupted (effects : ℕ) :
    Roots.Keeping boot.before.nextUuid ∅
      (boot.interrupted repairing env point stamp effects).view := by
  have hchain := @Call.moments_safe ⟨.restore repairing env point stamp, some effects⟩ _ _
    boot.keeping
  exact forall_of_isChain (fun t => Roots.Keeping boot.before.nextUuid ∅ t.view)
    (fun _ _ hstep hs => hs.step hstep) hchain boot.keeping _ List.getLastD_mem_cons

theorem interrupted_moves {effects : ℕ}
    (h : effects < ((commandRestore repairing env point stamp).moments boot.state).length) :
    Moving boot.mounted stamp (boot.interrupted repairing env point stamp effects)
      (boot.interrupted repairing env point stamp (effects + 1)) :=
  isChain_take (commandRestore_moves boot.keeping boot.boots).1 h

/-- When a restore is interrupted, the tool knows the running root from then on
exactly if the last effect was not the exchange. -/
theorem restore_known
    (effects : Fin (((commandRestore repairing env point stamp).moments boot.state).length + 1)) :
    (∀ calls : List (Env × Option ℕ),
      ∀ t ∈ boot.interrupted repairing env point stamp effects ::
        history (boot.interrupted repairing env point stamp effects) (refreshes calls),
      Known boot t) ↔
    ¬ ExchangedLast boot.mounted (boot.interrupted repairing env point stamp (effects - 1))
      (boot.interrupted repairing env point stamp effects) := by
  obtain ⟨effects, heffects⟩ := effects
  have hkeeping := keeping_interrupted boot repairing env point stamp effects
  cases effects with
  | zero =>
      have hroot : (boot.interrupted repairing env point stamp 0).uuidOf .root =
          some boot.mounted := boot.boots
      exact iff_of_true (known_refreshes hkeeping (Or.inl hroot)) fun h => h.2 hroot
  | succ effects =>
      have hbefore := keeping_interrupted boot repairing env point stamp effects
      rcases interrupted_moves boot repairing env point stamp (Nat.lt_of_succ_lt_succ heffects) with
        ⟨hfirst, hroot⟩ | ⟨hfirst, hincoming⟩ | ⟨hfirst, hreplaced⟩ | ⟨hfirst, hreplaced⟩
      · exact iff_of_true (known_refreshes hkeeping (Or.inl hroot)) fun h => h.2 hroot
      · refine iff_of_false ?_ ?_
        · intro h
          exact not_known_incoming hincoming (h [] _ List.mem_cons_self)
        · rw [not_not]
          refine ⟨hfirst, ?_⟩
          intro hroot
          cases hkeeping.distinct _ _ _ hroot hincoming
      · refine iff_of_true (known_refreshes hkeeping (Or.inr ⟨stamp, hreplaced⟩)) ?_
        intro h
        cases hbefore.distinct _ _ _ h.1 hfirst
      · refine iff_of_true (known_refreshes hkeeping (Or.inr ⟨stamp, hreplaced⟩)) ?_
        intro h
        cases hbefore.distinct _ _ _ h.1 hfirst

end

/-! ### A restore killed between its exchange and its rename -/

def smallBoot : NormalBoot where
  before := smallSystem
  installed := smallSystem_installed
  calls := []
  mounted := 1
  boots := rfl
  spell _ := ⟨ascii "20260901T120000Z", by decide⟩
  uuid := ascii "5b2e0c1d"
  uuid_safe := by decide

theorem exchanged_unknown :
    ¬ Known smallBoot (smallBoot.interrupted smoothly smoothly (ascii "p") 7 4) := by
  have hincoming : (smallBoot.interrupted smoothly smoothly (ascii "p") 7 4).uuidOf (.incoming 7) =
      some smallBoot.mounted := by
    decide +kernel
  exact not_known_incoming hincoming

end Snapshot

end CybexOS
