/-
Every effect of the restore, its repair and its undoing is a step of the
protocol of system roots.
-/
import CybexOS.Snapshot.Protocol

namespace CybexOS

namespace Snapshot

open Program

/-! ### Directories -/

section

variable {κ α : Type} [DecidableEq κ]

theorem lookup_entry (held asked : κ) (value : α) (entries : List (κ × α)) :
    ((held, value) :: entries).lookup asked =
      if asked = held then some value else entries.lookup asked := by
  by_cases h : asked = held
  · rw [List.lookup_cons, beq_iff_eq.mpr h, if_pos h]
  · rw [List.lookup_cons, beq_eq_false_iff_ne.mpr h, if_neg h]

theorem mem_keys_of_lookup {entries : List (κ × α)} {name : κ} {value : α}
    (h : entries.lookup name = some value) : name ∈ entries.map Prod.fst := by
  induction entries with
  | nil => simp at h
  | cons entry entries ih =>
      rw [lookup_entry] at h
      split_ifs at h with heq
      · simp [heq]
      · exact List.mem_cons_of_mem _ (ih h)

theorem lookup_remove (entries : List (κ × α)) (name asked : κ) :
    (remove entries name).lookup asked = if asked = name then none else entries.lookup asked := by
  induction entries with
  | nil => simp [remove]
  | cons entry entries ih =>
      obtain ⟨held, value⟩ := entry
      unfold remove at ih ⊢
      by_cases hheld : held = name
      · rw [List.filter_cons_of_neg (by simpa using hheld), ih, lookup_entry]
        by_cases hasked : asked = name
        · rw [if_pos hasked, if_pos hasked]
        · rw [if_neg hasked, if_neg hasked, if_neg (hheld ▸ hasked)]
      · rw [List.filter_cons_of_pos (by simpa using hheld), lookup_entry, ih, lookup_entry]
        by_cases hasked : asked = held
        · rw [if_pos hasked, if_pos hasked, if_neg (hasked ▸ hheld)]
        · rw [if_neg hasked, if_neg hasked]

theorem lookup_put (entries : List (κ × α)) (name asked : κ) (value : α) :
    (put entries name value).lookup asked =
      if asked = name then some value else entries.lookup asked := by
  rw [put, lookup_entry, lookup_remove]
  by_cases hasked : asked = name
  · rw [if_pos hasked, if_pos hasked]
  · rw [if_neg hasked, if_neg hasked, if_neg hasked]

end

/-! ### What effects do to the view -/

namespace System

variable (s : System) (name : RootName) (stamp : Stamp)

theorem hasRoot_eq : s.hasRoot name = (s.view.held name).isSome := by
  simp [hasRoot, view, uuidOf]

@[simp]
theorem view_held : s.view.held = s.uuidOf := rfl

theorem view_setRoot (root : Option Subvolume) :
    (s.setRoot name root).view = s.view.setAt name (root.map Subvolume.uuid) := by
  refine Roots.ext ?_ rfl rfl rfl
  funext asked
  by_cases hasked : asked = name
  · simp [uuidOf, setRoot, hasked]
  · simp [uuidOf, setRoot, hasked]

theorem view_setPlaces (change : List (Text × Place) → List (Text × Place)) :
    (s.setPlaces name change).view = s.view := by
  rw [setPlaces, view_setRoot, Option.map_map]
  refine Roots.ext ?_ rfl rfl rfl
  funext asked
  by_cases hasked : asked = name
  · subst hasked
    simp only [Roots.setAt_held, ↓reduceIte, view_held, uuidOf]
    rfl
  · simp [hasked]

theorem view_writeRecord (record : Record) :
    (s.writeRecord stamp record).view = s.view.setRecord stamp (some record) := by
  refine Roots.ext rfl ?_ rfl rfl
  funext asked
  simp only [view, writeRecord, Roots.setRecord]
  rw [lookup_put, Function.update_apply]

theorem view_removeRecord :
    { s with records := remove s.records stamp }.view = s.view.setRecord stamp none := by
  refine Roots.ext rfl ?_ rfl rfl
  funext asked
  simp only [view, Roots.setRecord]
  rw [lookup_remove, Function.update_apply]

theorem view_snapshotTo (source : Subvolume) :
    (s.snapshotTo name source).view =
      { s.view.setAt name (some s.view.next) with next := s.view.next + 1 } := by
  rw [snapshotTo]
  exact congrArg (fun r : Roots => { r with next := s.view.next + 1 })
    (view_setRoot s name _)

theorem view_exchange (first second : RootName) :
    (s.exchange first second).view =
      (s.view.setAt first (s.view.held second)).setAt second (s.view.held first) := by
  rw [exchange, view_setRoot, view_setRoot]
  rfl

end System

/-! ### Programs that leave the roots alone -/

/-- No effect of this program changes a root, a record or a recovery point. -/
def Quiet {α : Type} (program : Run α) : Prop :=
  ∀ s, program.Leads (fun s t => t.view = s.view) (fun _ t => t.view = s.view) s

section

variable {α β ι : Type}

theorem quiet_pure (value : α) : Quiet (pure value) := fun _ => by simp

theorem quiet_fail (error : Failure) : Quiet (fail error : Run α) := fun _ => by simp

theorem quiet_look (see : System → α) : Quiet (look see) := fun _ => by simp

theorem quiet_effect {change : System → System} (h : ∀ s, (change s).view = s.view) :
    Quiet (effect change) := fun s => by simp [h]

theorem quiet_bind {program : Run α} {next : α → Run β} (h : Quiet program)
    (hnext : ∀ value, Quiet (next value)) : Quiet (program >>= next) := by
  intro s
  refine leads_bind.mpr ((h s).imp ?_)
  intro result t ht
  cases result with
  | ok value => exact (hnext value t).imp fun _ _ hu => hu.trans ht
  | error error => exact ht

theorem quiet_catching {program : Run α} {handler : Failure → Run α} (h : Quiet program)
    (hhandler : ∀ error, Quiet (handler error)) : Quiet (program.catching handler) := by
  intro s
  refine leads_catching.mpr ((h s).imp ?_)
  intro result t ht
  cases result with
  | ok value => exact ht
  | error error => exact (hhandler error t).imp fun _ _ hu => hu.trans ht

theorem quiet_forEach {items : List ι} {body : ι → Run Unit} (h : ∀ item, Quiet (body item)) :
    Quiet (forEach items body) := fun s =>
  leads_forEach (fun t => t.view = s.view) rfl fun item _ t ht =>
    (h item t).imp fun _ _ hu => hu.trans ht

theorem quiet_ite {condition : Prop} [Decidable condition] {yes no : Run α} (hyes : Quiet yes)
    (hno : Quiet no) : Quiet (if condition then yes else no) := by
  split_ifs
  · exact hyes
  · exact hno

end

theorem quiet_mayRaise (env : Env) (point : Raise) : Quiet (mayRaise env point) :=
  quiet_ite (quiet_fail _) (quiet_pure _)

theorem quiet_placeFiles (env : Env) (stamp : Stamp) (paths : List Text) :
    Quiet (placeFiles env stamp paths) := by
  induction paths with
  | nil => exact quiet_pure _
  | cons path paths ih =>
      refine quiet_bind ?_ fun placed => quiet_bind ih fun others => quiet_pure _
      refine quiet_bind (quiet_mayRaise env _) fun _ => quiet_bind (quiet_look _) fun source =>
        quiet_bind (quiet_look _) fun taken => ?_
      split
      · exact quiet_bind (quiet_effect fun _ => rfl) fun _ => quiet_pure _
      · exact quiet_pure _

theorem quiet_stageBootFiles (env : Env) (point : Text) (archive : Option Files)
    (candidate : RootName) (stamp : Stamp) :
    Quiet (stageBootFiles env point archive candidate stamp) := by
  have hremove : Quiet (removeStaging stamp) := quiet_effect fun _ => rfl
  refine quiet_bind (quiet_look _) fun kernels => quiet_bind (quiet_look _) fun wanted => ?_
  split
  · exact quiet_pure _
  · exact quiet_fail _
  · split
    · exact quiet_pure _
    · refine quiet_bind hremove fun _ => quiet_bind (quiet_effect fun _ => rfl) fun _ =>
        quiet_bind (quiet_catching ?_ fun error => ?_) fun placed =>
          quiet_bind hremove fun _ => quiet_pure _
      · refine quiet_bind (quiet_forEach fun path => ?_) fun _ => quiet_placeFiles env stamp _
        exact quiet_bind (quiet_mayRaise env _) fun _ => quiet_effect fun _ => rfl
      · exact quiet_bind hremove fun _ => quiet_fail _

theorem quiet_reconcileBoot (env : Env) (stamp : Stamp) (record : Record) :
    Quiet (reconcileBoot env stamp record) := by
  have hretire : ∀ path, Quiet (retireFile stamp path) := by
    refine fun path => quiet_bind (quiet_look _) fun file => ?_
    split
    · exact quiet_pure _
    · exact quiet_bind (quiet_effect fun _ => rfl) fun _ => quiet_effect fun _ => rfl
  refine quiet_bind (quiet_look _) fun kept => quiet_ite (quiet_fail _) ?_
  refine quiet_bind (quiet_look _) fun entries => quiet_bind (quiet_forEach fun entry => ?_)
    fun _ => quiet_bind (quiet_look _) fun path => ?_
  · exact quiet_ite (quiet_pure _) (quiet_forEach hretire)
  · split
    · exact quiet_fail _
    · refine quiet_ite ?_ (quiet_pure _)
      exact quiet_bind (quiet_effect fun _ => rfl) fun _ => quiet_effect fun _ => rfl

theorem quiet_moveNestedSubvolumes (stamp : Stamp) : Quiet (moveNestedSubvolumes stamp) := by
  refine quiet_bind (quiet_look _) fun listing => quiet_forEach fun relative => ?_
  refine quiet_bind (quiet_look _) fun place => ?_
  split
  · refine quiet_bind (quiet_effect fun s => s.view_setPlaces _ _) fun _ =>
      quiet_effect fun s => ?_
    rw [System.view_setPlaces, System.view_setPlaces]
  · exact quiet_pure _

theorem quiet_unstage (path : Text) : Quiet (unstage path) :=
  quiet_bind (quiet_look _) fun _ => quiet_ite (quiet_effect fun _ => rfl) (quiet_pure _)

/-! ### Programs that follow the protocol -/

section

variable {base : ℕ} {allowed : Option ℕ}

/-- One effect of a restore or a repair, as far as roots go. -/
abbrev Safe (base : ℕ) (allowed : Option ℕ) (s t : System) : Prop :=
  Roots.Step base allowed s.view t.view

theorem Quiet.leads {α : Type} {program : Run α} (h : Quiet program) {s : System}
    {post : Except Failure α → System → Prop}
    (hpost : ∀ result t, t.view = s.view → post result t) :
    program.Leads (Safe base allowed) post s := by
  refine (h s).mono (fun s t ht => ?_) hpost
  rw [Safe, ht]
  exact .stay _

/-- Nothing changed but what belongs to this stamp, and not the root. -/
structure Elsewhere (stamp : Stamp) (r t : Roots) : Prop where
  next : t.next = r.next
  root : t.held .root = r.held .root
  incoming : ∀ other, other ≠ stamp → t.held (.incoming other) = r.held (.incoming other)
  replaced : ∀ other, other ≠ stamp → t.held (.replaced other) = r.held (.replaced other)
  record : ∀ other, other ≠ stamp → t.record other = r.record other

/-- A restore that still waits has a root under one of its names. -/
def Rooted (stamp : Stamp) (r : Roots) : Prop :=
  ∀ record, r.Pending stamp record →
    r.held (.incoming stamp) ≠ none ∨ r.held (.replaced stamp) ≠ none

theorem Elsewhere.refl (stamp : Stamp) (r : Roots) : Elsewhere stamp r r :=
  ⟨rfl, rfl, fun _ _ => rfl, fun _ _ => rfl, fun _ _ => rfl⟩

theorem Elsewhere.trans {stamp : Stamp} {r t u : Roots} (h : Elsewhere stamp r t)
    (h' : Elsewhere stamp t u) : Elsewhere stamp r u where
  next := h'.next.trans h.next
  root := h'.root.trans h.root
  incoming other hother := (h'.incoming other hother).trans (h.incoming other hother)
  replaced other hother := (h'.replaced other hother).trans (h.replaced other hother)
  record other hother := (h'.record other hother).trans (h.record other hother)

theorem Elsewhere.setIncoming (stamp : Stamp) (r : Roots) (uuid : Option ℕ) :
    Elsewhere stamp r (r.setAt (.incoming stamp) uuid) where
  next := rfl
  root := by simp
  incoming other hother := by simp [hother]
  replaced other hother := by simp
  record other hother := rfl

theorem Elsewhere.setReplaced (stamp : Stamp) (r : Roots) (uuid : Option ℕ) :
    Elsewhere stamp r (r.setAt (.replaced stamp) uuid) where
  next := rfl
  root := by simp
  incoming other hother := by simp
  replaced other hother := by simp [hother]
  record other hother := rfl

theorem Elsewhere.setRecord (stamp : Stamp) (r : Roots) (record : Option Record) :
    Elsewhere stamp r (r.setRecord stamp record) where
  next := rfl
  root := rfl
  incoming other hother := rfl
  replaced other hother := rfl
  record other hother := by simp [Roots.setRecord, hother]

theorem Elsewhere.rooted {stamp other : Stamp} {r t : Roots} (h : Elsewhere stamp r t)
    (hother : other ≠ stamp) (hrooted : Rooted other r) : Rooted other t := by
  intro record hpending
  rw [h.incoming other hother, h.replaced other hother]
  exact hrooted record ⟨(h.record other hother).symm.trans hpending.1, hpending.2⟩

theorem Elsewhere.of_view {stamp : Stamp} {r t : Roots} (h : t = r) : Elsewhere stamp r t :=
  h ▸ .refl stamp r

/-! ### Reading -/

/-- A uuid is the one of the root or could not be read. -/
theorem subvolumeUuid_bind {α : Type} {env : Env} {stamp : Stamp} {probe : Probe}
    {name : RootName} {next : Option ℕ → Run α} {s : System}
    {step : System → System → Prop} {post : Except Failure α → System → Prop}
    (hnext : ∀ uuid, (∀ u ∈ uuid, s.view.held name = some u) →
      (next uuid).Leads step post s) :
    (subvolumeUuid env stamp probe name >>= next).Leads step post s := by
  rw [subvolumeUuid, leads_look_bind]
  by_cases hreadable : env.readable stamp probe = true
  · rw [if_pos hreadable]
    exact hnext _ fun u hu => hu
  · rw [if_neg hreadable]
    exact hnext _ (by simp)

theorem isUnused_leads {env : Env} {stamp : Stamp} {record : Record} {s : System}
    {post : Except Failure Bool → System → Prop}
    (hpost : ∀ unused, (unused = true → ∃ copy, s.view.held (.incoming stamp) = some copy ∧
      record.newRoot = some copy) → post (.ok unused) s) :
    (isUnused env stamp record).Leads (Safe base allowed) post s := by
  refine subvolumeUuid_bind fun incomingUuid hincoming => ?_
  rw [leads_ite]
  split_ifs with hdiffers
  · exact leads_pure.mpr (hpost false (by simp))
  · obtain ⟨hread, hnew⟩ := not_or.mp hdiffers
    obtain ⟨copy, rfl⟩ := Option.ne_none_iff_exists'.mp hread
    refine subvolumeUuid_bind fun rootUuid _ => leads_pure.mpr (hpost _ fun _ => ?_)
    exact ⟨copy, hincoming copy rfl, (not_not.mp hnew).symm⟩

theorem looksExchanged_leads {env : Env} {stamp : Stamp} {record : Record} {s : System}
    {post : Except Failure Bool → System → Prop} (hpost : ∀ exchanged, post (.ok exchanged) s) :
    (looksExchanged env stamp record).Leads (Safe base allowed) post s := by
  rw [looksExchanged, leads_look_bind, leads_ite]
  split_ifs with hpresent
  · refine subvolumeUuid_bind fun incomingUuid _ => ?_
    rw [leads_ite]
    split_ifs with hold
    · exact subvolumeUuid_bind fun rootUuid _ => leads_pure.mpr (hpost _)
    · exact leads_pure.mpr (hpost false)
  · exact leads_pure.mpr (hpost false)

/-! ### Undoing -/

theorem forgetRestore_leads {stamp : Stamp} {record : Record} {s : System}
    (hforget : ∀ found, s.view.Pending stamp found →
      s.view.held (.incoming stamp) = none ∨ s.view.held (.incoming stamp) = found.newRoot) :
    (forgetRestore stamp record).Leads (Safe base allowed)
      (fun result t => Elsewhere stamp s.view t.view ∧
        ∀ value, result = .ok value → Rooted stamp t.view) s := by
  refine Leads.bind ((quiet_forEach quiet_unstage).leads fun result t ht => ht) ?_ ?_
  · intro value t ht
    rw [leads_effect, Safe, System.view_removeRecord, ht]
    refine ⟨.forget _ stamp hforget, .setRecord stamp _ none, fun _ _ found hfound => ?_⟩
    simp [Roots.pending_setRecord] at hfound
  · exact fun error t ht => ⟨.of_view ht, fun _ hresult => by cases hresult⟩

/-- Undoing deletes nothing but the copy its record names. -/
theorem undoPrepared_leads {env : Env} {stamp : Stamp} {record : Record} {s : System}
    (hsame : ∀ found, s.view.Pending stamp found → found.newRoot = record.newRoot)
    (hbase : ∀ u ∈ record.newRoot, base ≤ u) :
    (undoPrepared env stamp record).Leads (Safe base allowed)
      (fun result t => Elsewhere stamp s.view t.view ∧
        ∀ undone, result = .ok undone → Rooted stamp t.view) s := by
  -- the record goes once its copy is gone, or where the copy is the one it names
  have hforget : ∀ t : System, Elsewhere stamp s.view t.view →
      (∀ found, t.view.Pending stamp found → t.view.held (.incoming stamp) = none ∨
        t.view.held (.incoming stamp) = found.newRoot) →
      (forgetRestore stamp record >>= fun _ => (pure true : Run Bool)).Leads
        (Safe base allowed) (fun result t => Elsewhere stamp s.view t.view ∧
          ∀ undone, result = .ok undone → Rooted stamp t.view) t := by
    intro t ht hfound
    refine Leads.bind (forgetRestore_leads hfound) ?_ ?_
    · intro value u hu
      rw [leads_pure]
      exact ⟨ht.trans hu.1, fun _ _ => hu.2 value rfl⟩
    · exact fun error u hu => ⟨ht.trans hu.1, fun _ hresult => by cases hresult⟩
  unfold undoPrepared
  rw [leads_look_bind, leads_ite]
  split_ifs with hpresent
  · refine leads_bind.mpr (isUnused_leads fun unused hunused => ?_)
    simp only [leads_ite]
    split_ifs with htrue
    · obtain ⟨copy, hcopy, hnew⟩ := hunused htrue
      have hpending : ∀ found, s.view.Pending stamp found → found.newRoot = some copy :=
        fun found hfound => (hsame found hfound).trans hnew
      rw [leads_bind, deleteIncoming, leads_ite]
      split_ifs with hdeletes
      · rw [leads_effect, Safe, System.view_setRoot]
        refine ⟨.discard _ stamp copy hcopy (hbase copy hnew) hpending, ?_⟩
        refine hforget _ ?_ fun found hfound => Or.inl ?_
        · rw [System.view_setRoot]
          exact .setIncoming stamp _ _
        · rw [System.view_setRoot]
          simp
      · rw [leads_pure]
        exact hforget s (.refl stamp _) fun found hfound =>
          Or.inr (hcopy.trans (hpending found hfound).symm)
    · rw [leads_pure]
      refine ⟨.refl stamp _, fun _ _ found _ => Or.inl ?_⟩
      rw [System.hasRoot_eq, Option.isSome_iff_ne_none] at hpresent
      exact hpresent
  · refine hforget s (.refl stamp _) fun found _ => Or.inl ?_
    rw [System.hasRoot_eq] at hpresent
    simpa using hpresent

/-! ### Completing -/

/-- No restore of this stamp waits. -/
def Idle (stamp : Stamp) (r : Roots) : Prop := ∀ record, ¬ r.Pending stamp record

theorem finishRestore_leads {env : Env} {stamp : Stamp} {record : Record} {s : System}
    (hidle : Idle stamp s.view) :
    (finishRestore env stamp record).Leads (Safe base allowed)
      (fun _ t => Elsewhere stamp s.view t.view ∧ Idle stamp t.view) s := by
  have hstay : ∀ t : System, t.view = s.view →
      Elsewhere stamp s.view t.view ∧ Idle stamp t.view :=
    fun t ht => ⟨.of_view ht, ht ▸ hidle⟩
  rw [finishRestore, leads_ite]
  split_ifs with hswapped
  · refine Leads.bind ((quiet_reconcileBoot env stamp record).leads fun _ t ht => ht) ?_
      fun _ t ht => hstay t ht
    intro value t ht
    rw [writeRecord, leads_effect, Safe, System.view_writeRecord, ht]
    refine ⟨.settle _ stamp _ (by simp) (Or.inr hidle), .setRecord stamp _ _, ?_⟩
    intro found hfound
    simp only [Roots.pending_setRecord, ↓reduceIte, Option.some.injEq] at hfound
    obtain ⟨rfl, hstate⟩ := hfound
    simp at hstate
  · exact leads_pure.mpr (hstay s rfl)

theorem finishOrWarn_leads {env : Env} {stamp : Stamp} {record : Record} {s : System}
    (hidle : Idle stamp s.view) :
    (finishOrWarn env stamp record).Leads (Safe base allowed)
      (fun _ t => Elsewhere stamp s.view t.view ∧ Idle stamp t.view) s := by
  refine leads_catching.mpr ((finishRestore_leads hidle).imp fun result t ht => ?_)
  cases result with
  | ok value => exact ht
  | error error => exact leads_pure.mpr ht

/-- The swapped record and what follows it. -/
theorem swapped_leads {α : Type} {stamp : Stamp} {record : Record} {s : System} {next : Run α}
    (hfree : s.view.held (.incoming stamp) = none) (hstate : record.state ≠ .prepared)
    (hnext : ∀ t : System, Elsewhere stamp s.view t.view → Idle stamp t.view →
      next.Leads (Safe base allowed)
        (fun _ u => Elsewhere stamp t.view u.view ∧ Idle stamp u.view) t) :
    (writeRecord stamp record >>= fun _ => moveNestedSubvolumes stamp >>= fun _ => next).Leads
      (Safe base allowed) (fun _ t => Elsewhere stamp s.view t.view ∧ Idle stamp t.view) s := by
  rw [writeRecord, leads_effect_bind, Safe, System.view_writeRecord]
  refine ⟨.settle _ stamp record hstate (Or.inl hfree), ?_⟩
  have hwritten : Idle stamp (s.writeRecord stamp record).view := by
    intro found hfound
    simp only [System.view_writeRecord, Roots.pending_setRecord, ↓reduceIte,
      Option.some.injEq] at hfound
    obtain ⟨rfl, hprepared⟩ := hfound
    exact hstate hprepared
  have helse : Elsewhere stamp s.view (s.writeRecord stamp record).view := by
    rw [System.view_writeRecord]
    exact .setRecord stamp _ _
  refine Leads.bind ((quiet_moveNestedSubvolumes stamp).leads fun _ t ht => ht) ?_ ?_
  · intro value t ht
    rw [← ht] at hwritten helse
    exact (hnext t helse hwritten).imp fun _ u hu => ⟨helse.trans hu.1, hu.2⟩
  · exact fun error t ht => ht ▸ ⟨helse, hwritten⟩

theorem completeSwap_leads {env : Env} {stamp : Stamp} {record : Record} {s : System}
    (hfree : s.view.held (.incoming stamp) = none) :
    (completeSwap env stamp record).Leads (Safe base allowed)
      (fun _ t => Elsewhere stamp s.view t.view ∧ Idle stamp t.view) s :=
  swapped_leads hfree (by simp) fun _ _ hidle => finishOrWarn_leads hidle

theorem Idle.rooted {stamp : Stamp} {r : Roots} (h : Idle stamp r) : Rooted stamp r :=
  fun record hpending => absurd hpending (h record)

/-- The rename that ends an exchange, and what follows it. -/
theorem renameIncoming_leads {α : Type} {stamp : Stamp} {s : System} {next : Run α}
    {post : Except Failure α → System → Prop}
    (herror : post (.error .osError) s)
    (hnext : ∀ t : System, Elsewhere stamp s.view t.view →
      t.view.held (.incoming stamp) = none → next.Leads (Safe base allowed) post t) :
    (renameIncoming stamp >>= fun _ => next).Leads (Safe base allowed) post s := by
  rw [renameIncoming, leads_bind, leads_look_bind, leads_ite]
  split_ifs with hreplaced
  · exact leads_fail.mpr herror
  · rw [System.hasRoot_eq, Bool.not_eq_true, Option.isSome_eq_false_iff,
      Option.isNone_iff_eq_none] at hreplaced
    have hview : ((s.setRoot (.replaced stamp) (s.roots (.incoming stamp))).setRoot
        (.incoming stamp) none).view =
          (s.view.setAt (.replaced stamp) (s.view.held (.incoming stamp))).setAt
            (.incoming stamp) none := by
      rw [System.view_setRoot, System.view_setRoot]
      rfl
    rw [leads_effect, Safe, hview]
    refine ⟨.rename _ stamp hreplaced, hnext _ ?_ ?_⟩
    · rw [hview]
      exact (Elsewhere.setReplaced stamp _ _).trans (.setIncoming stamp _ _)
    · rw [hview]
      simp

/-- Completing one restore keeps to its own stamp. -/
theorem completeOne_leads {env : Env} {stamp : Stamp} {s : System}
    (h : Roots.Keeping base ∅ s.view) :
    (completeOne env stamp).Leads (Safe base allowed)
      (fun result t => Elsewhere stamp s.view t.view ∧
        ∀ value, result = .ok value → Rooted stamp t.view) s := by
  have hdone : ∀ {result : Except Failure Unit} {t : System},
      Elsewhere stamp s.view t.view ∧ Idle stamp t.view → Elsewhere stamp s.view t.view ∧
        ∀ value, result = .ok value → Rooted stamp t.view :=
    fun ht => ⟨ht.1, fun _ _ => ht.2.rooted⟩
  unfold completeOne
  rw [leads_look_bind]
  cases hrecord : s.records.lookup stamp with
  | none =>
      refine leads_pure.mpr ⟨.refl stamp _, fun _ _ found hfound => ?_⟩
      cases hrecord.symm.trans hfound.1
  | some record =>
      have hidle : record.state ≠ .prepared → Idle stamp s.view := by
        intro hstate found hfound
        obtain rfl := Option.some.inj (hrecord.symm.trans hfound.1)
        exact hstate hfound.2
      cases hstate : record.state with
      | complete =>
          simp only [hstate]
          exact leads_pure.mpr (hdone ⟨.refl stamp _, hidle (by simp [hstate])⟩)
      | swapped =>
          simp only [hstate]
          exact (finishOrWarn_leads (hidle (by simp [hstate]))).imp fun _ _ => hdone
      | prepared =>
          have hpending : s.view.Pending stamp record := ⟨hrecord, hstate⟩
          simp only [hstate]
          refine leads_bind.mpr (looksExchanged_leads fun exchanged => ?_)
          simp only [leads_ite]
          split_ifs with hexchanged
          · refine renameIncoming_leads ⟨.refl stamp _, fun _ hresult => by cases hresult⟩ ?_
            intro t ht hfree
            exact (completeSwap_leads hfree).imp fun _ u hu => hdone ⟨ht.trans hu.1, hu.2⟩
          · rw [leads_look_bind, leads_ite]
            split_ifs with hreplaced
            · rw [System.hasRoot_eq, Option.isSome_iff_ne_none] at hreplaced
              have hfree := (h.apart stamp record hpending).resolve_right hreplaced
              exact (completeSwap_leads hfree).imp fun _ _ => hdone
            · refine Leads.bind (undoPrepared_leads (fun found hfound => ?_)
                (h.copies stamp record hpending)) ?_ ?_
              · rw [Option.some.inj (hrecord.symm.trans hfound.1)]
              · exact fun value t ht => leads_pure.mpr ⟨ht.1, fun _ _ => ht.2 value rfl⟩
              · exact fun error t ht => ⟨ht.1, fun _ hresult => by cases hresult⟩

/-- Completing keeps the root and leaves no waiting restore without one. -/
theorem completeInterrupted_leads {env : Env} {s : System} (h : Roots.Keeping base ∅ s.view) :
    (completeInterrupted env).Leads (Safe base allowed)
      (fun result t => t.view.next = s.view.next ∧ t.view.held .root = s.view.held .root ∧
        ∀ value, result = .ok value → ∀ stamp, Rooted stamp t.view) s := by
  unfold completeInterrupted
  rw [leads_look_bind]
  refine Leads.imp (leads_forEach_all
    (fun t => Roots.Keeping base ∅ t.view ∧ t.view.next = s.view.next ∧
      t.view.held .root = s.view.held .root)
    (fun stamp t => Rooted stamp t.view) ⟨h, rfl, rfl⟩ ?_) ?_
  · rintro stamp - t ⟨hkeeping, hnext, hroot⟩
    refine Leads.imp ((completeOne_leads hkeeping).and_last
      (fun t => Roots.Keeping base ∅ t.view) (fun _ _ hstep hs => hs.step hstep) hkeeping) ?_
    rintro result u ⟨⟨helse, hrooted⟩, hkept⟩
    exact ⟨⟨hkept, helse.next.trans hnext, helse.root.trans hroot⟩, hrooted,
      fun other hother => helse.rooted hother⟩
  · rintro result t ⟨⟨-, hnext, hroot⟩, hall⟩
    refine ⟨hnext, hroot, fun value hvalue stamp => hall value hvalue stamp ?_⟩
    by_cases hmem : stamp ∈ s.records.map Prod.fst
    · exact Or.inl ((List.mem_insertionSort _).mpr hmem)
    · exact Or.inr fun record hpending => absurd (mem_keys_of_lookup hpending.1) hmem

end

end Snapshot

end CybexOS
