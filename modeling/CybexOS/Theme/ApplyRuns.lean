/-
Runs of the driver in which every target that a run changes is reloaded by it:
a target that is reported without an error is up to date.
-/
import CybexOS.Runs
import CybexOS.Theme.Apply
import CybexOS.Theme.Embedding

namespace CybexOS

namespace Theme

/-- What an application has is what is rendered for it, if anything is. -/
def SyncedAt (target : Target) (s : Desktop) : Prop :=
  s.files (.rendered target) = none ∨ s.loaded target = s.files (.rendered target)

def Synced (s : Desktop) : Prop := ∀ target, SyncedAt target s

/-- Each target that the last run reported without an error had read, when it was
last reloaded, what the run rendered for it. -/
def Honest (renderers : Renderers) (s : Desktop) : Prop :=
  ∀ report, s.stdout = some (.ok report) → report.reload = true →
    ∀ done ∈ report.targets, done.2.error = none →
      s.loaded done.1 = some (render renderers report.tokens done.1)

namespace Run

variable (renderers : Renderers) (run : Run) (s : Desktop)

/-- The tokens that a run reads. -/
def tokensOf : Except Fault Tokens :=
  match run.command with
  | .apply _ => readLine renderers run.input
  | .render =>
      match run.reading .tokens with
      | some text => .error (.os text)
      | none => readSaved renderers (s.files .tokens)

/-- The run comes to its targets. -/
def Arrives (tokens : Tokens) : Prop :=
  run.opening = none ∧ run.reading .tokens = none ∧
    (s.files .tokens = some (renderers.dumps tokens) ∨ run.writing .tokens = none)

/-- The run replaces the target's file. -/
def Changes (content : Text) (target : Target) : Prop :=
  s.files (.rendered target) ≠ some content ∧ run.reading (.rendered target) = none ∧
    run.writing (.rendered target) = none ∧ run.alive (File.rendered target).place = true

/-- Nothing keeps the run from reloading the target. -/
def Reloads (target : Target) : Prop :=
  run.command.reload = true ∧ run.reloading target = none ∧ run.alive target.place = true

/-- Every target whose file the run replaces is reloaded by it. -/
def Fit : Prop :=
  match run.tokensOf renderers s with
  | .ok tokens => run.Arrives renderers s tokens →
      ∀ target ∈ TARGETS, run.Changes s (render renderers tokens target) target → run.Reloads target
  | .error _ => True

instance (tokens : Tokens) : Decidable (run.Arrives renderers s tokens) :=
  inferInstanceAs (Decidable (_ ∧ _ ∧ _))

instance (content : Text) (target : Target) : Decidable (run.Changes s content target) :=
  inferInstanceAs (Decidable (_ ∧ _ ∧ _ ∧ _))

instance (target : Target) : Decidable (run.Reloads target) :=
  inferInstanceAs (Decidable (_ ∧ _ ∧ _))

instance : Decidable (run.Fit renderers s) := by
  unfold Fit
  split <;> infer_instance

end Run

/-! ### One target -/

/-- All but one target is as it was. -/
structure SameBut (target : Target) (s t : Desktop) : Prop where
  tokens : t.files .tokens = s.files .tokens
  files : ∀ other ≠ target, t.files (.rendered other) = s.files (.rendered other)
  loaded : ∀ other ≠ target, t.loaded other = s.loaded other
  stdout : t.stdout = s.stdout

theorem SameBut.refl (target : Target) (s : Desktop) : SameBut target s s :=
  ⟨rfl, fun _ _ => rfl, fun _ _ => rfl, rfl⟩

theorem sameBut_write (target : Target) (content : Text) (s : Desktop) :
    SameBut target s (s.write (.rendered target) content) where
  tokens := by simp [Desktop.write]
  files := fun other hother => by simp [Desktop.write, hother]
  loaded := fun _ _ => rfl
  stdout := rfl

theorem SameBut.load {target : Target} {s t : Desktop} (h : SameBut target s t) :
    SameBut target s (t.load target) where
  tokens := h.tokens
  files := h.files
  loaded := fun other hother => (Function.update_of_ne hother _ _).trans (h.loaded other hother)
  stdout := h.stdout

section

variable {renderers : Renderers} {run : Run} {s : Desktop} {tokens : Tokens} {target : Target}

theorem leads_act {step : Desktop → Desktop → Prop} {post : Except Fault Unit → Desktop → Prop}
    {place : ℕ} {change : Desktop → Desktop} : (run.act place change).Leads step post s ↔
      if run.alive place then step s (change s) ∧ post (.ok ()) (change s)
      else post (.error .killed) s := by
  unfold Run.act
  split_ifs <;> simp

theorem leads_raise {step : Desktop → Desktop → Prop} {post : Except Fault Unit → Desktop → Prop}
    {fault : Option Text} : (Run.raise fault).Leads step post s ↔
      match fault with
      | some text => post (.error (.os text)) s
      | none => post (.ok ()) s := by
  cases fault <;> simp [Run.raise]

/-- The file has the content already, or gets it, or nothing changes. -/
theorem writeIfChanged_leads (file : File) (content : Text) :
    (run.writeIfChanged file content).Leads (fun _ _ => True) (fun result t =>
      (result = .ok false ∧ t = s ∧ s.files file = some content ∧ run.reading file = none) ∨
      (result = .ok true ∧ t = s.write file content ∧ s.files file ≠ some content ∧
        run.reading file = none ∧ run.writing file = none ∧ run.alive file.place = true) ∨
      (∃ fault, result = .error fault ∧ t = s)) s := by
  unfold Run.writeIfChanged
  rw [Program.leads_bind, leads_raise]
  cases hreading : run.reading file with
  | some text => exact Or.inr (Or.inr ⟨_, rfl, rfl⟩)
  | none =>
      dsimp only
      rw [Program.leads_look_bind, Program.leads_ite]
      split_ifs with hsame
      · rw [Program.leads_pure]
        exact Or.inl ⟨rfl, rfl, hsame, rfl⟩
      · rw [Program.leads_bind, leads_raise]
        cases hwriting : run.writing file with
        | some text => exact Or.inr (Or.inr ⟨_, rfl, rfl⟩)
        | none =>
            dsimp only
            rw [Program.leads_bind, leads_act]
            split_ifs with halive
            · dsimp only
              rw [Program.leads_pure]
              exact ⟨trivial, Or.inr (Or.inl ⟨rfl, rfl, hsame, rfl, rfl, halive⟩)⟩
            · exact Or.inr (Or.inr ⟨_, rfl, rfl⟩)

/-- The entry of a target has the error of its end. -/
theorem leads_entry {changed : Bool} {result : Except Fault Unit}
    {post : Except Fault Entry → Desktop → Prop}
    (hok : result = .ok () → post (.ok ⟨changed, none⟩) s)
    (herror : ∀ fault, post (.ok ⟨changed, some fault⟩) s) (hkilled : post (.error .killed) s) :
    (Run.entry changed result).Leads (fun _ _ => True) post s := by
  unfold Run.entry
  split
  · exact Program.leads_pure.mpr (hok rfl)
  · exact Program.leads_fail.mpr hkilled
  · exact Program.leads_pure.mpr (herror _)

theorem reload_leads : (run.reload target).Leads (fun _ _ => True) (fun result t =>
    (result = .ok () ∧ t = s.load target) ∨
      (¬ (run.reloading target = none ∧ run.alive target.place = true) ∧ t = s)) s := by
  unfold Run.reload
  split
  · next text htext => exact Program.leads_fail.mpr (Or.inr ⟨by simp [htext], rfl⟩)
  · next hnone =>
      rw [leads_act]
      split_ifs with halive
      · exact ⟨trivial, Or.inl ⟨rfl, rfl⟩⟩
      · exact Or.inr ⟨fun h => halive h.2, rfl⟩

/-- One target is up to date and the others are as they were. -/
structure Updated (content : Text) (target : Target) (s t : Desktop) : Prop where
  same : SameBut target s t
  file : t.files (.rendered target) = some content
  loaded : t.loaded target = some content

theorem Updated.load {content : Text} {t : Desktop} (same : SameBut target s t)
    (file : t.files (.rendered target) = some content) :
    Updated content target s (t.load target) where
  same := same.load
  file := file
  loaded := by simp [Desktop.load, file]

/-- A target of a fit run is synced afterwards, and its application has what was
rendered unless there is an error. -/
theorem runTarget_synced (hsynced : SyncedAt target s)
    (hfit : run.Changes s (render renderers tokens target) target → run.Reloads target) :
    (run.runTarget renderers tokens target).Leads (fun _ _ => True) (fun result t =>
      SameBut target s t ∧ SyncedAt target t ∧ ∀ entry, result = .ok entry → entry.error = none →
        t.loaded target = some (render renderers tokens target)) s := by
  unfold Run.runTarget
  rw [Program.leads_andThen]
  refine (writeIfChanged_leads _ _).imp ?_
  have hupdated {changed : Bool} {result : Except Fault Unit} {t : Desktop}
      (h : Updated (render renderers tokens target) target s t) :
      (Run.entry changed result).Leads (fun _ _ => True) (fun result t =>
        SameBut target s t ∧ SyncedAt target t ∧ ∀ entry, result = .ok entry → entry.error = none →
          t.loaded target = some (render renderers tokens target)) t := by
    have hgood (result : Except Fault Entry) : SameBut target s t ∧ SyncedAt target t ∧
        ∀ entry, result = .ok entry → entry.error = none →
          t.loaded target = some (render renderers tokens target) :=
      ⟨h.same, Or.inr (h.loaded.trans h.file.symm), fun _ _ _ => h.loaded⟩
    exact leads_entry (fun _ => hgood _) (fun _ => hgood _) (hgood _)
  rintro result t (⟨rfl, rfl, hheld, -⟩ | ⟨rfl, rfl, hchanges⟩ | ⟨fault, rfl, rfl⟩)
  · have hloaded : t.loaded target = some (render renderers tokens target) := by
      rcases hsynced with hnone | hloaded
      · rw [hheld] at hnone
        cases hnone
      · rw [hloaded, hheld]
    have hstay : Updated (render renderers tokens target) target t t :=
      ⟨SameBut.refl target t, hheld, hloaded⟩
    dsimp only
    rw [Program.leads_andThen, Program.leads_ite]
    split_ifs
    · refine reload_leads.imp ?_
      rintro result u (⟨-, rfl⟩ | ⟨-, rfl⟩)
      · exact hupdated (Updated.load hstay.same hheld)
      · exact hupdated hstay
    · exact Program.leads_pure.mpr (hupdated hstay)
  · obtain ⟨hreload, hreloading, halive⟩ := hfit hchanges
    dsimp only
    rw [hreload, Bool.true_and, Bool.true_or, if_pos rfl, Program.leads_andThen]
    refine reload_leads.imp ?_
    rintro result u (⟨-, rfl⟩ | ⟨hnot, -⟩)
    · exact hupdated (Updated.load (sameBut_write target _ s) (by simp [Desktop.write]))
    · exact absurd ⟨hreloading, halive⟩ hnot
  · have hbad (result : Except Fault Entry) (h : ∀ entry, result = .ok entry → entry.error ≠ none) :
        SameBut target t t ∧ SyncedAt target t ∧ ∀ entry, result = .ok entry →
          entry.error = none → t.loaded target = some (render renderers tokens target) :=
      ⟨SameBut.refl target t, hsynced, fun entry hentry hnone => absurd hnone (h entry hentry)⟩
    exact leads_entry (fun h => by cases h) (fun fault => hbad _ (by rintro _ ⟨⟩; simp))
      (hbad _ fun _ h => by cases h)

/-! ### All targets -/

theorem SameBut.synced {t : Desktop} (h : SameBut target s t) (hsynced : Synced s)
    (htarget : SyncedAt target t) : Synced t := by
  intro other
  by_cases hother : other = target
  · exact hother ▸ htarget
  · have hsame := hsynced other
    unfold SyncedAt at hsame ⊢
    rwa [h.files other hother, h.loaded other hother]

/-- What is said of the targets that have run, given what is as it was. -/
structure Done (renderers : Renderers) (tokens : Tokens) (targets : List Target) (s t : Desktop)
    (result : Except Fault (List (Target × Entry))) : Prop where
  synced : Synced t
  stdout : t.stdout = s.stdout
  loaded : ∀ other ∉ targets, t.loaded other = s.loaded other
  honest : ∀ entries, result = .ok entries → ∀ done ∈ entries,
    done.1 ∈ targets ∧ (done.2.error = none →
      t.loaded done.1 = some (render renderers tokens done.1))

theorem runTargets_done {targets : List Target} (hnodup : targets.Nodup) (hsynced : Synced s)
    (hfit : ∀ target ∈ targets,
      run.Changes s (render renderers tokens target) target → run.Reloads target) :
    (run.runTargets renderers tokens targets).Leads (fun _ _ => True)
      (fun result t => Done renderers tokens targets s t result) s := by
  induction targets generalizing s with
  | nil =>
      refine Program.leads_pure.mpr ⟨hsynced, rfl, fun _ _ => rfl, ?_⟩
      rintro _ ⟨⟩ done hdone
      cases hdone
  | cons target targets ih =>
      rw [List.nodup_cons] at hnodup
      rw [Run.runTargets]
      refine Program.Leads.bind
        (runTarget_synced (hsynced target) (hfit target List.mem_cons_self)) ?_ ?_
      · rintro entry t ⟨hsame, hsync, hentry⟩
        have hrest : ∀ other ∈ targets,
            run.Changes t (render renderers tokens other) other → run.Reloads other := by
          intro other hother hchanges
          have hne : other ≠ target := fun h => hnodup.1 (h ▸ hother)
          refine hfit other (List.mem_cons_of_mem _ hother) ?_
          unfold Run.Changes at hchanges ⊢
          rwa [hsame.files other hne] at hchanges
        refine Program.Leads.bind (ih hnodup.2 (hsame.synced hsynced hsync) hrest) ?_ ?_
        · intro entries u hdone
          refine Program.leads_pure.mpr ⟨hdone.synced, hdone.stdout.trans hsame.stdout, ?_, ?_⟩
          · intro other hother
            rw [List.mem_cons, not_or] at hother
            rw [hdone.loaded other hother.2, hsame.loaded other hother.1]
          · rintro _ ⟨⟩ done hmem
            rcases List.mem_cons.mp hmem with rfl | hmem
            · refine ⟨List.mem_cons_self, fun hnone => ?_⟩
              rw [hdone.loaded target hnodup.1, hentry entry rfl hnone]
            · obtain ⟨htarget, hloaded⟩ := hdone.honest entries rfl done hmem
              exact ⟨List.mem_cons_of_mem _ htarget, hloaded⟩
        · intro fault u hdone
          refine ⟨hdone.synced, hdone.stdout.trans hsame.stdout, ?_, fun _ h => by cases h⟩
          intro other hother
          rw [List.mem_cons, not_or] at hother
          rw [hdone.loaded other hother.2, hsame.loaded other hother.1]
      · rintro fault t ⟨hsame, hsync, -⟩
        refine ⟨hsame.synced hsynced hsync, hsame.stdout, ?_, fun _ h => by cases h⟩
        intro other hother
        rw [List.mem_cons, not_or] at hother
        exact hsame.loaded other hother.1

/-! ### A run -/

theorem readTokens_leads : (run.readTokens renderers).Leads (fun _ _ => True)
    (fun result t => t = s ∧ result = run.tokensOf renderers s) s := by
  unfold Run.readTokens Run.tokensOf
  cases run.command with
  | apply force => simp
  | render =>
      dsimp only
      rw [Program.leads_bind, leads_raise]
      cases run.reading .tokens with
      | some text => exact ⟨rfl, rfl⟩
      | none =>
          dsimp only
          rw [Program.leads_look_bind, Program.leads_ofExcept]
          exact ⟨rfl, rfl⟩

theorem synced_write_tokens {content : Text} (h : Synced s) :
    Synced (s.write .tokens content) := by
  intro target
  have htarget := h target
  unfold SyncedAt at htarget ⊢
  simpa [Desktop.write] using htarget

/-- What the body of a run leads to: a report of what is so. -/
def Reported (renderers : Renderers) (s t : Desktop) (result : Except Fault Report) : Prop :=
  Synced t ∧ t.stdout = s.stdout ∧ ∀ report, result = .ok report →
    ∀ done ∈ report.targets, done.2.error = none →
      t.loaded done.1 = some (render renderers report.tokens done.1)

theorem body_reported (hsynced : Synced s) (hfit : run.Fit renderers s) :
    (run.body renderers).Leads (fun _ _ => True) (fun result t => Reported renderers s t result)
      s := by
  have hfailed (fault : Fault) : Reported renderers s s (.error fault) :=
    ⟨hsynced, rfl, fun _ h => by cases h⟩
  unfold Run.body
  rw [Program.leads_bind, leads_raise]
  cases hopening : run.opening with
  | some text => exact hfailed _
  | none =>
      dsimp only
      refine Program.Leads.bind readTokens_leads ?_ (fun fault t h => h.1 ▸ hfailed fault)
      rintro tokens t ⟨rfl, htokens⟩
      rw [Run.Fit, ← htokens] at hfit
      refine Program.Leads.bind (writeIfChanged_leads _ _) ?_ ?_
      · intro changed u hwrite
        have hdone : Synced u ∧ u.stdout = t.stdout ∧ ∀ target ∈ TARGETS,
            run.Changes u (render renderers tokens target) target → run.Reloads target := by
          rcases hwrite with ⟨-, rfl, hheld, hreading⟩ | ⟨-, rfl, -, hreading, hwriting, -⟩ | ⟨_, h, -⟩
          · exact ⟨hsynced, rfl, hfit ⟨hopening, hreading, Or.inl hheld⟩⟩
          · refine ⟨synced_write_tokens hsynced, rfl, fun target htarget hchanges => ?_⟩
            refine hfit ⟨hopening, hreading, Or.inr hwriting⟩ target htarget ?_
            simpa [Run.Changes, Desktop.write] using hchanges
          · cases h
        obtain ⟨hsynced', hstdout, hreloads⟩ := hdone
        refine Program.Leads.bind (runTargets_done (by decide) hsynced' hreloads) ?_ ?_
        · intro entries v hdone
          refine Program.leads_pure.mpr ⟨hdone.synced, hdone.stdout.trans hstdout, ?_⟩
          rintro _ ⟨⟩ done hmem hnone
          exact (hdone.honest entries rfl done hmem).2 hnone
        · intro fault v hdone
          exact ⟨hdone.synced, hdone.stdout.trans hstdout, fun _ h => by cases h⟩
      · intro fault u hwrite
        rcases hwrite with ⟨h, -⟩ | ⟨h, -⟩ | ⟨_, -, rfl⟩
        · cases h
        · cases h
        · exact hfailed fault

/-- A fit run keeps the targets synced, and its report is honest. -/
theorem step_honest (hsynced : Synced s) (hfit : run.Fit renderers s) :
    Synced (step renderers s run) ∧ Honest renderers (step renderers s run) := by
  have hmain : (run.main renderers).Leads (fun _ _ => True)
      (fun _ t => Synced t ∧ Honest renderers t) { s with stdout := none } := by
    unfold Run.main
    rw [Program.leads_andThen]
    refine (body_reported (show Synced { s with stdout := none } from hsynced) hfit).imp ?_
    rintro result t ⟨hsynced', hstdout, hreport⟩
    have hsilent : Synced t ∧ Honest renderers t := by
      refine ⟨hsynced', fun report hprinted => ?_⟩
      rw [hstdout] at hprinted
      cases hprinted
    split
    · exact Program.leads_fail.mpr hsilent
    · rw [leads_act]
      split_ifs
      · refine ⟨trivial, hsynced', fun report hprinted _ => ?_⟩
        exact hreport report (Option.some.inj hprinted)
      · exact hsilent
  exact hmain.2

end

section

variable (renderers : Renderers) (loaded : Target → Option Text) (runs : List Run)

/-- Where every run reloads the targets whose files it replaces, a target is
reported without an error only if its application has what was rendered. -/
theorem fit_runs_honest (hfit : EachStep (step renderers) (fun s run => run.Fit renderers s)
    (start loaded) runs) :
    ∀ s ∈ states (step renderers) (start loaded) runs, Honest renderers s := by
  have hstep (s : Desktop) (run : Run) (h : Synced s ∧ Honest renderers s)
      (hfit : run.Fit renderers s) :
      Synced (step renderers s run) ∧ Honest renderers (step renderers s run) :=
    step_honest h.1 hfit
  have hstart : Synced (start loaded) ∧ Honest renderers (start loaded) :=
    ⟨fun _ => Or.inl rfl, fun _ h => by cases h⟩
  exact fun s hs => (hfit.states hstep hstart s hs).2

end

/-- The renderers for a desktop in greys. -/
def greyRenderers : Renderers where
  loads := fun _ => some (greyExport (ascii "#9ecbeb"))
  dumps := fun tokens => tokens.colors .accent
  lower := id
  arithmetic := greyArithmetic
  gtk := fun tokens => tokens.colors .accent
  hyprlock := fun tokens => tokens.colors .surface

/-- A run in which only these reloads raise. -/
def plainRun (command : Command) (reloading : Target → Option Text) : Run where
  command := command
  input := ascii "{}"
  opening := none
  reading := fun _ => none
  writing := fun _ => none
  reloading := reloading
  killed := none

theorem fit_plainRun (renderers : Renderers) (s : Desktop) (force : Bool) :
    (plainRun (.apply force) fun _ => none).Fit renderers s := by
  unfold Run.Fit
  split
  · exact fun _ _ _ _ => ⟨rfl, rfl, rfl⟩
  · trivial

def appliedTwice : List Run :=
  [plainRun (.apply false) fun _ => none, plainRun (.apply true) fun _ => none]

/-- Two runs with the same tokens, the second with `--force`. -/
theorem fit_runs_honest_twice : Honest greyRenderers
    (appliedTwice.foldl (step greyRenderers) (start fun _ => none)) := by
  have hfit : EachStep (step greyRenderers) (fun s run => run.Fit greyRenderers s)
      (start fun _ => none) appliedTwice :=
    ⟨fit_plainRun _ _ _, fit_plainRun _ _ _, trivial⟩
  exact fit_runs_honest greyRenderers (fun _ => none) appliedTwice hfit _ (foldl_mem_states _ _)

instance (renderers : Renderers) (s : Desktop) : Decidable (Honest renderers s) :=
  match h : s.stdout with
  | some (.ok report) =>
      decidable_of_iff (report.reload = true → ∀ done ∈ report.targets, done.2.error = none →
          s.loaded done.1 = some (render renderers report.tokens done.1))
        ⟨fun honest _ hprinted => by
          rw [h] at hprinted
          cases hprinted
          exact honest, fun honest => honest report h⟩
  | some (.error _) => isTrue fun _ hprinted => by
      rw [h] at hprinted
      cases hprinted
  | none => isTrue fun _ hprinted => by
      rw [h] at hprinted
      cases hprinted

/-- A run that cannot read the files of the terminal and the compositor. -/
def partialRun (reloading : Target → Option Text) : Run where
  command := .apply false
  input := ascii "{}"
  opening := none
  reading := fun file => if file ∈ [.rendered .kitty, .rendered .hyprland] then
    some (ascii "Permission denied") else none
  writing := fun _ => none
  reloading := reloading
  killed := none

/-- After a reload that raised the next run reports the target without an error. -/
theorem raisedReload_dishonest : ¬ Honest greyRenderers
    ([partialRun fun target =>
        if target = .gtk then some (ascii "gsettings set timed out") else none,
      partialRun fun _ => none].foldl (step greyRenderers) (start fun _ => none)) := by
  decide +kernel

end Theme

end CybexOS
