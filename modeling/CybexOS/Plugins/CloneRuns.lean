/-
A clone and its original are not both enabled as long as no command enables a
plugin beside an enabled relative.
-/
import CybexOS.Plugins.Enabled
import CybexOS.Runs
import Mathlib.Logic.Relation

namespace CybexOS

namespace Plugins

open Json

/-! ### Relatives -/

/-- Cloned from it, directly or through other clones, or itself. -/
def Descends (cloned : List (Text × Text)) : Text → Text → Prop :=
  Relation.ReflTransGen fun a o => (a, o) ∈ cloned

/-- One descends from the other, or both from the same original. -/
def Related (cloned : List (Text × Text)) (a b : Text) : Prop :=
  ∃ o, Descends cloned a o ∧ Descends cloned b o

section

variable {cloned more : List (Text × Text)} {a b o : Text}

theorem Related.symm (h : Related cloned a b) : Related cloned b a := by
  obtain ⟨o, ha, hb⟩ := h
  exact ⟨o, hb, ha⟩

theorem Descends.mono (hsub : cloned ⊆ more) (h : Descends cloned a o) : Descends more a o :=
  Relation.ReflTransGen.mono (fun _ _ hedge => hsub hedge) a o h

theorem Related.mono (hsub : cloned ⊆ more) (h : Related cloned a b) : Related more a b := by
  obtain ⟨o, ha, hb⟩ := h
  exact ⟨o, ha.mono hsub, hb.mono hsub⟩

/-- A descent that a new clone opened goes through the clone. -/
theorem descends_cons {edge : Text × Text} (h : Descends (edge :: cloned) a o) :
    Descends cloned a o ∨
      Descends (edge :: cloned) a edge.1 ∧ Descends (edge :: cloned) edge.1 o := by
  induction h with
  | refl => exact Or.inl Relation.ReflTransGen.refl
  | @tail middle final _ hedge ih =>
      rcases ih with hold | ⟨hfirst, hrest⟩
      · rcases List.mem_cons.mp hedge with rfl | hmem
        · exact Or.inr ⟨hold.mono (List.subset_cons_self _ _), .single List.mem_cons_self⟩
        · exact Or.inl (hold.tail hmem)
      · exact Or.inr ⟨hfirst, hrest.tail hedge⟩

/-- Relatives that a new clone made are relatives of the clone. -/
theorem related_cons {edge : Text × Text} (h : Related (edge :: cloned) a b) :
    Related cloned a b ∨
      Related (edge :: cloned) edge.1 a ∧ Related (edge :: cloned) edge.1 b := by
  obtain ⟨o, ha, hb⟩ := h
  rcases descends_cons ha with hold | ⟨hfirst, hrest⟩
  · rcases descends_cons hb with hold' | ⟨hfirst', hrest'⟩
    · exact Or.inl ⟨o, hold, hold'⟩
    · exact Or.inr ⟨⟨o, hrest', ha⟩, edge.1, Relation.ReflTransGen.refl, hfirst'⟩
  · exact Or.inr ⟨⟨edge.1, Relation.ReflTransGen.refl, hfirst⟩, o, hrest, hb⟩

end

/-! ### Runs -/

/-- A world and which plugins were cloned from which. -/
structure Past where
  world : World
  cloned : List (Text × Text)

/-- The origins that the manifests of a package set record. -/
def recorded (packages : Packages) : List (Text × Text) :=
  packages.filterMap fun item =>
    match package packages item.1 with
    | .ok candidate => candidate.clonedFrom.map fun origin => (item.1, origin)
    | .error _ => none

/-- The clone a command made, if it made one. -/
def Command.clones (w : World) (command : Command) : List (Text × Text) :=
  match command with
  | .clone id newId _ _ =>
      if newId ∉ Dict.keys w.packages ∧ newId ∈ Dict.keys (command.after w).packages then
        [(newId, id)]
      else []
  | _ => []

def Past.start (w : World) : Past := ⟨w, recorded w.packages⟩

def Past.step (p : Past) (command : Command) : Past :=
  ⟨command.after p.world, command.clones p.world ++ p.cloned⟩

def Past.on (p : Past) (id : Text) : Prop := isOn p.world.registry.plugins id = true

/-- No two enabled plugins are relatives. -/
def Exclusive (p : Past) : Prop := ∀ a b, a ≠ b → p.on a → p.on b → ¬ Related p.cloned a b

/-- No relative of the plugin is enabled, but for some that are spared. -/
def Alone (p : Past) (id : Text) (spared : Text → Prop) : Prop :=
  ∀ other, p.on other → other ≠ id → ¬ spared other → ¬ Related p.cloned id other

/-- The plugin that the command enables has no enabled relative but those it
disables. -/
def Clear (p : Past) : Command → Prop
  | .enable id _ => ∀ candidate, package p.world.packages id = .ok candidate →
      Alone p id fun other => isSibling p.world.packages id candidate.origin other = true
  | .disable _ => True
  | .clone id newId _ _ =>
      Alone ⟨p.world, (newId, id) :: p.cloned⟩ newId (· = id) ∧
        (p.world.registry.barFields = none → ¬ p.on newId)
  | .remove id _ => ∀ original, restores p.world.registry.plugins id = some original →
      Alone p original (· = id)
  | .bar id _ => id ≠ NATIVE → Alone p id fun _ => False
  | .configureWidget key value => ∀ info widget changes,
      scan p.world.registry p.world.packages = .ok info →
        widgetAt info.widgets key = some widget → changesOf value = .ok changes →
          changes.enabled = some true → Alone p widget.id fun _ => False
  | .layoutEdit _ id _ => Alone p id fun _ => False

section

variable {p : Past} {w : World} {id : Text}

theorem Exclusive.shrink {cloned : List (Text × Text)} (h : Exclusive ⟨w, cloned⟩)
    {fewer : List (Text × Text)} (hsub : fewer ⊆ cloned) : Exclusive ⟨w, fewer⟩ :=
  fun a b hne ha hb hrelated => h a b hne ha hb (hrelated.mono hsub)

/-- Fewer plugins are enabled. -/
theorem Exclusive.fewer (h : Exclusive p)
    (hon : ∀ a, isOn w.registry.plugins a = true → p.on a) : Exclusive ⟨w, p.cloned⟩ :=
  fun a b hne ha hb => h a b hne (hon a ha) (hon b hb)

/-- One plugin was enabled that has no relative left. -/
theorem Exclusive.gain (h : Exclusive p) {spared : Text → Prop} (halone : Alone p id spared)
    (hon : ∀ a, isOn w.registry.plugins a = true → a = id ∨ p.on a ∧ ¬ spared a) :
    Exclusive ⟨w, p.cloned⟩ := by
  intro a b hne ha hb hrelated
  rcases hon a ha with rfl | ⟨hona, hsparea⟩
  · rcases hon b hb with rfl | ⟨honb, hspareb⟩
    · exact hne rfl
    · exact halone b honb (Ne.symm hne) hspareb hrelated
  · rcases hon b hb with rfl | ⟨honb, hspareb⟩
    · exact halone a hona hne hsparea hrelated.symm
    · exact h a b hne hona honb hrelated

/-- A clone was made. -/
theorem Exclusive.cloned {newId : Text} (h : Exclusive p)
    (halone : Alone ⟨p.world, (newId, id) :: p.cloned⟩ newId (· = id))
    (hon : ∀ a, isOn w.registry.plugins a = true → a = newId ∨ p.on a)
    (hapart : ¬ (isOn w.registry.plugins newId = true ∧ isOn w.registry.plugins id = true ∧
      newId ≠ id)) : Exclusive ⟨w, (newId, id) :: p.cloned⟩ := by
  -- an enabled plugin other than the clone and its original is no relative of the clone
  have hother : ∀ a, isOn w.registry.plugins a = true → a ≠ newId → a ≠ id →
      ¬ Related ((newId, id) :: p.cloned) newId a :=
    fun a ha hnew hid => halone a ((hon a ha).resolve_left hnew) hnew hid
  intro a b hne ha hb hrelated
  by_cases hanew : a = newId
  · subst hanew
    refine hother b hb (Ne.symm hne) ?_ hrelated
    rintro rfl
    exact hapart ⟨ha, hb, hne⟩
  by_cases hbnew : b = newId
  · subst hbnew
    refine hother a ha hne ?_ hrelated.symm
    rintro rfl
    exact hapart ⟨hb, ha, Ne.symm hne⟩
  rcases related_cons hrelated with hold | ⟨harelated, hbrelated⟩
  · exact h a b hne ((hon a ha).resolve_left hanew) ((hon b hb).resolve_left hbnew) hold
  · by_cases haid : a = id
    · exact hother b hb hbnew (fun hbid => hne (haid.trans hbid.symm)) hbrelated
    · exact hother a ha hanew haid harelated

/-- With its files in place a clone fails only over a bar of another shape. -/
theorem commandClone_ne_other {newId : Text} {source : CloneSource} {copied : Text → Bool}
    {packages : Packages} (hclone : clone w.packages id newId source copied = .ok packages)
    (h : commandClone w id newId source copied = .error .other) :
    w.registry.barFields = none := by
  cases hbar : w.registry.barFields with
  | none => rfl
  | some bar =>
      exfalso
      have hoptions : ∀ found, options ((w.registry.plugins.lookup id).getD (.obj [])) = .ok found →
          ∃ entry, entryAt w.registry.plugins id = some entry := by
        intro found hfound
        obtain ⟨fields, hfields, -⟩ := options_eq_ok hfound
        exact ⟨fields, by rw [entryAt, hfields]; rfl⟩
      unfold commandClone check at h
      cases hid : validId id <;> cases hnew : validId newId <;>
        cases hopt : options ((w.registry.plugins.lookup id).getD (.obj [])) <;>
        simp [hid, hnew, hopt, raising, require, Except.mapError, bind, Except.bind] at h
      next found =>
      obtain ⟨entry, hentry⟩ := hoptions found hopt
      simp [hentry, hclone, hbar, insist, pure, Except.pure] at h

theorem after_of_ok {command : Command} {after : World} (h : command.exec w = .ok after) :
    command.after w = after := by
  unfold Command.after
  rw [h]

theorem after_of_error {command : Command} {raised : Raised}
    (h : command.exec w = .error raised) : (command.after w).registry = w.registry := by
  unfold Command.after
  rw [h]
  split
  · next heq => cases heq
  · split <;> rfl
  · rfl

theorem after_eq_of_bar {newId : Text} {source : CloneSource} {copied : Text → Bool}
    {raised : Raised} (h : commandClone w id newId source copied = .error raised)
    (hbar : w.registry.barFields ≠ none) : (Command.clone id newId source copied).after w = w := by
  unfold Command.after Command.exec
  simp only [h]
  cases raised with
  | value message => rfl
  | other =>
      cases hclone : clone w.packages id newId source copied with
      | error raised => simp only [hclone]
      | ok packages => exact absurd (commandClone_ne_other hclone h) hbar

theorem clones_subset {command : Command} {id newId : Text} {source : CloneSource}
    {copied : Text → Bool} (h : command = .clone id newId source copied) :
    command.clones w ++ p.cloned ⊆ (newId, id) :: p.cloned := by
  subst h
  unfold Command.clones
  simp only
  split_ifs
  · exact List.Subset.refl _
  · exact List.subset_cons_self _ _

/-- A clear command that succeeds keeps relatives apart. -/
theorem Clear.step_ok (h : Exclusive p) {command : Command} (hclear : Clear p command)
    {after : World} (hexec : command.exec p.world = .ok after) :
    Exclusive (p.step command) := by
  unfold Past.step
  rw [after_of_ok hexec]
  cases command with
  | enable id placement =>
      change commandEnable p.world id placement = .ok after at hexec
      obtain ⟨candidate, hcandidate⟩ : ∃ candidate, package p.world.packages id = .ok candidate := by
        simp only [commandEnable, bind_eq_ok, raising_eq_ok] at hexec
        obtain ⟨-, -, entry, -, candidate, hcandidate, -⟩ := hexec
        exact ⟨candidate, hcandidate⟩
      refine h.gain (hclear candidate hcandidate) fun a ha => ?_
      refine (commandEnable_isOn hexec ha).imp_right fun hrest => ⟨hrest.1, ?_⟩
      obtain ⟨other, hother, hspared⟩ := hrest.2
      rw [hcandidate, Except.ok.injEq] at hother
      rw [hother, hspared]
      exact Bool.false_ne_true
  | disable id => exact h.fewer fun a ha => (commandDisable_isOn hexec ha).2
  | clone id newId source copied =>
      refine Exclusive.shrink (h.cloned hclear.1 ?_ ?_) (clones_subset rfl)
      · exact fun a ha => (commandClone_isOn hexec ha).imp_right And.left
      · rintro ⟨-, hid, hne⟩
        rcases commandClone_isOn hexec hid with heq | hoff
        · exact hne heq.symm
        · exact hoff.2 rfl
  | remove id deletes =>
      cases hrestores : restores p.world.registry.plugins id with
      | none =>
          refine h.fewer fun a ha => (commandRemove_isOn hexec ha).2.resolve_right ?_
          simp [hrestores]
      | some original =>
          refine h.gain (hclear original hrestores) fun a ha => ?_
          obtain ⟨hne, hon⟩ := commandRemove_isOn hexec ha
          rcases hon with hon | horiginal
          · exact Or.inr ⟨hon, hne⟩
          · rw [hrestores, Option.some.injEq] at horiginal
            exact Or.inl horiginal.symm
  | bar id position =>
      by_cases hnative : id = NATIVE
      · refine h.fewer fun a ha => (commandBar_isOn hexec ha).resolve_right ?_
        exact fun hbar => hbar.2 hnative
      · refine h.gain (hclear hnative) fun a ha => ?_
        exact (commandBar_isOn hexec ha).symm.imp And.left fun hon => ⟨hon, not_false⟩
  | configureWidget key value =>
      simp only [Command.exec, commandConfigureWidget, bind_eq_ok, expect_eq_ok,
        raising_eq_ok] at hexec
      obtain ⟨changes, hchanges, info, hinfo, widget, hwidget, hexec⟩ := hexec
      split at hexec
      · cases hexec
      · simp only [bind_eq_ok, pure_eq_ok, insist_eq_ok] at hexec
        obtain ⟨plugins, hplugins, rfl⟩ := hexec
        by_cases henabled : changes.enabled = some true
        · refine h.gain (hclear info widget changes hinfo hwidget hchanges henabled) fun a ha => ?_
          exact (configured_isOn hplugins ha).symm.imp And.left fun hon => ⟨hon, not_false⟩
        · refine h.fewer fun a ha => (configured_isOn hplugins ha).resolve_right ?_
          exact fun hon => henabled hon.2
  | layoutEdit action id payload =>
      simp only [Command.exec, commandLayoutEdit, bind_eq_ok, pure_eq_ok] at hexec
      obtain ⟨-, -, registry, hregistry, rfl⟩ := hexec
      refine h.gain hclear fun a ha => ?_
      exact (editLayout_isOn hregistry ha).symm.imp_right fun hon => ⟨hon, not_false⟩

/-- A command that fails leaves the registry, though a clone may be there. -/
theorem Clear.step_error (h : Exclusive p) {command : Command} (hclear : Clear p command)
    {raised : Raised} (hexec : command.exec p.world = .error raised) :
    Exclusive (p.step command) := by
  have hsame := after_of_error hexec
  have hon : ∀ a, isOn (command.after p.world).registry.plugins a = true → p.on a := by
    intro a ha
    rw [hsame] at ha
    exact ha
  cases command with
  | clone id newId source copied =>
      by_cases hbar : p.world.registry.barFields = none
      · refine Exclusive.shrink (h.cloned hclear.1 (fun a ha => Or.inr (hon a ha)) ?_)
          (clones_subset rfl)
        exact fun happart => hclear.2 hbar (hon newId happart.1)
      · have hafter := after_eq_of_bar hexec hbar
        have hclones : (Command.clone id newId source copied).clones p.world = [] := by
          unfold Command.clones
          rw [hafter]
          exact if_neg fun hboth => hboth.1 hboth.2
        rw [Past.step, hclones]
        exact h.fewer hon
  | _ => exact h.fewer hon

/-- One clear command keeps relatives apart. -/
theorem Clear.step (p : Past) (command : Command) (h : Exclusive p) (hclear : Clear p command) :
    Exclusive (p.step command) := by
  cases hexec : command.exec p.world with
  | ok after => exact hclear.step_ok h hexec
  | error raised => exact hclear.step_error h hexec

end

/-- One native package, nothing enabled. -/
def onePackage : World :=
  ⟨⟨[], none, []⟩,
    [(ascii "a", ⟨.ok [(ascii "id", .str (ascii "a")), (ascii "apiVersion", .num (.int 1)),
      (ascii "entrypoint", .str (ascii "W.qml")), (ascii "name", .str (ascii "A")),
      (ascii "version", .str (ascii "1"))], false, fun _ => true⟩)]⟩

def plainEnable (id : Text) : Command := .enable id ⟨none, none, none⟩

def plainClone (id newId : Text) : Command := .clone id newId .installed fun _ => true

/-- A clone, a clone of the clone, and the original enabled again. -/
def chain : List Command :=
  [plainClone (ascii "a") (ascii "b"), plainClone (ascii "b") (ascii "c"),
    plainEnable (ascii "a")]

end Plugins

end CybexOS
