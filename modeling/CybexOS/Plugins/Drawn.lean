/-
Which widgets a scan shows of a plugin, and which entries of the layout they
become.
-/
import CybexOS.Plugins.Commands
import CybexOS.Plugins.Rows

namespace CybexOS

namespace Plugins

open Json

/-- `value is True` -/
def isTrue (value : Option PyValue) : Bool :=
  match value with
  | some (.bool b) => b
  | _ => false

/-- The plugin is enabled in plugins.json. -/
def isOn (plugins : PyDict) (id : Text) : Bool :=
  match plugins.lookup id with
  | some (.obj entry) => isTrue (entry.lookup ENABLED)
  | _ => false

theorem isOn_entryAt {plugins entry : PyDict} {id : Text}
    (h : entryAt plugins id = some entry) :
    isOn plugins id = isTrue (entry.lookup ENABLED) := by
  unfold entryAt at h
  unfold isOn
  cases hfound : plugins.lookup id with
  | none =>
      rw [hfound] at h
      rw [← Option.some.inj h]
      rfl
  | some value =>
      rw [hfound, Option.getD_some] at h
      cases value with
      | obj fields => rw [Option.some.inj h]
      | _ => cases h

/-! ### One plugin of a scan -/

theorem options_eq_ok {value : PyValue} {found : Options} (h : options value = .ok found) :
    ∃ fields, value = .obj fields ∧ found.enabled = isTrue (fields.lookup ENABLED) ∧
      dictAt fields "settings" = some found.settings := by
  simp only [options, bind_eq_ok, pure_eq_ok, demand_eq_ok] at h
  obtain ⟨fields, hfields, enabled, henabled, width, -, order, -, settings, hsettings, rfl⟩ := h
  cases value with
  | obj items =>
      obtain rfl := Option.some.inj hfields
      refine ⟨items, rfl, ?_, hsettings⟩
      unfold ENABLED
      split at henabled
      · next hnone =>
        rw [hnone, ← Option.some.inj henabled]
        rfl
      · next flag hflag =>
        rw [hflag, Option.some.inj henabled]
        rfl
      · cases henabled
  | _ => cases hfields

/-- What an instance gives its widget. -/
theorem instanceWidget_eq_ok {entry : PyDict} {descriptor : Descriptor} {place : Section}
    {flag : Bool} {item : Text × PyValue} {widget : Widget}
    (h : instanceWidget entry descriptor place flag item = .ok widget) :
    ∃ fields configured found, validId item.1 = true ∧ item.2 = .obj fields ∧
      options (.obj (Dict.merge entry fields)) = .ok configured ∧
      widget =
        { descriptor with
          enabled := descriptor.enabled && flag && configured.enabled
          order := configured.order
          width := configured.width
          settings := Dict.merge descriptor.settings configured.settings
          place := some (.str (Section.name found))
          key := descriptor.id ++ ascii "#" ++ item.1
          instanceName := item.1 } := by
  simp only [instanceWidget, bind_eq_ok, pure_eq_ok, demand_eq_ok] at h
  obtain ⟨fields, hfields, configured, hconfigured, found, -, rfl⟩ := h
  split_ifs at hfields with hid
  have hvalue : item.2 = .obj fields := by
    cases hitem : item.2 with
    | obj _ =>
        rw [hitem] at hfields
        exact congrArg Value.obj (Option.some.inj hfields)
    | _ =>
        rw [hitem] at hfields
        cases hfields
  exact ⟨fields, configured, found, hid, hvalue, hconfigured, rfl⟩

/-- One widget without instances, else one for each. -/
theorem widgetsOf_eq_ok {entry : PyDict} {descriptor : Descriptor} {candidate : Package}
    {widgets : List Widget} (h : widgetsOf entry descriptor candidate = .ok widgets) :
    widgets = [] ∨ ∃ place instances flag, dictAt entry "instances" = some instances ∧
      widgetEnabled? entry = some flag ∧
        (instances = [] ∧ widgets = [descriptor.plainWidget flag] ∨
          instances ≠ [] ∧
            instances.mapM (instanceWidget entry descriptor place flag) = .ok widgets) := by
  simp only [widgetsOf, bind_eq_ok, raising_eq_ok, demand_eq_ok] at h
  obtain ⟨place, -, instances, hinstances, -, -, h⟩ := h
  split_ifs at h with hkind hnone
  · simp only [bind_eq_ok, pure_eq_ok, raising_eq_ok, demand_eq_ok] at h
    obtain ⟨flag, hflag, rfl⟩ := h
    exact Or.inr ⟨place, instances, flag, hinstances, hflag, Or.inl ⟨hnone, rfl⟩⟩
  · simp only [bind_eq_ok, raising_eq_ok, demand_eq_ok] at h
    obtain ⟨flag, hflag, h⟩ := h
    exact Or.inr ⟨place, instances, flag, hinstances, hflag, Or.inr ⟨hnone, h⟩⟩
  · exact Or.inl (pure_eq_ok.mp h).symm

theorem widgetsOf_widget {entry : PyDict} {descriptor : Descriptor} {candidate : Package}
    {widgets : List Widget} (h : widgetsOf entry descriptor candidate = .ok widgets)
    {widget : Widget} (hmem : widget ∈ widgets) :
    widget.id = descriptor.id ∧ (widget.enabled = true → descriptor.enabled = true) := by
  rcases widgetsOf_eq_ok h with rfl | ⟨place, instances, flag, -, -, ⟨-, rfl⟩ | ⟨-, hwidgets⟩⟩
  · cases hmem
  · rw [List.mem_singleton] at hmem
    subst hmem
    exact ⟨rfl, fun hon => (Bool.and_eq_true_iff.mp hon).1⟩
  · obtain ⟨item, -, hitem⟩ := mem_of_mapM hwidgets hmem
    obtain ⟨fields, configured, found, -, -, -, rfl⟩ := instanceWidget_eq_ok hitem
    refine ⟨rfl, fun hon => ?_⟩
    simp only [Bool.and_eq_true] at hon
    exact hon.1.1

/-- A plugin's widgets are chips for its error or what its instances give. -/
theorem scanPlugin_eq_ok {plugins : PyDict} {packages : Packages} {id : Text}
    {listed : Descriptor × List Widget} (h : scanPlugin plugins packages id = .ok listed) :
    (∀ widget ∈ listed.2, widget.id = id ∧ widget.error ≠ none ∧
      (widget.enabled = true → isOn plugins id = true)) ∨
    ∃ entry found candidate, (plugins.lookup id).getD (.obj []) = .obj entry ∧
      options (.obj entry) = .ok found ∧ package packages id = .ok candidate ∧
        widgetsOf entry (.described id found entry candidate) candidate = .ok listed.2 := by
  have hfailed : ∀ (descriptor : Descriptor) (message : Text), descriptor.id = id →
      (descriptor.enabled = true → isOn plugins id = true) →
      ∀ widget ∈ (descriptor.failed message).2, widget.id = id ∧ widget.error ≠ none ∧
        (widget.enabled = true → isOn plugins id = true) := by
    intro descriptor message hid hflag widget hwidget
    simp only [Descriptor.failed] at hwidget
    split_ifs at hwidget with henabled
    · rw [List.mem_singleton] at hwidget
      rw [hwidget]
      exact ⟨hid, Option.some_ne_none _, fun _ => hflag henabled⟩
    · cases hwidget
  unfold scanPlugin at h
  simp only at h
  split at h
  · rw [← Except.ok.inj h]
    exact Or.inl (hfailed _ _ rfl (by simp [Descriptor.blank]))
  · next found hfound =>
    obtain ⟨entry, hentry, hsame, -⟩ := options_eq_ok hfound
    have hon : found.enabled = true → isOn plugins id = true := by
      intro henabled
      have hat : entryAt plugins id = some entry := by
        rw [entryAt, hentry]
        rfl
      rw [isOn_entryAt hat, ← hsame, henabled]
    rw [hentry] at hfound h
    split at h
    · rw [← Except.ok.inj h]
      exact Or.inl (hfailed _ _ rfl hon)
    · next candidate hcandidate =>
      split at h
      · rw [← Except.ok.inj h]
        exact Or.inl (hfailed _ _ rfl hon)
      · cases h
      · next widgets hwidgets =>
        rw [← Except.ok.inj h]
        exact Or.inr ⟨entry, found, candidate, hentry, hfound, hcandidate, hwidgets⟩

/-- Whatever a scan shows as enabled belongs to an enabled plugin. -/
theorem scanPlugin_widget {plugins : PyDict} {packages : Packages} {id : Text}
    {listed : Descriptor × List Widget} (h : scanPlugin plugins packages id = .ok listed)
    {widget : Widget} (hmem : widget ∈ listed.2) :
    widget.id = id ∧ (widget.enabled = true → isOn plugins id = true) := by
  rcases scanPlugin_eq_ok h with hchips | ⟨entry, found, candidate, hentry, hfound, -, hwidgets⟩
  · exact ⟨(hchips widget hmem).1, (hchips widget hmem).2.2⟩
  · obtain ⟨hid, henabled⟩ := widgetsOf_widget hwidgets hmem
    refine ⟨hid, fun hon => ?_⟩
    obtain ⟨fields, hfields, hsame, -⟩ := options_eq_ok hfound
    obtain rfl := Value.obj.inj hfields
    have hat : entryAt plugins id = some entry := by
      rw [entryAt, hentry]
      rfl
    rw [isOn_entryAt hat, ← hsame]
    exact henabled hon

/-! ### All plugins of a scan -/

/-- The widgets of a plugin are those its own scan shows. -/
theorem scanPlugins_filter {plugins : PyDict} {packages : Packages} {ids : List Text}
    {listed : List Descriptor × List Widget} (hids : ids.Nodup)
    (h : scanPlugins plugins packages ids = .ok listed) (id : Text) :
    listed.2.filter (·.id = id) = [] ∨ id ∈ ids ∧ ∃ one,
      scanPlugin plugins packages id = .ok one ∧ listed.2.filter (·.id = id) = one.2 := by
  induction ids generalizing listed with
  | nil =>
      rw [scanPlugins, Except.ok.injEq] at h
      rw [← h]
      exact Or.inl rfl
  | cons first ids ih =>
      rw [List.nodup_cons] at hids
      have hskip : ∀ rest : List Descriptor × List Widget,
          scanPlugins plugins packages ids = .ok rest → rest.2.filter (·.id = id) = [] ∨
            id ∈ first :: ids ∧ ∃ one, scanPlugin plugins packages id = .ok one ∧
              rest.2.filter (·.id = id) = one.2 := fun rest hrest =>
        (ih hids.2 hrest).imp_right fun hone => ⟨List.mem_cons_of_mem _ hone.1, hone.2⟩
      rw [scanPlugins] at h
      split_ifs at h with hbuilt hpresent
      · simp only [bind_eq_ok, pure_eq_ok] at h
        obtain ⟨rest, hrest, rfl⟩ := h
        exact hskip rest hrest
      · simp only [bind_eq_ok, pure_eq_ok] at h
        obtain ⟨rest, hrest, rfl⟩ := h
        exact hskip rest hrest
      · simp only [bind_eq_ok, pure_eq_ok] at h
        obtain ⟨one, hone, rest, hrest, rfl⟩ := h
        rw [List.filter_append]
        have hmine : ∀ widget ∈ one.2, widget.id = first :=
          fun widget hwidget => (scanPlugin_widget hone hwidget).1
        by_cases hid : first = id
        · subst hid
          -- no later plugin has this id
          have hnone : rest.2.filter (·.id = first) = [] :=
            (ih hids.2 hrest).resolve_right fun hlater => hids.1 hlater.1
          rw [hnone, List.append_nil]
          refine Or.inr ⟨List.mem_cons_self, one, hone, ?_⟩
          exact List.filter_eq_self.mpr fun widget hwidget => by simpa using hmine widget hwidget
        · have hnone : one.2.filter (·.id = id) = [] :=
            List.filter_eq_nil_iff.mpr fun widget hwidget => by
              simpa [hmine widget hwidget] using hid
          rw [hnone, List.nil_append]
          exact hskip rest hrest

theorem foundIds_nodup (plugins : PyDict) (packages : Packages) :
    (foundIds plugins packages).Nodup :=
  (List.perm_insertionSort _ _).nodup_iff.mpr (List.nodup_dedup _)

theorem scan_filter {registry : Registry} {packages : Packages} {info : Scan}
    (h : scan registry packages = .ok info) (id : Text) :
    info.widgets.filter (·.id = id) = [] ∨ ∃ one,
      scanPlugin registry.plugins packages id = .ok one ∧
        (info.widgets.filter (·.id = id)).Perm one.2 := by
  simp only [scan, bind_eq_ok, pure_eq_ok] at h
  obtain ⟨bar, -, listed, hlisted, rfl⟩ := h
  have hperm := (List.perm_insertionSort (fun a b : Widget =>
    sortKey a.toDescriptor a.key ≤ sortKey b.toDescriptor b.key) listed.2).filter (·.id = id)
  rcases scanPlugins_filter (foundIds_nodup _ _) hlisted id with hnone | ⟨-, one, hone, hsame⟩
  · rw [hnone] at hperm
    exact Or.inl hperm.eq_nil
  · exact Or.inr ⟨one, hone, hsame ▸ hperm⟩

theorem scan_isOn {registry : Registry} {packages : Packages} {info : Scan}
    (h : scan registry packages = .ok info) {widget : Widget} (hmem : widget ∈ info.widgets)
    (hon : widget.enabled = true) : isOn registry.plugins widget.id = true := by
  have hmine : widget ∈ info.widgets.filter (·.id = widget.id) := by simpa using hmem
  rcases scan_filter h widget.id with hnone | ⟨one, hone, hperm⟩
  · rw [hnone] at hmine
    cases hmine
  · exact (scanPlugin_widget hone (hperm.mem_iff.mp hmine)).2 hon

/-! ### The drawn layout -/

theorem drawnEntry_eq_some {widget : Widget} {place : Section} {entry : PyDict}
    (h : drawnEntry widget = some (place, entry)) :
    widget.enabled = true ∧ widget.error = none ∧ entryId entry = some widget.id := by
  simp only [drawnEntry, Option.bind_eq_bind, Option.bind_eq_some_iff] at h
  obtain ⟨candidate, -, found, -, h⟩ := h
  split_ifs at h with hdrawn
  simp only [Bool.and_eq_true, Option.isNone_iff_eq_none] at hdrawn
  obtain ⟨rfl, rfl⟩ := Prod.mk.inj (Option.some.inj h)
  exact ⟨hdrawn.1.1, hdrawn.1.2, by rw [entryId_set (by decide), entryId_set_id]⟩

theorem mem_drawnLayout {widgets : List Widget} {place : Section} {entry : PyDict} :
    entry ∈ (drawnLayout widgets).at place ↔
      ∃ widget ∈ widgets, drawnEntry widget = some (place, entry) := by
  have hat : (drawnLayout widgets).at place =
      ((widgets.filterMap drawnEntry).filter (·.1 = place)).map Prod.snd := by
    cases place <;> rfl
  simp [hat]

/-- Sorting by section only reorders. -/
theorem sections_perm {α : Type} (entries : List (Section × α)) :
    (SECTIONS.flatMap fun place => entries.filter (·.1 = place)).Perm entries := by
  induction entries with
  | nil => simp [SECTIONS]
  | cons entry entries ih =>
      obtain ⟨place, item⟩ := entry
      simp only [SECTIONS, List.flatMap_cons, List.flatMap_nil, List.append_nil] at ih ⊢
      cases place
      · simpa using ih
      · refine List.Perm.trans ?_ (ih.cons _)
        simp [List.perm_middle]
      · refine List.Perm.trans ?_ (ih.cons _)
        simp only [List.filter_cons, reduceCtorEq, decide_false, Bool.false_eq_true, ↓reduceIte,
          decide_true]
        rw [← List.append_assoc, ← List.append_assoc]
        exact List.perm_middle

/-- The entries of a plugin in the drawn layout are its drawn widgets. -/
theorem drawnLayout_perm (widgets : List Widget) (id : Text) :
    (SECTIONS.flatMap fun place =>
      ((drawnLayout widgets).entries place id).map fun item => (place, item)).Perm
        ((widgets.filter (·.id = id)).filterMap drawnEntry) := by
  have hmine : (widgets.filter (·.id = id)).filterMap drawnEntry =
      (widgets.filterMap drawnEntry).filter fun entry => entryId entry.2 = some id := by
    induction widgets with
    | nil => rfl
    | cons widget widgets ih =>
        cases hdrawn : drawnEntry widget with
        | none =>
            by_cases hid : widget.id = id
            · simp [hid, hdrawn, ih]
            · simp [hid, hdrawn, ih]
        | some entry =>
            have hentry := (drawnEntry_eq_some hdrawn).2.2
            by_cases hid : widget.id = id
            · simp [hid, hdrawn, ih, hentry]
            · simp [hid, hdrawn, ih, hentry]
  rw [hmine]
  refine List.Perm.trans (List.Perm.of_eq ?_) (sections_perm _)
  refine List.flatMap_congr fun place _ => ?_
  have hat : (drawnLayout widgets).at place =
      ((widgets.filterMap drawnEntry).filter (·.1 = place)).map Prod.snd := by
    cases place <;> rfl
  rw [Layout.entries, hat]
  generalize widgets.filterMap drawnEntry = entries
  induction entries with
  | nil => rfl
  | cons entry entries ih =>
      obtain ⟨found, item⟩ := entry
      by_cases hplace : found = place <;> by_cases hid : entryId item = some id <;>
        simp_all

end Plugins

end CybexOS
