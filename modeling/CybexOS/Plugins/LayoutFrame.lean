/-
When a layout edit leaves the entries of all other plugins alone.
-/
import CybexOS.Plugins.Applied
import CybexOS.Plugins.Drawn

namespace CybexOS

namespace Plugins

open Json

/-! ### What an edit may change -/

/-- The same settings, as dictionaries; absent ones are empty. -/
def SameSettings (before after : PyDict) : Prop :=
  match dictAt before "settings" with
  | none => after.lookup (ascii "settings") = before.lookup (ascii "settings")
  | some settings => ∃ kept, dictAt after "settings" = some kept ∧
      ∀ key, kept.lookup key = settings.lookup key

/-- Width, settings and unknown fields stay, and where nothing is drawn the
place as well; `flags` are compared apart. -/
structure FieldsKept (flags : List Text) (drawn : Prop) (before after : PyDict) : Prop where
  settings : SameSettings before after
  others : ∀ key, key ∉ flags → key ∉ [ascii "section", ascii "order", ascii "settings"] →
    after.lookup key = before.lookup key
  place : ¬ drawn → ∀ key ∈ [ascii "section", ascii "order"],
    after.lookup key = before.lookup key

/-- `{**entry, **instance}.get("enabled", False)` -/
def instanceFlag (entry fields : PyDict) : PyValue :=
  ((fields.lookup ENABLED).or (entry.lookup ENABLED)).getD (.bool false)

/-- `entry.get("widgetEnabled", True)` -/
def widgetFlag (entry : PyDict) : PyValue :=
  (entry.lookup (ascii "widgetEnabled")).getD (.bool true)

/-- A widget of this name is drawn for the plugin. -/
def Drawn (info : Scan) (id name : Text) : Prop :=
  ∃ widget ∈ info.widgets, (drawnEntry widget).isSome ∧ widget.id = id ∧
    widget.instanceName = name

/-- One instance of a plugin. -/
def InstanceKept (drawn : Prop) (entry entry' : PyDict) (before after : PyValue) : Prop :=
  match before, after with
  | .obj fields, .obj fields' => FieldsKept [ENABLED] drawn fields fields' ∧
      instanceFlag entry' fields' = instanceFlag entry fields
  | before, after => after = before

/-- The same instances, each kept. -/
def InstancesKept (info : Scan) (id : Text) (before after : PyDict) : Prop :=
  match dictAt before "instances" with
  | none => after.lookup (ascii "instances") = before.lookup (ascii "instances")
  | some instances => ∃ kept, dictAt after "instances" = some kept ∧
      (∀ name, name ∈ Dict.keys kept ↔ name ∈ Dict.keys instances) ∧
      ∀ name value, instances.lookup name = some value → ∃ value',
        kept.lookup name = some value' ∧
          InstanceKept (Drawn info id name) before after value value'

structure EntryKept (info : Scan) (id : Text) (before after : PyDict) : Prop where
  fields : FieldsKept [ENABLED, ascii "widgetEnabled", ascii "instances"] (Drawn info id [])
    before after
  enabled : (after.lookup ENABLED).getD (.bool false) = (before.lookup ENABLED).getD (.bool false)
  widgetEnabled : widgetFlag after = widgetFlag before
  instances : InstancesKept info id before after

/-- The saved entry of a plugin, before and after an edit of another one. -/
def Kept (info : Scan) (id : Text) (before : PyValue) (after : Option PyValue) : Prop :=
  match before, after with
  | .obj entry, some (.obj entry') => EntryKept info id entry entry'
  | before, after => after = some before

/-! ### What a plugin needs for it -/

/-- The settings saved for a plugin or for an instance of it. -/
def ownSettings (entry : PyDict) (name : Text) : PyDict :=
  if name = [] then (dictAt entry "settings").getD []
  else
    let instances := (dictAt entry "instances").getD []
    let fields := ((instances.lookup name).bind asDict).getD []
    (dictAt fields "settings").getD []

/-- A plugin that is drawn is drawn in all its instances, and shows no setting
but saved ones; one with a bar widget that is not drawn is hidden already. -/
structure Settled (packages : Packages) (info : Scan) (id : Text) (entry : PyDict) : Prop where
  hidden : (∀ name, ¬ Drawn info id name) → HasWidget packages id →
    widgetFlag entry = .bool false
  instances : (∃ name, Drawn info id name) → ∀ instances,
    dictAt entry "instances" = some instances → ∀ name ∈ Dict.keys instances, Drawn info id name
  settings : ∀ widget ∈ info.widgets, (drawnEntry widget).isSome → widget.id = id → ∀ key,
    key ∈ Dict.keys (ownSettings entry widget.instanceName) ↔
      key ∉ [ascii "id", INSTANCE] ∧ key ∈ Dict.keys widget.settings

/-! ### Settings -/

theorem lookup_settingsOf (item : PyDict) (key : Text) : (settingsOf item).lookup key =
    if key ∈ [ascii "id", INSTANCE] then none else item.lookup key := by
  have h : (item.filter fun field => decide (field.1 ∉ [ascii "id", INSTANCE])).lookup key = _ :=
    Dict.lookup_filter_key fun key => decide (key ∉ [ascii "id", INSTANCE])
  simp only [decide_eq_true_eq, ite_not] at h
  exact h

/-- The settings of a drawn widget once written back. -/
theorem lookup_settingsOf_drawn (settings : PyDict) (id name key : Text) :
    (settingsOf (Dict.set (Dict.set settings (ascii "id") (.str id)) INSTANCE
      (.str name))).lookup key =
        if key ∈ [ascii "id", INSTANCE] then none else settings.lookup key := by
  rw [lookup_settingsOf]
  split_ifs with hkey
  · rfl
  · simp only [List.mem_cons, List.not_mem_nil, or_false, not_or] at hkey
    rw [Dict.lookup_set, if_neg hkey.2, Dict.lookup_set, if_neg hkey.1]

/-- Settings that win over all others are written back as they are exactly
where the others add nothing. -/
theorem written_iff {own shown : PyDict}
    (hown : ∀ key value, own.lookup key = some value → shown.lookup key = some value) :
    (∀ key, (if key ∈ [ascii "id", INSTANCE] then none else shown.lookup key) =
      own.lookup key) ↔
    ∀ key, key ∈ Dict.keys own ↔ key ∉ [ascii "id", INSTANCE] ∧ key ∈ Dict.keys shown := by
  constructor
  · intro h key
    rw [← Dict.lookup_isSome, ← h key, ← Dict.lookup_isSome]
    split_ifs with hkey
    · simp [hkey]
    · simp only [hkey, not_false_eq_true, true_and]
  · intro h key
    have hkeys := h key
    cases hlookup : own.lookup key with
    | some value =>
        have hmem : key ∈ Dict.keys own := Dict.lookup_isSome.mp (by rw [hlookup]; rfl)
        rw [if_neg (hkeys.mp hmem).1, hown key value hlookup]
    | none =>
        have hnot : key ∉ Dict.keys own := Dict.lookup_eq_none.mp hlookup
        split_ifs with hkey
        · rfl
        · exact Dict.lookup_eq_none.mpr fun hshown => hnot (hkeys.mpr ⟨hkey, hshown⟩)

/-! ### Plugins that are not drawn -/

section

variable {packages : Packages} {info : Scan} {id : Text} {entry : PyDict}

theorem SameSettings.of_lookup {before after : PyDict}
    (h : after.lookup (ascii "settings") = before.lookup (ascii "settings")) :
    SameSettings before after := by
  unfold SameSettings
  cases hsettings : dictAt before "settings" with
  | none => exact h
  | some settings =>
      refine ⟨settings, ?_, fun _ => rfl⟩
      rw [dictAt, h]
      exact hsettings

theorem InstanceKept.refl {drawn : Prop} {entry' : PyDict} (value : PyValue)
    (hflag : (entry'.lookup ENABLED).getD (.bool false) =
      (entry.lookup ENABLED).getD (.bool false)) :
    InstanceKept drawn entry entry' value value := by
  cases value with
  | obj fields =>
      refine ⟨⟨.of_lookup rfl, fun _ _ _ => rfl, fun _ _ _ => rfl⟩, ?_⟩
      unfold instanceFlag
      cases fields.lookup ENABLED with
      | none => simpa using hflag
      | some flag => rfl
  | _ => rfl

/-- A change of `widgetEnabled` alone. -/
theorem entryKept_hidden_iff :
    EntryKept info id entry (Dict.set entry (ascii "widgetEnabled") (.bool false)) ↔
      widgetFlag entry = .bool false := by
  have hother : ∀ key, key ≠ ascii "widgetEnabled" →
      (Dict.set entry (ascii "widgetEnabled") (.bool false)).lookup key = entry.lookup key :=
    fun key hkey => by rw [Dict.lookup_set, if_neg hkey]
  have hflag : widgetFlag (Dict.set entry (ascii "widgetEnabled") (.bool false)) = .bool false := by
    rw [widgetFlag, Dict.lookup_set, if_pos rfl, Option.getD_some]
  constructor
  · intro h
    rw [← h.widgetEnabled, hflag]
  · intro h
    refine ⟨⟨.of_lookup (hother _ (by decide)), ?_, ?_⟩, ?_, hflag.trans h.symm, ?_⟩
    · intro key hkey _
      refine hother key ?_
      rintro rfl
      simp at hkey
    · intro _ key hkey
      refine hother key ?_
      rintro rfl
      revert hkey
      decide
    · rw [hother ENABLED (by decide)]
    · unfold InstancesKept
      have hsame := hother (ascii "instances") (by decide)
      cases hinstances : dictAt entry "instances" with
      | none => exact hsame
      | some instances =>
          refine ⟨instances, ?_, fun _ => Iff.rfl, fun name value hvalue => ?_⟩
          · rw [dictAt, hsame]
            exact hinstances
          · refine ⟨value, hvalue, InstanceKept.refl value ?_⟩
            rw [hother ENABLED (by decide)]

theorem Kept.refl (value : PyValue) : Kept info id value (some value) := by
  cases value with
  | obj entry =>
      refine ⟨⟨.of_lookup rfl, fun _ _ _ => rfl, fun _ _ _ => rfl⟩, rfl, rfl, ?_⟩
      unfold InstancesKept
      cases hinstances : dictAt entry "instances" with
      | none => rfl
      | some instances =>
          exact ⟨instances, rfl, fun _ => Iff.rfl, fun name value hvalue =>
            ⟨value, hvalue, InstanceKept.refl value rfl⟩⟩
  | _ => rfl

/-- Of a plugin that is not drawn only the flag that hides it can change. -/
theorem kept_hidden_iff {before : PyValue} {after : Option PyValue}
    (hdrawn : ∀ name, ¬ Drawn info id name)
    (hhidden : ∀ entry, before = .obj entry → HasWidget packages id →
      after = some (.obj (Dict.set entry (ascii "widgetEnabled") (.bool false))))
    (hrest : ¬ HasWidget packages id ∨ (∀ entry, before ≠ .obj entry) → after = some before) :
    Kept info id before after ↔ ∀ entry, before = .obj entry → Settled packages info id entry := by
  have hsettled : ∀ entry, (HasWidget packages id → widgetFlag entry = .bool false) →
      Settled packages info id entry := by
    intro entry hflag
    refine ⟨fun _ => hflag, fun hsome => ?_, fun widget hwidget hshown hid => ?_⟩
    · obtain ⟨name, hname⟩ := hsome
      exact absurd hname (hdrawn name)
    · exact absurd ⟨widget, hwidget, hshown, hid, rfl⟩ (hdrawn widget.instanceName)
  by_cases hobj : ∃ entry, before = .obj entry
  · obtain ⟨entry, rfl⟩ := hobj
    by_cases hwidget : HasWidget packages id
    · rw [hhidden entry rfl hwidget]
      have hkept : EntryKept info id entry (Dict.set entry (ascii "widgetEnabled") (.bool false)) ↔
          widgetFlag entry = .bool false := entryKept_hidden_iff
      refine hkept.trans ⟨?_, fun h => ?_⟩
      · rintro hflag _ ⟨⟩
        exact hsettled entry fun _ => hflag
      · exact (h entry rfl).hidden hdrawn hwidget
    · rw [hrest (Or.inl hwidget)]
      refine ⟨fun _ other _ => hsettled other fun h => absurd h hwidget, fun _ => Kept.refl _⟩
  · rw [hrest (Or.inr fun entry hentry => hobj ⟨entry, hentry⟩)]
    exact ⟨fun _ entry hentry => absurd ⟨entry, hentry⟩ hobj, fun _ => Kept.refl _⟩

/-! ### Plugins that are drawn -/

/-- A widget writes the settings it shows over its own. -/
def Shows (id : Text) (widget : Widget) (row : Row) (fields : PyDict) : Prop :=
  row.item = Dict.set (Dict.set widget.settings (ascii "id") (.str id)) INSTANCE
    (.str widget.instanceName) ∧
  ∃ own, dictAt fields "settings" = some own ∧
    ∀ key value, own.lookup key = some value → widget.settings.lookup key = some value

theorem sameSettings_iff {widget : Widget} {row : Row} {fields after : PyDict}
    (h : Shows id widget row fields)
    (hafter : after.lookup (ascii "settings") = some (.obj (settingsOf row.item))) :
    SameSettings fields after ↔ ∀ key,
      key ∈ Dict.keys ((dictAt fields "settings").getD []) ↔
        key ∉ [ascii "id", INSTANCE] ∧ key ∈ Dict.keys widget.settings := by
  obtain ⟨hitem, own, hown, hshown⟩ := h
  have hkept : dictAt after "settings" = some (settingsOf row.item) := by
    rw [dictAt, hafter]
    rfl
  unfold SameSettings
  simp only [hown, hkept, Option.some.injEq, exists_eq_left', Option.getD_some]
  rw [← written_iff hshown, hitem]
  simp only [lookup_settingsOf_drawn]

/-- Of a plugin without instances that is drawn only settings can change. -/
theorem kept_plain_iff {saved : PyDict} {row : Row} {widget : Widget}
    (hsaved : ∀ key, saved.lookup key =
      if key = ascii "instances" then (entry.lookup key).map fun _ => .obj []
      else if key = ascii "section" then some (.str row.place.name)
      else if key = ascii "order" then some (.num (.int row.order))
      else if key = ascii "settings" then some (.obj (settingsOf row.item))
      else if key = ascii "enabled" ∨ key = ascii "widgetEnabled" then some (.bool true)
      else entry.lookup key)
    (hshows : Shows id widget row entry) (hname : widget.instanceName = [])
    (hinstances : dictAt entry "instances" = some [])
    (henabled : entry.lookup ENABLED = some (.bool true)) (hflag : widgetFlag entry = .bool true)
    (hdrawn : Drawn info id [])
    (hmine : ∀ other ∈ info.widgets, (drawnEntry other).isSome → other.id = id → other = widget)
    (hthere : widget ∈ info.widgets ∧ (drawnEntry widget).isSome ∧ widget.id = id) :
    EntryKept info id entry saved ↔ Settled packages info id entry := by
  have hwritten : saved.lookup (ascii "settings") = some (.obj (settingsOf row.item)) := by
    rw [hsaved, if_neg (by decide), if_neg (by decide), if_neg (by decide), if_pos rfl]
  have hsame := sameSettings_iff hshows hwritten
  have hown : ownSettings entry widget.instanceName = (dictAt entry "settings").getD [] := by
    rw [ownSettings, if_pos hname]
  constructor
  · intro h
    refine ⟨fun hnone => absurd hdrawn (hnone []), ?_, ?_⟩
    · intro _ instances hsome name hmem
      obtain rfl := Option.some.inj (hinstances.symm.trans hsome)
      cases hmem
    · intro other hother hshown hid
      rw [hmine other hother hshown hid, hown]
      exact hsame.mp h.fields.settings
  · intro h
    have hsettings := h.settings widget hthere.1 hthere.2.1 hthere.2.2
    rw [hown] at hsettings
    refine ⟨⟨hsame.mpr hsettings, ?_, fun hnot => absurd hdrawn hnot⟩, ?_, ?_, ?_⟩
    · intro key hflags hplaces
      simp only [List.mem_cons, List.not_mem_nil, or_false, not_or] at hflags hplaces
      have hneither : ¬ (key = ascii "enabled" ∨ key = ascii "widgetEnabled") :=
        not_or.mpr ⟨hflags.1, hflags.2.1⟩
      rw [hsaved, if_neg hflags.2.2, if_neg hplaces.1, if_neg hplaces.2.1, if_neg hplaces.2.2,
        if_neg hneither]
    · rw [hsaved, henabled]
      rfl
    · rw [hflag, widgetFlag, hsaved]
      rfl
    · unfold InstancesKept
      rw [hinstances]
      refine ⟨[], ?_, fun _ => Iff.rfl, fun name value hvalue => by cases hvalue⟩
      rw [dictAt, hsaved, if_pos rfl]
      cases entry.lookup (ascii "instances") <;> rfl

theorem lookup_instanceOf (fields : PyDict) (row : Row) (key : Text) :
    (instanceOf fields row).lookup key =
      if key = ascii "section" then some (.str row.place.name)
      else if key = ascii "order" then some (.num (.int row.order))
      else if key = ascii "settings" then some (.obj (settingsOf row.item))
      else if key = ENABLED then some (.bool true)
      else fields.lookup key := by
  rw [instanceOf, lookup_merge_placed, Dict.lookup_set]
  rfl

/-- What the widget of an instance was drawn from and what its row leaves. -/
structure FromInstance (id : Text) (entry previous made : PyDict) (widget : Widget)
    (fields : PyDict) (row : Row) : Prop where
  named : widget.instanceName ≠ []
  before : previous.lookup widget.instanceName = some (.obj fields)
  after : made.lookup widget.instanceName = some (.obj (instanceOf fields row))
  shows : Shows id widget row fields
  flag : instanceFlag entry fields = .bool true

theorem FromInstance.kept_iff {saved previous made fields : PyDict} {widget : Widget} {row : Row}
    {drawn : Prop} (h : FromInstance id entry previous made widget fields row) (hdrawn : drawn) :
    InstanceKept drawn entry saved (.obj fields) (.obj (instanceOf fields row)) ↔ ∀ key,
      key ∈ Dict.keys ((dictAt fields "settings").getD []) ↔
        key ∉ [ascii "id", INSTANCE] ∧ key ∈ Dict.keys widget.settings := by
  have hlookup := lookup_instanceOf fields row
  have hwritten : (instanceOf fields row).lookup (ascii "settings") =
      some (.obj (settingsOf row.item)) := by
    rw [hlookup, if_neg (by decide), if_neg (by decide), if_pos rfl]
  rw [← sameSettings_iff h.shows hwritten]
  constructor
  · exact fun hkept => hkept.1.settings
  · intro hsettings
    refine ⟨⟨hsettings, ?_, fun hnot => absurd hdrawn hnot⟩, ?_⟩
    · intro key hflags hplaces
      simp only [List.mem_cons, List.not_mem_nil, or_false, not_or] at hflags hplaces
      rw [hlookup, if_neg hplaces.1, if_neg hplaces.2.1, if_neg hplaces.2.2, if_neg hflags]
    · rw [h.flag, instanceFlag, hlookup, if_neg (by decide), if_neg (by decide),
        if_neg (by decide), if_pos rfl]
      rfl

/-- Of a plugin with instances that is drawn, instances can be lost and their
settings change. -/
theorem kept_instances_iff {saved previous made : PyDict}
    (hsaved : ∀ key, saved.lookup key =
      if key = ascii "instances" then some (.obj made)
      else if key = ascii "enabled" ∨ key = ascii "widgetEnabled" then some (.bool true)
      else entry.lookup key)
    (hprevious : dictAt entry "instances" = some previous)
    (henabled : entry.lookup ENABLED = some (.bool true)) (hflag : widgetFlag entry = .bool true)
    (hdrawn : ∃ name, Drawn info id name)
    (hwidgets : ∀ widget ∈ info.widgets, (drawnEntry widget).isSome → widget.id = id →
      ∃ fields row, FromInstance id entry previous made widget fields row)
    (hmade : ∀ name ∈ Dict.keys made, Drawn info id name) :
    EntryKept info id entry saved ↔ Settled packages info id entry := by
  have hkept : dictAt saved "instances" = some made := by
    rw [dictAt, hsaved, if_pos rfl]
    rfl
  have hown : ∀ widget fields row, FromInstance id entry previous made widget fields row →
      ownSettings entry widget.instanceName = (dictAt fields "settings").getD [] := by
    intro widget fields row h
    simp only [ownSettings, if_neg h.named, hprevious, Option.getD_some, h.before,
      Option.bind_some, asDict]
  constructor
  · intro h
    have hinstances := h.instances
    unfold InstancesKept at hinstances
    simp only [hprevious, hkept, Option.some.injEq, exists_eq_left'] at hinstances
    refine ⟨fun hnone => ?_, fun _ instances hsome name hmem => ?_, ?_⟩
    · obtain ⟨name, hname⟩ := hdrawn
      exact absurd hname (hnone name)
    · obtain rfl := Option.some.inj (hprevious.symm.trans hsome)
      exact hmade name ((hinstances.1 name).mpr hmem)
    · intro widget hwidget hshown hid
      obtain ⟨fields, row, hfrom⟩ := hwidgets widget hwidget hshown hid
      obtain ⟨value, hvalue, hinstance⟩ := hinstances.2 _ _ hfrom.before
      obtain rfl := Option.some.inj (hfrom.after.symm.trans hvalue)
      rw [hown widget fields row hfrom]
      exact (hfrom.kept_iff ⟨widget, hwidget, hshown, hid, rfl⟩).mp hinstance
  · intro h
    have hall := h.instances hdrawn previous hprevious
    refine ⟨⟨.of_lookup ?_, ?_, ?_⟩, ?_, ?_, ?_⟩
    · rw [hsaved, if_neg (by decide), if_neg (by decide)]
    · intro key hflags _
      simp only [List.mem_cons, List.not_mem_nil, or_false, not_or] at hflags
      have hneither : ¬ (key = ascii "enabled" ∨ key = ascii "widgetEnabled") :=
        not_or.mpr ⟨hflags.1, hflags.2.1⟩
      rw [hsaved, if_neg hflags.2.2, if_neg hneither]
    · intro _ key hkey
      rw [hsaved, if_neg, if_neg]
      · rintro (rfl | rfl) <;> revert hkey <;> decide
      · rintro rfl
        revert hkey
        decide
    · rw [hsaved, henabled]
      rfl
    · rw [hflag, widgetFlag, hsaved]
      rfl
    · unfold InstancesKept
      simp only [hprevious, hkept, Option.some.injEq, exists_eq_left']
      have hfound : ∀ name, Drawn info id name → ∃ widget fields row,
          widget.instanceName = name ∧ FromInstance id entry previous made widget fields row ∧
            ∀ key, key ∈ Dict.keys ((dictAt fields "settings").getD []) ↔
              key ∉ [ascii "id", INSTANCE] ∧ key ∈ Dict.keys widget.settings := by
        rintro name ⟨widget, hwidget, hshown, hid, hname⟩
        obtain ⟨fields, row, hfrom⟩ := hwidgets widget hwidget hshown hid
        refine ⟨widget, fields, row, hname, hfrom, ?_⟩
        rw [← hown widget fields row hfrom]
        exact h.settings widget hwidget hshown hid
      refine ⟨fun name => ⟨fun hmem => ?_, fun hmem => ?_⟩, fun name value hvalue => ?_⟩
      · obtain ⟨widget, fields, row, rfl, hfrom, -⟩ := hfound name (hmade name hmem)
        exact mem_keys_of_eq hfrom.before
      · obtain ⟨widget, fields, row, rfl, hfrom, -⟩ := hfound name (hall name hmem)
        exact mem_keys_of_eq hfrom.after
      · have hname := hall name (mem_keys_of_eq hvalue)
        obtain ⟨widget, fields, row, rfl, hfrom, hsettings⟩ := hfound name hname
        obtain rfl := Option.some.inj (hfrom.before.symm.trans hvalue)
        exact ⟨_, hfrom.after, (hfrom.kept_iff hname).mpr hsettings⟩

end

end Plugins

end CybexOS
