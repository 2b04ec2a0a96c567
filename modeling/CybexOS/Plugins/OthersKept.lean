/-
Layout edits over a whole registry: every other plugin keeps its entry exactly
where it is settled, and a plugin with a disabled instance is not.
-/
import CybexOS.Plugins.LayoutFrame

namespace CybexOS

namespace Plugins

open Json

/-! ### Rows and drawn widgets -/

section

variable {registry edited : Registry} {packages : Packages} {info : Scan} {layout : Layout}
  {rows : List (Text × Row)} {id other : Text}

/-- The rows of another plugin are its drawn widgets. -/
theorem rowsFor_perm (hrows : rowsOf layout = .ok rows)
    (hsame : SameOutside id (drawnLayout info.widgets) layout) (hother : other ≠ id) :
    ((rowsFor rows other).map fun row => (row.place, row.item)).Perm
      ((info.widgets.filter (·.id = other)).filterMap drawnEntry) := by
  rw [rowsOf_eq_ok hrows]
  refine List.Perm.trans (List.Perm.of_eq ?_) (drawnLayout_perm info.widgets other)
  exact List.flatMap_congr fun place _ => by rw [hsame place other hother]

theorem exists_widget_of_row
    (hperm : ((rowsFor rows other).map fun row => (row.place, row.item)).Perm
      ((info.widgets.filter (·.id = other)).filterMap drawnEntry))
    {row : Row} (hrow : row ∈ rowsFor rows other) :
    ∃ widget ∈ info.widgets, widget.id = other ∧ drawnEntry widget = some (row.place, row.item) := by
  have hmem := hperm.mem_iff.mp (List.mem_map.mpr ⟨row, hrow, rfl⟩)
  obtain ⟨widget, hwidget, hdrawn⟩ := List.mem_filterMap.mp hmem
  rw [List.mem_filter, decide_eq_true_eq] at hwidget
  exact ⟨widget, hwidget.1, hwidget.2, hdrawn⟩

theorem exists_row_of_widget
    (hperm : ((rowsFor rows other).map fun row => (row.place, row.item)).Perm
      ((info.widgets.filter (·.id = other)).filterMap drawnEntry))
    {widget : Widget} (hwidget : widget ∈ info.widgets) (hid : widget.id = other)
    (hdrawn : (drawnEntry widget).isSome) :
    ∃ row ∈ rowsFor rows other, drawnEntry widget = some (row.place, row.item) := by
  obtain ⟨entry, hentry⟩ := Option.isSome_iff_exists.mp hdrawn
  have hfound : entry ∈ (info.widgets.filter (·.id = other)).filterMap drawnEntry := by
    refine List.mem_filterMap.mpr ⟨widget, ?_, hentry⟩
    rw [List.mem_filter, decide_eq_true_eq]
    exact ⟨hwidget, hid⟩
  obtain ⟨row, hrow, heq⟩ := List.mem_map.mp (hperm.mem_iff.mpr hfound)
  exact ⟨row, hrow, by rw [hentry, ← heq]⟩

/-- The entry of a drawn widget. -/
theorem drawnEntry_item {widget : Widget} {place : Section} {item : PyDict}
    (h : drawnEntry widget = some (place, item)) :
    item = Dict.set (Dict.set widget.settings (ascii "id") (.str widget.id)) INSTANCE
      (.str widget.instanceName) := by
  simp only [drawnEntry, Option.bind_eq_bind, Option.bind_eq_some_iff] at h
  obtain ⟨candidate, -, found, -, h⟩ := h
  split_ifs at h with hdrawn
  exact (Prod.mk.inj (Option.some.inj h)).2.symm

theorem lookup_drawnEntry {widget : Widget} {place : Section} {item : PyDict}
    (h : drawnEntry widget = some (place, item)) :
    item.lookup INSTANCE = some (.str widget.instanceName) := by
  rw [drawnEntry_item h, Dict.lookup_set, if_pos rfl]

/-! ### One plugin -/

theorem isTrue_iff {value : Option PyValue} : isTrue value = true ↔ value = some (.bool true) := by
  rcases value with - | value
  · simp [isTrue]
  · cases value <;> simp [isTrue]

theorem widgetFlag_of_some {entry : PyDict} {flag : Bool} (h : widgetEnabled? entry = some flag) :
    widgetFlag entry = .bool flag := by
  unfold widgetEnabled? at h
  unfold widgetFlag
  split at h
  · next hnone =>
    rw [hnone, ← Option.some.inj h]
    rfl
  · next found hfound =>
    rw [hfound, Option.some.inj h]
    rfl
  · cases h

theorem proper_keys {d : PyDict} (h : Proper (.obj d)) : (Dict.keys d).Nodup := by
  cases h with
  | obj _ hkeys _ => exact hkeys

/-- A dictionary inside a dictionary. -/
theorem proper_dictAt {d found : PyDict} {key : String} (hproper : Proper (.obj d))
    (h : dictAt d key = some found) : Proper (.obj found) := by
  unfold dictAt at h
  cases hvalue : d.lookup (ascii key) with
  | none =>
      rw [hvalue] at h
      rw [← Option.some.inj h]
      exact .obj [] List.nodup_nil (by simp)
  | some value =>
      rw [hvalue, Option.getD_some] at h
      have hheld : Proper value := hproper.field? hvalue
      cases value with
      | obj items => exact Option.some.inj h ▸ hheld
      | _ => cases h

/-- The widget of a plugin without instances shows the plugin's settings. -/
theorem shows_plain {entry : PyDict} {found : Options} {candidate : Package} {flag : Bool}
    {row : Row} (hproper : Proper (.obj entry))
    (hfound : dictAt entry "settings" = some found.settings)
    (hdrawn : drawnEntry ((Descriptor.described other found entry candidate).plainWidget flag) =
      some (row.place, row.item)) :
    Shows other ((Descriptor.described other found entry candidate).plainWidget flag) row
      entry := by
  refine ⟨drawnEntry_item hdrawn, found.settings, hfound, fun key value hvalue => ?_⟩
  show (Dict.merge candidate.defaults found.settings).lookup key = some value
  rw [Dict.lookup_merge (proper_keys (proper_dictAt hproper hfound)), hvalue, Option.some_or]

theorem instanceName_ne_nil {entry : PyDict} {descriptor : Descriptor} {place : Section}
    {flag : Bool} {item : Text × PyValue} {widget : Widget}
    (h : instanceWidget entry descriptor place flag item = .ok widget) :
    widget.instanceName ≠ [] := by
  obtain ⟨fields, configured, place', hvalid, -, -, rfl⟩ := instanceWidget_eq_ok h
  rintro hnil
  rw [show item.1 = [] from hnil] at hvalid
  revert hvalid
  decide

/-- The widget of an instance was drawn from it. -/
theorem fromInstance {entry previous made : PyDict} {found : Options}
    {candidate : Package} {place : Section} {flag : Bool} {item : Text × PyValue}
    {widget : Widget} {row : Row} (hproper : Proper (.obj entry))
    (hprevious : dictAt entry "instances" = some previous) (hitem : item ∈ previous)
    (hwidget : instanceWidget entry (Descriptor.described other found entry candidate) place flag
      item = .ok widget)
    (hdrawn : drawnEntry widget = some (row.place, row.item))
    (hmade : ∃ before,
      asDict ((previous.lookup widget.instanceName).getD (.obj [])) = some before ∧
        made.lookup widget.instanceName = some (.obj (instanceOf before row))) :
    ∃ fields, FromInstance other entry previous made widget fields row := by
  obtain ⟨fields, configured, place', hvalid, hfields, hconfigured, rfl⟩ :=
    instanceWidget_eq_ok hwidget
  have hpreviousProper := proper_dictAt hproper hprevious
  have hlookup : previous.lookup item.1 = some (.obj fields) := by
    refine Dict.lookup_of_mem (proper_keys hpreviousProper) ?_
    rw [← hfields]
    exact hitem
  have hfieldsProper : Proper (.obj fields) := hpreviousProper.field? hlookup
  have hmerge : ∀ key, (Dict.merge entry fields).lookup key =
      (fields.lookup key).or (entry.lookup key) :=
    fun key => Dict.lookup_merge (proper_keys hfieldsProper)
  obtain ⟨merged, hmerged, henabled, hsettings⟩ := options_eq_ok hconfigured
  obtain rfl := Value.obj.inj hmerged
  have hon := (drawnEntry_eq_some hdrawn).1
  simp only [Bool.and_eq_true] at hon
  refine ⟨fields, instanceName_ne_nil hwidget, hlookup, ?_, ⟨drawnEntry_item hdrawn, ?_⟩, ?_⟩
  · obtain ⟨before, hbefore, hafter⟩ := hmade
    rw [show previous.lookup _ = _ from hlookup] at hbefore
    rw [hafter, Option.some.inj hbefore]
  · cases hown : fields.lookup (ascii "settings") with
    | none =>
        refine ⟨[], ?_, fun key value hvalue => by cases hvalue⟩
        rw [dictAt, hown]
        rfl
    | some value =>
        have hsame : dictAt fields "settings" = some configured.settings := by
          rw [← hsettings, dictAt, dictAt, hmerge, hown, Option.some_or]
        refine ⟨configured.settings, hsame, fun key value hvalue => ?_⟩
        show (Dict.merge (Dict.merge candidate.defaults found.settings)
          configured.settings).lookup key = some value
        rw [Dict.lookup_merge (proper_keys (proper_dictAt hfieldsProper hsame)), hvalue,
          Option.some_or]
  · rw [hon.2, hmerge] at henabled
    rw [instanceFlag, isTrue_iff.mp henabled.symm]
    rfl

/-- A plugin without instances that is drawn. -/
theorem kept_plain {entry saved : PyDict} {found : Options} {candidate : Package} {flag multiple : Bool}
    (hproper : Proper (.obj entry)) (hfound : options (.obj entry) = .ok found)
    (hperm : ((rowsFor rows other).map fun row => (row.place, row.item)).Perm
      ((info.widgets.filter (·.id = other)).filterMap drawnEntry))
    (hnone : rowsFor rows other ≠ [])
    (hinstances : dictAt entry "instances" = some []) (hflag : widgetEnabled? entry = some flag)
    (hwidgets : (info.widgets.filter (·.id = other)).Perm
      [(Descriptor.described other found entry candidate).plainWidget flag])
    (hsaved : applyRows multiple entry (rowsFor rows other) = .ok saved) :
    EntryKept info other entry saved ↔ Settled packages info other entry := by
  rw [List.perm_singleton] at hwidgets
  obtain ⟨row, hrow⟩ := List.exists_mem_of_ne_nil _ hnone
  obtain ⟨widget, hwidget, hid, hdrawn⟩ := exists_widget_of_row hperm hrow
  have hmine : ∀ widget ∈ info.widgets, widget.id = other →
      widget = (Descriptor.described other found entry candidate).plainWidget flag := by
    intro widget hwidget hid
    rw [← List.mem_singleton, ← hwidgets, List.mem_filter, decide_eq_true_eq]
    exact ⟨hwidget, hid⟩
  have hone : rowsFor rows other = [row] := by
    have hsingle : (rowsFor rows other).length = 1 := by
      have hlength := hperm.length_eq
      rw [hwidgets, ← hmine widget hwidget hid, List.filterMap_cons_some hdrawn] at hlength
      simpa using hlength
    obtain ⟨only, honly⟩ := List.length_eq_one_iff.mp hsingle
    rw [honly, List.mem_singleton] at hrow
    rw [honly, hrow]
  obtain rfl := hmine widget hwidget hid
  rw [hone] at hsaved
  obtain ⟨fields, hfields, henabled, hsettings⟩ := options_eq_ok hfound
  obtain rfl := Value.obj.inj hfields
  have hon := (drawnEntry_eq_some hdrawn).1
  have hboth : isTrue (entry.lookup ENABLED) = true ∧ flag = true := by
    rw [← henabled]
    exact Bool.and_eq_true_iff.mp hon
  have hshown : (drawnEntry ((Descriptor.described other found entry candidate).plainWidget
      flag)).isSome := by
    rw [hdrawn]
    rfl
  refine kept_plain_iff (applyRows_plain (lookup_drawnEntry hdrawn) hsaved)
    (shows_plain hproper hsettings hdrawn) rfl hinstances (isTrue_iff.mp hboth.1) ?_
    ⟨_, hwidget, hshown, hid, rfl⟩ (fun widget hwidget _ hid => hmine widget hwidget hid)
    ⟨hwidget, hshown, hid⟩
  rw [widgetFlag_of_some hflag, hboth.2]

/-- A plugin with instances of which one is drawn. -/
theorem kept_instances {entry saved previous : PyDict} {found : Options} {candidate : Package}
    {place : Section} {flag multiple : Bool} {widgets : List Widget}
    (hproper : Proper (.obj entry)) (hfound : options (.obj entry) = .ok found)
    (hperm : ((rowsFor rows other).map fun row => (row.place, row.item)).Perm
      ((info.widgets.filter (·.id = other)).filterMap drawnEntry))
    (hnone : rowsFor rows other ≠ [])
    (hprevious : dictAt entry "instances" = some previous)
    (hflag : widgetEnabled? entry = some flag)
    (hwidgets : (info.widgets.filter (·.id = other)).Perm widgets)
    (hmade : previous.mapM (instanceWidget entry
      (Descriptor.described other found entry candidate) place flag) = .ok widgets)
    (hsaved : applyRows multiple entry (rowsFor rows other) = .ok saved) :
    EntryKept info other entry saved ↔ Settled packages info other entry := by
  have hinstance : ∀ widget ∈ info.widgets, widget.id = other → ∃ item ∈ previous,
      instanceWidget entry (Descriptor.described other found entry candidate) place flag item =
        .ok widget := by
    intro widget hwidget hid
    refine mem_of_mapM hmade (hwidgets.mem_iff.mp ?_)
    rw [List.mem_filter, decide_eq_true_eq]
    exact ⟨hwidget, hid⟩
  obtain ⟨first, hfirst⟩ := List.exists_mem_of_ne_nil _ hnone
  obtain ⟨shown, hshown, hshownId, hshownDrawn⟩ := exists_widget_of_row hperm hfirst
  have hnames : ∀ row ∈ rowsFor rows other,
      ∃ name, name ≠ [] ∧ row.item.lookup INSTANCE = some (.str name) := by
    intro row hrow
    obtain ⟨widget, hwidget, hid, hdrawn⟩ := exists_widget_of_row hperm hrow
    obtain ⟨item, -, hitem⟩ := hinstance widget hwidget hid
    exact ⟨widget.instanceName, instanceName_ne_nil hitem, lookup_drawnEntry hdrawn⟩
  obtain ⟨previous', made, hprevious', hlookup, hrowMade, hkeys⟩ :=
    applyRows_named hnames hnone hsaved
  obtain rfl := Option.some.inj (hprevious.symm.trans hprevious')
  obtain ⟨fields, hfields, henabled, -⟩ := options_eq_ok hfound
  obtain rfl := Value.obj.inj hfields
  have hboth : found.enabled = true ∧ flag = true := by
    obtain ⟨item, -, hitem⟩ := hinstance shown hshown hshownId
    obtain ⟨fields, configured, place', -, -, -, rfl⟩ := instanceWidget_eq_ok hitem
    have hon := (drawnEntry_eq_some hshownDrawn).1
    simp only [Bool.and_eq_true] at hon
    exact hon.1
  rw [henabled] at hboth
  refine kept_instances_iff hlookup hprevious (isTrue_iff.mp hboth.1) ?_
    ⟨_, shown, hshown, by rw [hshownDrawn]; rfl, hshownId, rfl⟩ ?_ ?_
  · rw [widgetFlag_of_some hflag, hboth.2]
  · intro widget hwidget hdrawn hid
    obtain ⟨row, hrow, hentry⟩ := exists_row_of_widget hperm hwidget hid hdrawn
    obtain ⟨item, hmem, hitem⟩ := hinstance widget hwidget hid
    obtain ⟨fields, hfrom⟩ := fromInstance hproper hprevious hmem hitem hentry
      (hrowMade row hrow _ (lookup_drawnEntry hentry))
    exact ⟨fields, row, hfrom⟩
  · intro name hname
    obtain ⟨row, hrow, hrowName⟩ := hkeys name hname
    obtain ⟨widget, hwidget, hid, hentry⟩ := exists_widget_of_row hperm hrow
    refine ⟨widget, hwidget, by rw [hentry]; rfl, hid, ?_⟩
    rw [lookup_drawnEntry hentry] at hrowName
    exact Value.str.inj (Option.some.inj hrowName)

/-- An edit keeps the entry of another plugin exactly if the plugin is settled. -/
theorem kept_iff {value : PyValue} (hproper : Proper (.obj registry.plugins))
    (hinfo : scan registry packages = .ok info) (hother : other ≠ id)
    (hsame : SameOutside id (drawnLayout info.widgets) layout)
    (happlied : applyLayout registry layout packages = .ok edited)
    (hvalue : registry.plugins.lookup other = some value) :
    Kept info other value (edited.plugins.lookup other) ↔
      ∀ entry, value = .obj entry → Settled packages info other entry := by
  obtain ⟨rows, hrows, hentries⟩ := applyLayout_eq_ok happlied
  have hperm := rowsFor_perm hrows hsame hother
  by_cases hnone : rowsFor rows other = []
  · obtain ⟨hhidden, hrest⟩ := (hentries other).2 hnone value hvalue
    refine kept_hidden_iff (fun name hdrawn => ?_) hhidden hrest
    obtain ⟨widget, hwidget, hshown, hid, -⟩ := hdrawn
    obtain ⟨row, hrow, -⟩ := exists_row_of_widget hperm hwidget hid hshown
    rw [hnone] at hrow
    cases hrow
  · obtain ⟨saved, hsaved, hedited⟩ := (hentries other).1 hnone
    obtain ⟨row, hrow⟩ := List.exists_mem_of_ne_nil _ hnone
    obtain ⟨widget, hwidget, hid, hdrawn⟩ := exists_widget_of_row hperm hrow
    have hmine : widget ∈ info.widgets.filter (·.id = other) := by
      rw [List.mem_filter, decide_eq_true_eq]
      exact ⟨hwidget, hid⟩
    obtain ⟨one, hone, hwidgets⟩ := (scan_filter hinfo other).resolve_left
      (List.ne_nil_of_mem hmine)
    rcases scanPlugin_eq_ok hone with hchips | ⟨entry, found, candidate, hentry, hfound, -, hof⟩
    · exact absurd (drawnEntry_eq_some hdrawn).2.1 (hchips widget (hwidgets.mem_iff.mp hmine)).2.1
    · rw [hvalue, Option.getD_some] at hentry
      subst hentry
      obtain ⟨multiple, entry', hentry', hsaved⟩ := hsaved
      obtain rfl : entry = entry' := by
        rw [entryAt, hvalue] at hentry'
        exact Option.some.inj hentry'
      have hentryProper : Proper (.obj entry) := hproper.field? hvalue
      have hiff : EntryKept info other entry saved ↔ Settled packages info other entry := by
        rcases widgetsOf_eq_ok hof with
          hnil | ⟨place, previous, flag, hprevious, hflag, ⟨rfl, hplain⟩ | ⟨-, hnamed⟩⟩
        · have hmem := hwidgets.mem_iff.mp hmine
          rw [hnil] at hmem
          cases hmem
        · rw [hplain] at hwidgets
          exact kept_plain hentryProper hfound hperm hnone hprevious hflag hwidgets hsaved
        · exact kept_instances hentryProper hfound hperm hnone hprevious hflag hwidgets hnamed
            hsaved
      rw [hedited]
      refine hiff.trans ⟨?_, fun h => h entry rfl⟩
      rintro h _ ⟨⟩
      exact h


/-! ### A whole edit -/

/-- Every other plugin's saved entry is kept. -/
def OthersKept (info : Scan) (id : Text) (before after : Registry) : Prop :=
  ∀ other value, other ≠ id → before.plugins.lookup other = some value →
    Kept info other value (after.plugins.lookup other)

def OthersSettled (packages : Packages) (info : Scan) (id : Text) (registry : Registry) : Prop :=
  ∀ other entry, other ≠ id → registry.plugins.lookup other = some (.obj entry) →
    Settled packages info other entry

theorem preferences_proper {document : Option PyDict}
    (hdocument : ∀ fields, document = some fields → Proper (.obj fields))
    (h : preferences document = .ok registry) : Proper (.obj registry.plugins) := by
  cases document with
  | none =>
      rw [preferences, Except.ok.injEq] at h
      rw [← h]
      exact .obj [] List.nodup_nil (by simp)
  | some fields =>
      simp only [preferences, bind_eq_ok, pure_eq_ok, demand_eq_ok] at h
      obtain ⟨-, -, plugins, hplugins, rfl⟩ := h
      obtain ⟨value, hvalue, hdict⟩ := Option.bind_eq_some_iff.mp hplugins
      have hheld : Proper value := (hdocument fields rfl).field? hvalue
      cases value with
      | obj items => exact Option.some.inj hdict ▸ hheld
      | _ => cases hdict

/-- A successful edit keeps the entries of all other plugins exactly if it has
nothing to do or all of them are settled. -/
theorem editLayout_keeps_others_iff {document : Option PyDict} {action : Action}
    {payload : PyDict} (hdocument : ∀ fields, document = some fields → Proper (.obj fields))
    (hregistry : preferences document = .ok registry)
    (hinfo : scan registry packages = .ok info)
    (hedited : editLayout registry packages action id payload = .ok edited) :
    OthersKept info id registry edited ↔
      Idle info action id payload ∨ OthersSettled packages info id registry := by
  have hproper := preferences_proper hdocument hregistry
  obtain ⟨found, hfound, hcases⟩ := editLayout_eq_ok hedited
  obtain rfl : info = found := Except.ok.inj (hinfo.symm.trans hfound)
  rcases hcases with ⟨hidle, rfl⟩ | ⟨hbusy, layout, hsame, happlied⟩
  · refine ⟨fun _ => Or.inl hidle, fun _ other value _ hvalue => ?_⟩
    rw [hvalue]
    exact Kept.refl value
  · rw [or_iff_right hbusy]
    constructor
    · intro h other entry hother hentry
      exact (kept_iff hproper hinfo hother hsame happlied hentry).mp
        (h other (.obj entry) hother hentry) entry rfl
    · intro h other value hother hvalue
      refine (kept_iff hproper hinfo hother hsame happlied hvalue).mpr ?_
      rintro entry rfl
      exact h other entry hother hvalue

end

/-! ### An instance that is lost -/

/-- An Omarchy bar widget. -/
def barWidget (id : Text) : Text × Directory :=
  (id, ⟨.ok [(ascii "id", .str id), (ascii "schemaVersion", .num (.int 1)),
    (ascii "kinds", .arr [.str BAR_WIDGET]),
    (ascii "entryPoints", .obj [(ascii "barWidget", .str (ascii "W.qml"))]),
    (ascii "barWidget", .obj [(ascii "allowMultiple", .bool true)]),
    (ascii "name", .str id), (ascii "version", .str (ascii "1"))], false, fun _ => true⟩)

def twoWidgets : Packages := [barWidget (ascii "a"), barWidget (ascii "b")]

/-- `b` with one instance disabled and one drawn. -/
def halfDrawn : PyDict :=
  [(ascii "v", .num (.int 1)), (ascii "plugins", .obj [(ascii "b", .obj [(ENABLED, .bool true),
    (ascii "instances", .obj [(ascii "x", .obj [(ENABLED, .bool false)]),
      (ascii "y", .obj [])])])])]

/-- The registry once `a` was put into the bar beside it. -/
def besideHalf : Result (Registry × Scan × Registry) := do
  let registry ← raising (preferences (some halfDrawn))
  let info ← scan registry twoWidgets
  let edited ← editLayout registry twoWidgets .put (ascii "a") []
  pure (registry, info, edited)

/-- The instance of a plugin. -/
def instanceAt (registry : Registry) (id name : Text) : Option PyValue :=
  (((registry.plugins.lookup id).bind asDict).bind (dictAt · "instances")).bind (·.lookup name)

theorem halfDrawn_proper : Proper (.obj halfDrawn) := by
  have hmember : ∀ fields, (Dict.keys fields).Nodup → (∀ field ∈ fields, Proper field.2) →
      Proper (.obj fields) := fun fields => .obj fields
  refine hmember _ (by decide) ?_
  simp only [halfDrawn, List.forall_mem_cons, List.not_mem_nil, IsEmpty.forall_iff, implies_true,
    and_true]
  refine ⟨.num _, hmember _ (by decide) ?_⟩
  simp only [List.forall_mem_cons, List.not_mem_nil, IsEmpty.forall_iff, implies_true, and_true]
  refine hmember _ (by decide) ?_
  simp only [List.forall_mem_cons, List.not_mem_nil, IsEmpty.forall_iff, implies_true, and_true]
  refine ⟨.bool _, hmember _ (by decide) ?_⟩
  simp only [List.forall_mem_cons, List.not_mem_nil, IsEmpty.forall_iff, implies_true, and_true]
  refine ⟨hmember _ (by decide) ?_, hmember _ (by decide) (by simp)⟩
  simp only [List.forall_mem_cons, List.not_mem_nil, IsEmpty.forall_iff, implies_true, and_true]
  exact .bool _

theorem besideHalf_steps {registry edited : Registry} {info : Scan}
    (h : besideHalf = .ok (registry, info, edited)) :
    preferences (some halfDrawn) = .ok registry ∧ scan registry twoWidgets = .ok info ∧
      editLayout registry twoWidgets .put (ascii "a") [] = .ok edited := by
  simp only [besideHalf, bind_eq_ok, pure_eq_ok, raising_eq_ok, Prod.mk.injEq] at h
  obtain ⟨_, hregistry, _, hinfo, _, hedited, rfl, rfl, rfl⟩ := h
  exact ⟨hregistry, hinfo, hedited⟩

theorem besideHalf_loses : (besideHalf.toOption.any fun states =>
    (instanceAt states.1 (ascii "b") (ascii "x")).isSome &&
      (instanceAt states.2.2 (ascii "b") (ascii "x")).isNone) = true := by
  decide +kernel

/-- Kept entries have kept their instances. -/
theorem OthersKept.instanceAt_isSome {info : Scan} {id other name : Text}
    {before after : Registry} (h : OthersKept info id before after) (hother : other ≠ id)
    (hbefore : (instanceAt before other name).isSome) : (instanceAt after other name).isSome := by
  obtain ⟨value, hvalue⟩ := Option.isSome_iff_exists.mp hbefore
  simp only [instanceAt, Option.bind_eq_some_iff] at hvalue
  obtain ⟨instances, ⟨entry, ⟨found, hfound, hentry⟩, hinstances⟩, hname⟩ := hvalue
  cases found with
  | obj fields =>
      obtain rfl := Option.some.inj hentry
      have hkept := h other (.obj fields) hother hfound
      cases hafter : after.plugins.lookup other with
      | none => 
          rw [hafter] at hkept
          cases hkept
      | some value' =>
          rw [hafter] at hkept
          cases value' with
          | obj fields' =>
              have hall := EntryKept.instances hkept
              unfold InstancesKept at hall
              simp only [hinstances] at hall
              obtain ⟨kept, hkept', -, hvalues⟩ := hall
              obtain ⟨value'', hlookup, -⟩ := hvalues name value hname
              simp only [instanceAt, hafter, Option.bind_some, asDict, hkept', hlookup,
                Option.isSome_some]
          | _ => cases hkept
  | _ => cases hentry

/-- Putting `a` into the bar drops the disabled instance of `b`. -/
theorem put_drops_instance : ∃ registry info edited,
    preferences (some halfDrawn) = .ok registry ∧ scan registry twoWidgets = .ok info ∧
      editLayout registry twoWidgets .put (ascii "a") [] = .ok edited ∧
        ¬ OthersKept info (ascii "a") registry edited := by
  have hloses := besideHalf_loses
  cases hstates : besideHalf with
  | error raised =>
      rw [hstates] at hloses
      cases hloses
  | ok states =>
      obtain ⟨registry, info, edited⟩ := states
      obtain ⟨hregistry, hinfo, hedited⟩ := besideHalf_steps hstates
      refine ⟨registry, info, edited, hregistry, hinfo, hedited, fun hkept => ?_⟩
      rw [hstates] at hloses
      simp only [Except.toOption, Option.any_some, Bool.and_eq_true, Option.isNone_iff_eq_none]
        at hloses
      have hsome := hkept.instanceAt_isSome (by decide) hloses.1
      rw [hloses.2] at hsome
      cases hsome

theorem editLayout_keeps_others_iff_beside : ∃ registry info edited,
    editLayout registry twoWidgets .put (ascii "a") [] = .ok edited ∧
      (OthersKept info (ascii "a") registry edited ↔ Idle info .put (ascii "a") [] ∨
        OthersSettled twoWidgets info (ascii "a") registry) := by
  have hloses := besideHalf_loses
  cases hstates : besideHalf with
  | error raised =>
      rw [hstates] at hloses
      cases hloses
  | ok states =>
      obtain ⟨registry, info, edited⟩ := states
      obtain ⟨hregistry, hinfo, hedited⟩ := besideHalf_steps hstates
      refine ⟨registry, info, edited, hedited, ?_⟩
      refine editLayout_keeps_others_iff ?_ hregistry hinfo hedited
      rintro _ ⟨⟩
      exact halfDrawn_proper

end Plugins

end CybexOS
