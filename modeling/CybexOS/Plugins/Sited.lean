/-
What a scan lists once a widget was given a section and a number: the widget
there, and every other widget as it was.
-/
import CybexOS.Plugins.MoveWidget
import CybexOS.Plugins.OthersKept

namespace CybexOS

namespace Plugins

open Json

/-- The widget at a place of a section; one without a section gets none. -/
def Widget.sited (widget : Widget) (place : Section) (order : ℕ) : Widget :=
  { widget with
    order := order
    place := widget.place.map fun _ => .str place.name }

/-- The widget, sited if it is the numbered one. -/
def resite (place : Section) (item : Widget × ℕ) (widget : Widget) : Widget :=
  if item.1.isSame widget then widget.sited place item.2 else widget

@[simp]
theorem section?_name (place : Section) : section? (.str place.name) = some place := by
  cases place <;> decide

/-! ### Options -/

def enabled? (fields : PyDict) : Option Bool :=
  match fields.lookup (ascii "enabled") with
  | none => some false
  | some (.bool enabled) => some enabled
  | some _ => none

def width? (fields : PyDict) : Option ℤ :=
  match fields.lookup (ascii "width") with
  | none => some 120
  | some (.num (.int width)) => if 24 ≤ width ∧ width ≤ 320 then some width else none
  | some _ => none

def order? (fields : PyDict) : Option ℤ :=
  match fields.lookup (ascii "order") with
  | none => some 0
  | some (.num (.int order)) => some order
  | some _ => none

theorem options_eq (fields : PyDict) :
    options (.obj fields) = do
      let enabled ← demand (enabled? fields) "enabled must be a boolean"
      let width ← demand (width? fields) "width must be an integer from 24 to 320"
      let order ← demand (order? fields) "order must be an integer"
      let settings ← demand (dictAt fields "settings") "settings must be an object"
      return ⟨enabled, width, order, settings⟩ := by
  rfl

/-- The same fields but for the order. -/
def SameOptions (fields others : PyDict) : Prop :=
  ∀ key ∈ [ascii "enabled", ascii "width", ascii "settings"],
    others.lookup key = fields.lookup key

section

variable {fields others : PyDict}

theorem SameOptions.enabled (h : SameOptions fields others) : enabled? others = enabled? fields := by
  unfold enabled?
  rw [h _ (by simp)]

theorem SameOptions.width (h : SameOptions fields others) : width? others = width? fields := by
  unfold width?
  rw [h _ (by simp)]

theorem SameOptions.settings (h : SameOptions fields others) :
    dictAt others "settings" = dictAt fields "settings" := by
  unfold dictAt
  rw [h _ (by simp)]

theorem SameOptions.options_eq (h : SameOptions fields others)
    (horder : others.lookup (ascii "order") = fields.lookup (ascii "order")) :
    options (.obj others) = options (.obj fields) := by
  have hsame : order? others = order? fields := by
    unfold order?
    rw [horder]
  rw [Plugins.options_eq, Plugins.options_eq, h.enabled, h.width, h.settings, hsame]

/-- Options of another order. -/
theorem SameOptions.options_map (h : SameOptions fields others) {before after : ℤ}
    (hbefore : order? fields = some before) (hafter : order? others = some after) :
    options (.obj others) =
      (options (.obj fields)).map fun found => { found with order := after } := by
  rw [Plugins.options_eq, Plugins.options_eq, h.enabled, h.width, h.settings, hbefore, hafter]
  cases enabled? fields <;> cases width? fields <;> cases dictAt fields "settings" <;> rfl

theorem order?_of_options {found : Options} (h : options (.obj fields) = .ok found) :
    order? fields = some found.order := by
  simp only [Plugins.options_eq, bind_eq_ok, pure_eq_ok, demand_eq_ok] at h
  obtain ⟨_, -, _, -, order, horder, _, -, rfl⟩ := h
  exact horder

end

/-! ### The entry with another section and order -/

section

variable {entry fields : PyDict} {place : Section} {order : ℕ}

theorem lookup_siteTarget (key : Text) : (siteTarget place order entry).lookup key =
    if key = ascii "order" then some (.num (.int order))
    else if key = ascii "section" then some (.str place.name) else entry.lookup key := by
  rw [siteTarget, Dict.lookup_set, Dict.lookup_set]

theorem lookup_siteTarget_of_ne {key : Text} (horder : key ≠ ascii "order")
    (hsection : key ≠ ascii "section") :
    (siteTarget place order entry).lookup key = entry.lookup key := by
  rw [lookup_siteTarget, if_neg horder, if_neg hsection]

theorem sameOptions_siteTarget : SameOptions entry (siteTarget place order entry) := by
  intro key hkey
  refine lookup_siteTarget_of_ne ?_ ?_ <;> rintro rfl <;> revert hkey <;> decide

theorem order?_siteTarget : order? (siteTarget place order entry) = some (order : ℤ) := by
  unfold order?
  rw [lookup_siteTarget, if_pos rfl]

theorem options_siteTarget {found : Options} (h : options (.obj entry) = .ok found) :
    options (.obj (siteTarget place order entry)) = .ok { found with order := order } := by
  rw [sameOptions_siteTarget.options_map (order?_of_options h) order?_siteTarget, h]
  rfl

/-- What an instance inherits makes no difference to its faults. -/
theorem options_merge_siteTarget {found : Options} {message : Text}
    (h : options (.obj entry) = .ok found) (hkeys : (Dict.keys fields).Nodup) :
    options (.obj (Dict.merge (siteTarget place order entry) fields)) = .error message ↔
      options (.obj (Dict.merge entry fields)) = .error message := by
  have hsame : SameOptions (Dict.merge entry fields)
      (Dict.merge (siteTarget place order entry) fields) := by
    intro key hkey
    rw [Dict.lookup_merge hkeys, Dict.lookup_merge hkeys, sameOptions_siteTarget key hkey]
  cases hown : fields.lookup (ascii "order") with
  | some value =>
      rw [hsame.options_eq (by
        rw [Dict.lookup_merge hkeys, Dict.lookup_merge hkeys, hown, Option.some_or,
          Option.some_or])]
  | none =>
      have hinherited : ∀ d : PyDict, order? (Dict.merge d fields) = order? d := by
        intro d
        unfold order?
        rw [Dict.lookup_merge hkeys, hown, Option.none_or]
      have hbefore := (hinherited entry).trans (order?_of_options h)
      have hafter := (hinherited (siteTarget place order entry)).trans order?_siteTarget
      rw [hsame.options_map hbefore hafter]
      cases options (.obj (Dict.merge entry fields)) <;> simp [Except.map]

end

/-! ### The widgets of one plugin -/

theorem proper_instance {item : Text × PyValue} {fields : PyDict} (hitem : Proper item.2)
    (h : (if validId item.1 then asDict item.2 else none) = some fields) :
    Proper (.obj fields) := by
  split_ifs at h
  cases hvalue : item.2 with
  | obj held =>
      rw [hvalue] at h hitem
      rw [← Option.some.inj h]
      exact hitem
  | _ =>
      rw [hvalue] at h
      cases h

section

variable {entry : PyDict} {descriptor : Descriptor} {candidate : Package} {place from' : Section}
  {flag : Bool} {order : ℕ}

/-- An instance is at fault with or without the section and order of its plugin. -/
theorem instanceWidget_siteTarget {found : Options} {other : Descriptor}
    {item : Text × PyValue} (h : options (.obj entry) = .ok found) (hitem : Proper item.2)
    (message : Text) :
    instanceWidget (siteTarget place order entry) other place flag item = .error message ↔
      instanceWidget entry descriptor from' flag item = .error message := by
  unfold instanceWidget
  cases hfields : (if validId item.1 = true then asDict item.2 else none) with
  | none => exact Iff.rfl
  | some fields =>
      have hproper := proper_instance hitem hfields
      have hoptions : ∀ message,
          options (.obj (Dict.merge (siteTarget place order entry) fields)) = .error message ↔
            options (.obj (Dict.merge entry fields)) = .error message := fun _ =>
        options_merge_siteTarget h (proper_keys hproper)
      show (options (.obj (Dict.merge (siteTarget place order entry) fields)) >>= _) = _ ↔
        (options (.obj (Dict.merge entry fields)) >>= _) = _
      cases hbefore : options (.obj (Dict.merge entry fields)) with
      | error raised =>
          rw [(hoptions raised).mpr hbefore]
          exact Iff.rfl
      | ok configured =>
          cases hafter : options (.obj (Dict.merge (siteTarget place order entry) fields)) with
          | error raised =>
              rw [(hoptions raised).mp hafter] at hbefore
              cases hbefore
          | ok other =>
              -- only a section of its own can be wrong, and that is the same one
              cases hown : fields.lookup (ascii "section") with
              | none => simp [bind, Except.bind, demand, pure, Except.pure]
              | some value =>
                  cases hvalue : section? value with
                  | none => simp [bind, Except.bind, demand, hvalue]
                  | some own =>
                      simp [bind, Except.bind, demand, pure, Except.pure, hvalue]

theorem dictAt_siteTarget : dictAt (siteTarget place order entry) "instances" =
    dictAt entry "instances" := by
  unfold dictAt
  rw [lookup_siteTarget_of_ne (by decide) (by decide)]

theorem widgetEnabled?_siteTarget :
    widgetEnabled? (siteTarget place order entry) = widgetEnabled? entry := by
  unfold widgetEnabled?
  rw [lookup_siteTarget_of_ne (by decide) (by decide)]

/-- The same fault of the plugin. -/
theorem widgetsOf_siteTarget_error {found : Options} {other : Descriptor} {raised : Raised}
    (h : options (.obj entry) = .ok found) (hproper : Proper (.obj entry))
    (hplace : descriptor.place.bind section? = some from')
    (hother : other.place.bind section? = some place)
    (herror : widgetsOf entry descriptor candidate = .error raised) :
    widgetsOf (siteTarget place order entry) other candidate = .error raised := by
  unfold widgetsOf at herror ⊢
  rw [hplace] at herror
  rw [hother, dictAt_siteTarget, widgetEnabled?_siteTarget]
  cases hinstances : dictAt entry "instances" with
  | none =>
      rw [hinstances] at herror
      exact herror
  | some instances =>
      rw [hinstances] at herror
      have hitems : ∀ item ∈ instances, Proper item.2 := by
        cases proper_dictAt hproper hinstances with
        | obj _ _ hall => exact hall
      change (checkInstances candidate instances >>= _) = _ at herror
      show (checkInstances candidate instances >>= _) = _
      rw [bind_eq_error] at herror ⊢
      refine herror.imp_right fun ⟨done, hdone, herror⟩ => ⟨done, hdone, ?_⟩
      by_cases hkind : BAR_WIDGET ∈ candidate.kinds
      · rw [if_pos hkind] at herror ⊢
        cases hflag : widgetEnabled? entry with
        | none =>
            rw [hflag] at herror
            exact herror
        | some flag =>
            rw [hflag] at herror
            by_cases hnone : instances = []
            · subst hnone
              cases herror
            · change (if instances = [] then _ else raising _) = _ at herror
              show (if instances = [] then _ else raising _) = _
              rw [if_neg hnone, raising] at herror ⊢
              cases hmap : instances.mapM (instanceWidget entry descriptor from' flag) with
              | ok widgets =>
                  rw [hmap] at herror
                  cases herror
              | error message =>
                  rw [hmap] at herror
                  rw [(mapM_eq_error_congr (fun item hitem message =>
                    instanceWidget_siteTarget h (hitems item hitem) message) message).mpr hmap]
                  exact herror
      · rw [if_neg hkind] at herror
        cases herror

/-- The widget of a plugin without instances. -/
theorem widgetsOf_siteTarget_plain {other : Descriptor} {widgets : List Widget}
    (hinstances : dictAt entry "instances" = some [])
    (hother : other.place.bind section? = some place)
    (h : widgetsOf entry descriptor candidate = .ok widgets) (hne : widgets ≠ []) :
    ∃ flag, widgets = [descriptor.plainWidget flag] ∧
      widgetsOf (siteTarget place order entry) other candidate = .ok [other.plainWidget flag] := by
  simp only [widgetsOf, bind_eq_ok, raising_eq_ok, demand_eq_ok] at h ⊢
  obtain ⟨from', -, instances, hsome, done, hdone, h⟩ := h
  obtain rfl := Option.some.inj (hinstances.symm.trans hsome)
  by_cases hkind : BAR_WIDGET ∈ candidate.kinds
  · rw [if_pos hkind] at h
    simp only [bind_eq_ok, raising_eq_ok, demand_eq_ok, if_true, pure_eq_ok] at h
    obtain ⟨flag, hflag, rfl⟩ := h
    refine ⟨flag, rfl, place, hother, [], dictAt_siteTarget.trans hinstances, done, hdone, ?_⟩
    rw [if_pos hkind, widgetEnabled?_siteTarget, hflag]
    rfl
  · rw [if_neg hkind, pure_eq_ok] at h
    exact absurd h.symm hne

end

/-! ### An instance with another section and order -/

/-- A loop over a dictionary with one value changed. -/
theorem mapM_set {items : PyDict} {name : Text} {value new : PyValue}
    {step after : Text × PyValue → Except Text Widget} {change : Widget → Widget}
    {widgets : List Widget} (hkeys : (Dict.keys items).Nodup)
    (hlookup : items.lookup name = some value)
    (hown : ∀ widget, step (name, value) = .ok widget → after (name, new) = .ok (change widget))
    (hothers : ∀ item ∈ items, item.1 ≠ name → ∀ widget, step item = .ok widget →
      after item = .ok (change widget))
    (h : items.mapM step = .ok widgets) :
    (Dict.set items name new).mapM after = .ok (widgets.map change) := by
  induction items generalizing widgets with
  | nil => cases hlookup
  | cons item items ih =>
      rw [Dict.keys, List.map_cons, List.nodup_cons] at hkeys
      rw [Dict.lookup_item] at hlookup
      rw [List.mapM_cons, bind_eq_ok] at h
      obtain ⟨first, hfirst, h⟩ := h
      rw [bind_eq_ok] at h
      obtain ⟨rest, hrest, h⟩ := h
      rw [pure_eq_ok] at h
      subst h
      rw [Dict.set]
      by_cases hname : name = item.1
      · rw [if_pos hname, Option.some.injEq] at hlookup
        rw [if_pos hname.symm, List.mapM_cons, List.map_cons]
        have hitem : item = (name, value) := Prod.ext hname.symm hlookup
        rw [hitem] at hfirst
        have htail : items.mapM after = .ok (rest.map change) := by
          refine mapM_map_of_ok (fun other hother => ?_) hrest
          refine hothers other (List.mem_cons_of_mem _ hother) ?_
          rintro rfl
          exact hkeys.1 (hname ▸ List.mem_map_of_mem hother)
        rw [hown first hfirst, htail]
        rfl
      · rw [if_neg hname] at hlookup
        rw [if_neg (Ne.symm hname), List.mapM_cons, List.map_cons,
          hothers item List.mem_cons_self (Ne.symm hname) first hfirst,
          ih hkeys.2 hlookup (fun other hother => hothers other (List.mem_cons_of_mem _ hother))
            hrest]
        rfl

section

variable {entry instances fields : PyDict} {place : Section} {order : ℕ}

/-- The entry with another instance in the place of one. -/
def withInstances (entry instances : PyDict) : PyDict :=
  Dict.set entry (ascii "instances") (.obj instances)

theorem lookup_withInstances {key : Text} (hkey : key ≠ ascii "instances") :
    (withInstances entry instances).lookup key = entry.lookup key := by
  rw [withInstances, Dict.lookup_set, if_neg hkey]

theorem options_merge_withInstances (hkeys : (Dict.keys fields).Nodup) :
    options (.obj (Dict.merge (withInstances entry instances) fields)) =
      options (.obj (Dict.merge entry fields)) := by
  have hsame : ∀ key, key ≠ ascii "instances" →
      (Dict.merge (withInstances entry instances) fields).lookup key =
        (Dict.merge entry fields).lookup key := by
    intro key hkey
    rw [Dict.lookup_merge hkeys, Dict.lookup_merge hkeys, lookup_withInstances hkey]
  refine SameOptions.options_eq (fun key hmem => hsame key ?_) (hsame _ (by decide))
  rintro rfl
  revert hmem
  decide

theorem options_withInstances :
    options (.obj (withInstances entry instances)) = options (.obj entry) := by
  refine SameOptions.options_eq (fun key hmem => lookup_withInstances ?_)
    (lookup_withInstances (by decide))
  rintro rfl
  revert hmem
  decide

theorem nodup_siteTarget (h : (Dict.keys fields).Nodup) :
    (Dict.keys (siteTarget place order fields)).Nodup :=
  Dict.nodup_set (Dict.nodup_set h)

/-- The numbered instance. -/
theorem instanceWidget_sited {descriptor : Descriptor} {from' : Section} {flag : Bool}
    {name : Text} {widget : Widget} (hkeys : (Dict.keys fields).Nodup)
    (h : instanceWidget entry descriptor from' flag (name, .obj fields) = .ok widget) :
    instanceWidget (withInstances entry instances) descriptor from' flag
      (name, .obj (siteTarget place order fields)) = .ok (widget.sited place order) := by
  simp only [instanceWidget, bind_eq_ok, pure_eq_ok, demand_eq_ok] at h
  obtain ⟨held, hheld, configured, hconfigured, found, hfound, rfl⟩ := h
  split_ifs at hheld with hvalid
  obtain rfl := Option.some.inj hheld
  have hsame : SameOptions (Dict.merge entry fields)
      (Dict.merge entry (siteTarget place order fields)) := by
    intro key hkey
    rw [Dict.lookup_merge hkeys, Dict.lookup_merge (nodup_siteTarget hkeys),
      sameOptions_siteTarget key hkey]
  have horder : order? (Dict.merge entry (siteTarget place order fields)) = some (order : ℤ) := by
    unfold order?
    rw [Dict.lookup_merge (nodup_siteTarget hkeys), lookup_siteTarget, if_pos rfl, Option.some_or]
  have hoptions : options (.obj (Dict.merge (withInstances entry instances)
      (siteTarget place order fields))) = _ :=
    (options_merge_withInstances (nodup_siteTarget hkeys)).trans
      (hsame.options_map (order?_of_options hconfigured) horder)
  rw [hconfigured] at hoptions
  have hsection : (siteTarget place order fields).lookup (ascii "section") =
      some (.str place.name) := by
    rw [lookup_siteTarget, if_neg (by decide), if_pos rfl]
  simp only [instanceWidget, bind_eq_ok, pure_eq_ok, demand_eq_ok]
  refine ⟨_, ?_, _, hoptions, place, ?_, rfl⟩
  · rw [if_pos hvalid]
    rfl
  · rw [hsection]
    exact section?_name place

/-- Another instance. -/
theorem instanceWidget_withInstances {descriptor : Descriptor} {from' : Section} {flag : Bool}
    {item : Text × PyValue} (hitem : Proper item.2) :
    instanceWidget (withInstances entry instances) descriptor from' flag item =
      instanceWidget entry descriptor from' flag item := by
  unfold instanceWidget
  cases hfields : (if validId item.1 = true then asDict item.2 else none) with
  | none => rfl
  | some held =>
      have hproper := proper_instance hitem hfields
      show (options (.obj (Dict.merge (withInstances entry instances) held)) >>= _) =
        (options (.obj (Dict.merge entry held)) >>= _)
      rw [options_merge_withInstances (proper_keys hproper)]

end

/-! ### One plugin of a scan -/

section

variable {plugins changed entry : PyDict} {packages : Packages} {place : Section}
  {item : Widget × ℕ} {listed : Descriptor × List Widget}

theorem resite_self (widget : Widget) (order : ℕ) :
    resite place (widget, order) widget = widget.sited place order :=
  if_pos widget.isSame_self

theorem failed_eq (descriptor : Descriptor) (message : Text) (henabled : descriptor.enabled = true) :
    (descriptor.failed message).2 =
      [⟨{ descriptor with error := some message }, descriptor.id, []⟩] :=
  if_pos henabled

/-- The only widget of a plugin that failed is its chip. -/
theorem mem_failed {descriptor : Descriptor} {message : Text} {widget : Widget}
    (h : widget ∈ (descriptor.failed message).2) : descriptor.enabled = true ∧
      widget = ⟨{ descriptor with error := some message }, descriptor.id, []⟩ := by
  simp only [Descriptor.failed] at h
  split_ifs at h with henabled
  · exact ⟨henabled, List.mem_singleton.mp h⟩
  · cases h

/-- What a scan of a plugin with a widget has read of it. -/
theorem scanPlugin_of_mem {id : Text} {widget : Widget}
    (hentry : plugins.lookup id = some (.obj entry))
    (hscan : scanPlugin plugins packages id = .ok listed) (hmem : widget ∈ listed.2) :
    ∃ found, options (.obj entry) = .ok found ∧
      ((∃ message, package packages id = .error message ∧
          listed.2 = ((Descriptor.known id found).failed message).2) ∨
        ∃ candidate, package packages id = .ok candidate ∧
          ((∃ message, widgetsOf entry (.described id found entry candidate) candidate =
              .error (.value message) ∧
              listed.2 = ((Descriptor.described id found entry candidate).failed message).2) ∨
            widgetsOf entry (.described id found entry candidate) candidate = .ok listed.2)) := by
  unfold scanPlugin at hscan
  simp only [hentry, Option.getD_some, asDict] at hscan
  split at hscan
  · rw [← Except.ok.inj hscan] at hmem
    have hon : (Descriptor.blank id).enabled = true := (mem_failed hmem).1
    cases hon
  · next found hfound =>
    refine ⟨found, hfound, ?_⟩
    split at hscan
    · next message hpackage =>
      exact Or.inl ⟨message, hpackage, by rw [← Except.ok.inj hscan]⟩
    · next candidate hpackage =>
      refine Or.inr ⟨candidate, hpackage, ?_⟩
      split at hscan
      · next message hwidgets =>
        exact Or.inl ⟨message, hwidgets, by rw [← Except.ok.inj hscan]⟩
      · cases hscan
      · next widgets hwidgets =>
        rw [← Except.ok.inj hscan]
        exact Or.inr hwidgets

theorem scanPlugin_of_unread {id message : Text} {found : Options}
    (hentry : plugins.lookup id = some (.obj entry)) (hfound : options (.obj entry) = .ok found)
    (hpackage : package packages id = .error message) :
    scanPlugin plugins packages id = .ok ((Descriptor.known id found).failed message) := by
  simp only [scanPlugin, hentry, Option.getD_some, hfound, hpackage]

theorem scanPlugin_of_error {id message : Text} {found : Options} {candidate : Package}
    (hentry : plugins.lookup id = some (.obj entry)) (hfound : options (.obj entry) = .ok found)
    (hpackage : package packages id = .ok candidate)
    (hwidgets : widgetsOf entry (.described id found entry candidate) candidate =
      .error (.value message)) :
    scanPlugin plugins packages id =
      .ok ((Descriptor.described id found entry candidate).failed message) := by
  simp only [scanPlugin, hentry, Option.getD_some, asDict, hfound, hpackage, hwidgets]

theorem scanPlugin_of_widgets {id : Text} {found : Options} {candidate : Package}
    {widgets : List Widget} (hentry : plugins.lookup id = some (.obj entry))
    (hfound : options (.obj entry) = .ok found) (hpackage : package packages id = .ok candidate)
    (hwidgets : widgetsOf entry (.described id found entry candidate) candidate = .ok widgets) :
    scanPlugin plugins packages id =
      .ok (Descriptor.described id found entry candidate, widgets) := by
  simp only [scanPlugin, hentry, Option.getD_some, asDict, hfound, hpackage, hwidgets]

theorem instances_of_named {found : Options} {candidate : Package} {widgets : List Widget}
    {widget : Widget}
    (h : widgetsOf entry (.described item.1.id found entry candidate) candidate = .ok widgets)
    (hmem : widget ∈ widgets) (hname : widget.instanceName = []) :
    dictAt entry "instances" = some [] := by
  rcases widgetsOf_eq_ok h with rfl | ⟨_, instances, flag, hinstances, -, hcases⟩
  · cases hmem
  · rcases hcases with ⟨rfl, -⟩ | ⟨-, hmap⟩
    · exact hinstances
    · obtain ⟨held, -, hheld⟩ := mem_of_mapM hmap hmem
      exact absurd hname (instanceName_ne_nil hheld)

/-- A widget that no instance has is numbered in the entry of its plugin. -/
theorem scanPlugin_site_plain (hproper : Proper (.obj entry))
    (hentry : plugins.lookup item.1.id = some (.obj entry))
    (hscan : scanPlugin plugins packages item.1.id = .ok listed) (hmem : item.1 ∈ listed.2)
    (hmovable : item.1.movable place = true) (hname : item.1.instanceName = [])
    (hchanged : changed.lookup item.1.id = some (.obj (siteTarget place item.2 entry))) :
    ∃ after, scanPlugin changed packages item.1.id = .ok after ∧
      after.2 = listed.2.map (resite place item) := by
  obtain ⟨found, hfound, hcases⟩ := scanPlugin_of_mem hentry hscan hmem
  have hsited : options (.obj (siteTarget place item.2 entry)) =
      .ok { found with order := item.2 } := options_siteTarget hfound
  have hother : ∀ candidate : Package,
      (Descriptor.described item.1.id { found with order := (item.2 : ℤ) }
        (siteTarget place item.2 entry) candidate).place.bind section? = some place := by
    intro candidate
    simp only [Descriptor.described, lookup_siteTarget]
    exact section?_name place
  have hresited : ∀ widget, listed.2 = [widget] →
      listed.2.map (resite place item) = [widget.sited place item.2] := by
    intro widget hlisted
    rw [hlisted, List.mem_singleton] at hmem
    rw [hlisted, List.map_singleton, ← hmem]
    exact congrArg (fun widget => [widget]) (resite_self item.1 item.2)
  rcases hcases with ⟨message, hpackage, hlisted⟩ | ⟨candidate, hpackage, hcases⟩
  · -- a package that was not read leaves a chip without a section
    rw [hlisted] at hmem
    obtain ⟨henabled, -⟩ := mem_failed hmem
    refine ⟨_, scanPlugin_of_unread hchanged hsited hpackage, ?_⟩
    rw [hresited _ (hlisted.trans (failed_eq _ _ henabled))]
    exact failed_eq _ _ henabled
  · rcases hcases with ⟨message, hwidgets, hlisted⟩ | hwidgets
    · -- a fault other than that of its section stays
      rw [hlisted] at hmem
      obtain ⟨henabled, hitem⟩ := mem_failed hmem
      have hread : ∃ from',
          (Descriptor.described item.1.id found entry candidate).place.bind section? =
            some from' := by
        rw [Widget.movable, hitem] at hmovable
        exact Option.isSome_iff_exists.mp hmovable
      obtain ⟨from', hfrom⟩ := hread
      have hafter : widgetsOf (siteTarget place item.2 entry)
          (.described item.1.id { found with order := (item.2 : ℤ) }
            (siteTarget place item.2 entry) candidate) candidate = .error (.value message) :=
        widgetsOf_siteTarget_error hfound hproper hfrom (hother candidate) hwidgets
      refine ⟨_, scanPlugin_of_error hchanged hsited hpackage hafter, ?_⟩
      rw [hresited _ (hlisted.trans (failed_eq _ _ henabled))]
      refine (failed_eq _ _ (by exact henabled)).trans ?_
      simp only [Widget.sited, Descriptor.described, lookup_siteTarget]
      rfl
    · have hinstances := instances_of_named hwidgets hmem hname
      obtain ⟨flag, hplain, hafter⟩ : ∃ flag, listed.2 =
            [(Descriptor.described item.1.id found entry candidate).plainWidget flag] ∧
          widgetsOf (siteTarget place item.2 entry) _ candidate =
            .ok [(Descriptor.described item.1.id { found with order := (item.2 : ℤ) }
              (siteTarget place item.2 entry) candidate).plainWidget flag] :=
        widgetsOf_siteTarget_plain hinstances (hother candidate) hwidgets
          (List.ne_nil_of_mem hmem)
      refine ⟨_, scanPlugin_of_widgets hchanged hsited hpackage hafter, ?_⟩
      rw [hresited _ hplain]
      simp only [Widget.sited, Descriptor.plainWidget, Descriptor.described, lookup_siteTarget]
      rfl

theorem described_withInstances {id : Text} {found : Options} {instances : PyDict}
    {candidate : Package} :
    Descriptor.described id found (withInstances entry instances) candidate =
      Descriptor.described id found entry candidate := by
  unfold Descriptor.described
  rw [lookup_withInstances (by decide)]

theorem instanceWidget_identity {descriptor : Descriptor} {from' : Section} {flag : Bool}
    {held : Text × PyValue} {widget : Widget}
    (h : instanceWidget entry descriptor from' flag held = .ok widget) :
    widget.id = descriptor.id ∧ widget.instanceName = held.1 := by
  obtain ⟨fields, configured, found, -, -, -, rfl⟩ := instanceWidget_eq_ok h
  exact ⟨rfl, rfl⟩

theorem widgetsOf_site_named {descriptor : Descriptor} {candidate : Package}
    {widgets : List Widget} {instances fields : PyDict} (hproper : Proper (.obj entry))
    (h : widgetsOf entry descriptor candidate = .ok widgets) (hmem : item.1 ∈ widgets)
    (hinstances : dictAt entry "instances" = some instances)
    (hfields : instances.lookup item.1.instanceName = some (.obj fields)) :
    widgetsOf (withInstances entry
      (Dict.set instances item.1.instanceName (.obj (siteTarget place item.2 fields)))) descriptor
        candidate = .ok (widgets.map (resite place item)) := by
  have hid : item.1.id = descriptor.id := (widgetsOf_widget h hmem).1
  have hheld : Proper (.obj instances) := proper_dictAt hproper hinstances
  have hall : ∀ held ∈ instances, Proper held.2 := by
    cases hheld with
    | obj _ _ hall => exact hall
  simp only [widgetsOf, bind_eq_ok, raising_eq_ok, demand_eq_ok] at h ⊢
  obtain ⟨from', hfrom, found, hfound, done, hdone, h⟩ := h
  obtain rfl := Option.some.inj (hinstances.symm.trans hfound)
  have hsome : instances ≠ [] := by
    rintro rfl
    cases hfields
  by_cases hkind : BAR_WIDGET ∈ candidate.kinds
  · rw [if_pos hkind] at h
    simp only [bind_eq_ok, raising_eq_ok, demand_eq_ok, if_neg hsome] at h
    obtain ⟨flag, hflag, hmap⟩ := h
    have hset : Dict.set instances item.1.instanceName
        (.obj (siteTarget place item.2 fields)) ≠ [] := by
      intro hnil
      have hkey : item.1.instanceName ∈ Dict.keys (Dict.set instances item.1.instanceName
          (.obj (siteTarget place item.2 fields))) := Dict.mem_keys_set.mpr (Or.inl rfl)
      rw [hnil] at hkey
      cases hkey
    have hwritten : (Dict.set instances item.1.instanceName
        (.obj (siteTarget place item.2 fields))).mapM (instanceWidget (withInstances entry
          (Dict.set instances item.1.instanceName (.obj (siteTarget place item.2 fields))))
            descriptor from' flag) = .ok (widgets.map (resite place item)) := by
      refine mapM_set (proper_keys hheld) hfields (fun widget hwidget => ?_)
        (fun held hmember hother widget hwidget => ?_) hmap
      · obtain ⟨hwid, hwname⟩ := instanceWidget_identity hwidget
        have hsame : item.1.isSame widget = true :=
          Widget.isSame_iff.mpr ⟨hwid.trans hid.symm, hwname⟩
        rw [resite, if_pos hsame]
        cases hall _ (Dict.mem_of_lookup hfields) with
        | obj _ hkeys _ => exact instanceWidget_sited hkeys hwidget
      · have hdiffers : ¬ item.1.isSame widget = true := fun hsame =>
          hother ((instanceWidget_identity hwidget).2.symm.trans (Widget.isSame_iff.mp hsame).2)
        rw [resite, if_neg hdiffers, instanceWidget_withInstances (hall held hmember)]
        exact hwidget
    generalize Dict.set instances item.1.instanceName (.obj (siteTarget place item.2 fields)) =
      numbered at hset hwritten
    have hfound : dictAt (withInstances entry numbered) "instances" = some numbered := by
      unfold dictAt withInstances
      rw [Dict.lookup_set, if_pos rfl]
      rfl
    have hchecked : checkInstances candidate numbered = .ok done := by
      rw [checkInstances, if_neg hsome] at hdone
      rw [checkInstances, if_neg hset, hdone]
    have henabled : widgetEnabled? (withInstances entry numbered) = some flag := by
      unfold widgetEnabled? at hflag ⊢
      rw [lookup_withInstances (by decide), hflag]
    refine ⟨from', hfrom, numbered, hfound, done, hchecked, ?_⟩
    rw [if_pos hkind]
    simp only [bind_eq_ok, raising_eq_ok, demand_eq_ok, if_neg hset]
    exact ⟨flag, henabled, hwritten⟩
  · rw [if_neg hkind, pure_eq_ok] at h
    rw [← h] at hmem
    cases hmem

/-- A widget of an instance is numbered in the instance. -/
theorem scanPlugin_site_named {instances fields : PyDict} (hproper : Proper (.obj entry))
    (hentry : plugins.lookup item.1.id = some (.obj entry))
    (hscan : scanPlugin plugins packages item.1.id = .ok listed) (hmem : item.1 ∈ listed.2)
    (hname : item.1.instanceName ≠ []) (hinstances : dictAt entry "instances" = some instances)
    (hfields : instances.lookup item.1.instanceName = some (.obj fields))
    (hchanged : changed.lookup item.1.id = some (.obj (withInstances entry
      (Dict.set instances item.1.instanceName (.obj (siteTarget place item.2 fields)))))) :
    ∃ after, scanPlugin changed packages item.1.id = .ok after ∧
      after.2 = listed.2.map (resite place item) := by
  obtain ⟨found, hfound, hcases⟩ := scanPlugin_of_mem hentry hscan hmem
  rcases hcases with ⟨message, -, hlisted⟩ | ⟨candidate, hpackage, hcases⟩
  · rw [hlisted] at hmem
    exact absurd (congrArg Widget.instanceName (mem_failed hmem).2) hname
  · rcases hcases with ⟨message, -, hlisted⟩ | hwidgets
    · rw [hlisted] at hmem
      exact absurd (congrArg Widget.instanceName (mem_failed hmem).2) hname
    · have hafter : widgetsOf (withInstances entry
          (Dict.set instances item.1.instanceName (.obj (siteTarget place item.2 fields))))
            (.described item.1.id found (withInstances entry (Dict.set instances
              item.1.instanceName (.obj (siteTarget place item.2 fields)))) candidate) candidate =
                .ok (listed.2.map (resite place item)) := by
        rw [described_withInstances]
        exact widgetsOf_site_named hproper hwidgets hmem hinstances hfields
      exact ⟨_, scanPlugin_of_widgets hchanged (options_withInstances.trans hfound) hpackage
        hafter, rfl⟩

theorem asDict_eq_some {value : PyValue} {fields : PyDict} (h : asDict value = some fields) :
    value = .obj fields := by
  cases value with
  | obj held => exact congrArg Value.obj (Option.some.inj h)
  | _ => cases h

/-- What numbering a widget writes. -/
theorem siteWidget_eq_some (h : siteWidget place plugins item = some changed) :
    ∃ entry saved, plugins.lookup item.1.id = some (.obj entry) ∧
      changed = Dict.set plugins item.1.id (.obj saved) ∧
        (item.1.instanceName = [] ∧ saved = siteTarget place item.2 entry ∨
          item.1.instanceName ≠ [] ∧ ∃ instances fields,
            entry.lookup (ascii "instances") = some (.obj instances) ∧
              instances.lookup item.1.instanceName = some (.obj fields) ∧
                saved = withInstances entry (Dict.set instances item.1.instanceName
                  (.obj (siteTarget place item.2 fields)))) := by
  unfold siteWidget at h
  split_ifs at h with hmem
  obtain ⟨value, hvalue⟩ := Option.isSome_iff_exists.mp (Dict.lookup_isSome.mpr hmem)
  simp only [changeTarget, entryAt, hvalue, Option.getD_some, Option.bind_eq_bind,
    Option.bind_eq_some_iff] at h
  obtain ⟨entry, hentry, h⟩ := h
  obtain rfl := asDict_eq_some hentry
  split_ifs at h with hname
  · exact ⟨entry, _, hvalue, (Option.some.inj h).symm, Or.inl ⟨hname, rfl⟩⟩
  · simp only [Option.bind_eq_some_iff, Option.some.injEq] at h
    obtain ⟨instances, ⟨held, hheld, hinstances⟩, fields, ⟨target, htarget, hfields⟩, rfl⟩ := h
    obtain rfl := asDict_eq_some hinstances
    obtain rfl := asDict_eq_some hfields
    exact ⟨entry, _, hvalue, rfl, Or.inr ⟨hname, instances, fields, hheld, htarget, rfl⟩⟩

/-- A listed widget is numbered where the scan of its plugin finds it. -/
theorem scanPlugin_site (hproper : Proper (.obj plugins))
    (hscan : scanPlugin plugins packages item.1.id = .ok listed) (hmem : item.1 ∈ listed.2)
    (hmovable : item.1.movable place = true) (h : siteWidget place plugins item = some changed) :
    ∃ after, scanPlugin changed packages item.1.id = .ok after ∧
      after.2 = listed.2.map (resite place item) := by
  obtain ⟨entry, saved, hentry, rfl, hcases⟩ := siteWidget_eq_some h
  have hheld : Proper (.obj entry) := hproper.field? hentry
  rcases hcases with ⟨hname, rfl⟩ | ⟨hname, instances, fields, hinstances, hfields, rfl⟩
  · exact scanPlugin_site_plain hheld hentry hscan hmem hmovable hname
      (Dict.lookup_set.trans (if_pos rfl))
  · have hsome : dictAt entry "instances" = some instances := by
      unfold dictAt
      rw [hinstances]
      rfl
    exact scanPlugin_site_named hheld hentry hscan hmem hname hsome hfields
      (Dict.lookup_set.trans (if_pos rfl))

/-! ### What numbering keeps of the registry -/

theorem proper_set {d : PyDict} {key : Text} {value : PyValue} (hd : Proper (.obj d))
    (hvalue : Proper value) : Proper (.obj (Dict.set d key value)) := by
  refine .obj _ (Dict.nodup_set (proper_keys hd)) fun field hfield => ?_
  rcases Dict.mem_of_mem_set hfield with rfl | hold
  · exact hvalue
  · cases hd with
    | obj _ _ hall => exact hall field hold

theorem proper_siteTarget {order : ℕ} (h : Proper (.obj entry)) :
    Proper (.obj (siteTarget place order entry)) :=
  proper_set (proper_set h (.str _)) (.num _)

theorem siteWidget_proper (hproper : Proper (.obj plugins))
    (h : siteWidget place plugins item = some changed) : Proper (.obj changed) := by
  obtain ⟨entry, saved, hentry, rfl, hcases⟩ := siteWidget_eq_some h
  have hheld : Proper (.obj entry) := hproper.field? hentry
  refine proper_set hproper ?_
  rcases hcases with ⟨-, rfl⟩ | ⟨-, instances, fields, hinstances, hfields, rfl⟩
  · exact proper_siteTarget hheld
  · have hall : Proper (.obj instances) := hheld.field? hinstances
    have hone : Proper (.obj fields) := hall.field? hfields
    exact proper_set hheld (proper_set hall (proper_siteTarget hone))

theorem siteWidget_keys (h : siteWidget place plugins item = some changed) :
    Dict.keys changed = Dict.keys plugins := by
  obtain ⟨entry, saved, hentry, rfl, -⟩ := siteWidget_eq_some h
  rw [Dict.keys_set, if_pos (mem_keys_of_eq hentry)]

theorem siteWidget_lookup {id : Text} (hid : id ≠ item.1.id)
    (h : siteWidget place plugins item = some changed) :
    changed.lookup id = plugins.lookup id := by
  obtain ⟨entry, saved, -, rfl, -⟩ := siteWidget_eq_some h
  rw [Dict.lookup_set, if_neg hid]

end

end Plugins

end CybexOS
