/-
The plugin registry and what a scan of it and of the packages lists: every
plugin, and every widget that can be drawn.
-/
import CybexOS.Plugins.Package
import Mathlib.Data.List.Sort
import Mathlib.Data.Prod.Lex

namespace CybexOS

namespace Plugins

open Json

/-- A document of version 1 as `preferences` accepts it; `others` are the
fields this program leaves alone. -/
structure Registry where
  plugins : PyDict
  bar : Option PyValue
  others : PyDict

/-- `registry.get("bar", {})` where it is a dictionary. -/
def Registry.barFields (registry : Registry) : Option PyDict :=
  asDict (registry.bar.getD (.obj []))

def preferences (document : Option PyDict) : Except Text Registry :=
  match document with
  | none => .ok ⟨[], none, [(ascii "v", .num (.int 1))]⟩
  | some fields => do
      require (isInt (fields.lookup (ascii "v")) 1)
        "Unsupported plugins.json version; preferences were preserved"
      let plugins ← demand ((fields.lookup (ascii "plugins")).bind asDict)
        "plugins.json must have a plugins object"
      pure ⟨plugins, fields.lookup (ascii "bar"),
        Dict.pop (Dict.pop fields (ascii "plugins")) (ascii "bar")⟩

/-- An exception: one that `main` reports, or any other. -/
inductive Raised where
  | value (message : Text)
  | other

abbrev Result (α : Type) := Except Raised α

/-- A `ValueError` or an `OSError`. -/
def raising {α : Type} (result : Except Text α) : Result α := result.mapError .value

/-! ### Options of a plugin or an instance -/

structure Options where
  enabled : Bool
  width : ℤ
  order : ℤ
  settings : PyDict

def options (value : PyValue) : Except Text Options := do
  let fields ← demand (asDict value) "Plugin preferences must be an object"
  let enabled ← demand (match fields.lookup (ascii "enabled") with
      | none => some false
      | some (.bool enabled) => some enabled
      | some _ => none)
    "enabled must be a boolean"
  let width ← demand (match fields.lookup (ascii "width") with
      | none => some 120
      | some (.num (.int width)) => if 24 ≤ width ∧ width ≤ 320 then some width else none
      | some _ => none)
    "width must be an integer from 24 to 320"
  let order ← demand (match fields.lookup (ascii "order") with
      | none => some 0
      | some (.num (.int order)) => some order
      | some _ => none)
    "order must be an integer"
  let settings ← demand (dictAt fields "settings") "settings must be an object"
  pure ⟨enabled, width, order, settings⟩

/-! ### What a scan lists -/

/-- `package` and `place` are there once the package was read. -/
structure Descriptor where
  id : Text
  enabled : Bool
  order : ℤ
  width : ℤ
  settings : PyDict
  error : Option Text
  package : Option Package
  place : Option PyValue

structure Widget extends Descriptor where
  key : Text
  instanceName : Text

structure Scan where
  bar : PyDict
  widgets : List Widget
  plugins : List Descriptor

def Descriptor.blank (id : Text) : Descriptor := ⟨id, false, 0, 120, [], none, none, none⟩

/-- Record an error; an enabled plugin keeps a chip in the bar that shows it. -/
def Descriptor.failed (descriptor : Descriptor) (message : Text) : Descriptor × List Widget :=
  let descriptor := { descriptor with error := some message }
  (descriptor, if descriptor.enabled then [⟨descriptor, descriptor.id, []⟩] else [])

/-- `manifest.get("barWidget", {}).get("allowMultiple", False)` -/
def Package.allowMultiple (candidate : Package) : Result Bool :=
  match dictAt candidate.manifest "barWidget" with
  | none => .error .other
  | some widget => .ok ((widget.lookup (ascii "allowMultiple")).elim false truthy)

/-- `entry.get("widgetEnabled", True)` where it is a boolean. -/
def widgetEnabled? (entry : PyDict) : Option Bool :=
  match entry.lookup (ascii "widgetEnabled") with
  | none => some true
  | some (.bool enabled) => some enabled
  | some _ => none

/-- The widget of one instance. -/
def instanceWidget (entry : PyDict) (descriptor : Descriptor) (place : Section)
    (widgetEnabled : Bool) (item : Text × PyValue) : Except Text Widget := do
  let fields ← demand (if validId item.1 then asDict item.2 else none) "Invalid widget instance"
  let configured ← options (.obj (Dict.merge entry fields))
  let place ← demand (match fields.lookup (ascii "section") with
      | none => some place
      | some value => section? value)
    "Invalid instance section"
  pure
    { descriptor with
      enabled := descriptor.enabled && widgetEnabled && configured.enabled
      order := configured.order
      width := configured.width
      settings := Dict.merge descriptor.settings configured.settings
      place := some (.str place.name)
      key := descriptor.id ++ ascii "#" ++ item.1
      instanceName := item.1 }

def checkInstances (candidate : Package) (instances : PyDict) : Result Unit :=
  if instances = [] then pure ()
  else do
    let multiple ← candidate.allowMultiple
    raising (require multiple "Plugin does not allow multiple instances")

/-- The widget of a plugin without instances. -/
def Descriptor.plainWidget (descriptor : Descriptor) (widgetEnabled : Bool) : Widget :=
  { descriptor with
    enabled := descriptor.enabled && widgetEnabled
    key := descriptor.id
    instanceName := [] }

/-- The widgets of a plugin whose package was read. -/
def widgetsOf (entry : PyDict) (descriptor : Descriptor) (candidate : Package) :
    Result (List Widget) := do
  let place ← raising (demand (descriptor.place.bind section?)
    "section must be left, center or right")
  let instances ← raising (demand (dictAt entry "instances") "instances must be an object")
  checkInstances candidate instances
  if BAR_WIDGET ∈ candidate.kinds then do
    let widgetEnabled ← raising (demand (widgetEnabled? entry) "widgetEnabled must be a boolean")
    if instances = [] then pure [descriptor.plainWidget widgetEnabled]
    else raising (instances.mapM (instanceWidget entry descriptor place widgetEnabled))
  else pure []

/-- What the options give a descriptor. -/
def Descriptor.known (id : Text) (options : Options) : Descriptor :=
  { Descriptor.blank id with
    enabled := options.enabled
    order := options.order
    width := options.width
    settings := options.settings }

/-- What the package gives it besides. -/
def Descriptor.described (id : Text) (options : Options) (entry : PyDict)
    (candidate : Package) : Descriptor :=
  { Descriptor.known id options with
    settings := Dict.merge candidate.defaults options.settings
    package := some candidate
    place := some ((entry.lookup (ascii "section")).getD (.str candidate.place.name)) }

/-- One plugin of a scan. -/
def scanPlugin (plugins : PyDict) (packages : Packages) (id : Text) :
    Result (Descriptor × List Widget) :=
  let saved := (plugins.lookup id).getD (.obj [])
  match options saved with
  | .error message => .ok ((Descriptor.blank id).failed message)
  | .ok options =>
      match package packages id with
      | .error message => .ok ((Descriptor.known id options).failed message)
      | .ok candidate =>
          let entry := (asDict saved).getD []
          let descriptor := Descriptor.described id options entry candidate
          match widgetsOf entry descriptor candidate with
          | .error (.value message) => .ok (descriptor.failed message)
          | .error .other => .error .other
          | .ok widgets => .ok (descriptor, widgets)

/-- The plugins of the registry and of the directories. -/
def foundIds (plugins : PyDict) (packages : Packages) : List Text :=
  ((Dict.keys plugins ++ (Dict.keys packages).filter (·.head? ≠ some 46)).dedup).insertionSort
    (· ≤ ·)

def scanPlugins (plugins : PyDict) (packages : Packages) :
    List Text → Result (List Descriptor × List Widget)
  | [] => .ok ([], [])
  | id :: ids =>
      if (BUILT_IN.lookup id).isSome then do
        let rest ← scanPlugins plugins packages ids
        if id ∈ Dict.keys packages then
          pure ({ Descriptor.blank id with error := BUILT_IN.lookup id } :: rest.1, rest.2)
        else pure rest
      else do
        let one ← scanPlugin plugins packages id
        let rest ← scanPlugins plugins packages ids
        pure (one.1 :: rest.1, one.2 ++ rest.2)

/-- The position a bar may have. -/
def barPosition (bar : PyDict) : Bool :=
  (bar.lookup (ascii "position")).all fun position =>
    [ascii "top", ascii "bottom", ascii "left", ascii "right"].any (isStr (some position))

/-- The keys by which lists are sorted. -/
def sortKey (descriptor : Descriptor) (name : Text) : ℤ ×ₗ Text := toLex (descriptor.order, name)

def scan (registry : Registry) (packages : Packages) : Result Scan := do
  let bar ← raising (demand (do
      let bar ← registry.barFields
      if barPosition bar then some bar else none)
    "Invalid replacement bar configuration")
  let listed ← scanPlugins registry.plugins packages (foundIds registry.plugins packages)
  pure
    { bar := bar
      widgets := listed.2.insertionSort fun a b =>
        sortKey a.toDescriptor a.key ≤ sortKey b.toDescriptor b.key
      plugins := listed.1.insertionSort fun a b => sortKey a a.id ≤ sortKey b b.id }

end Plugins

end CybexOS
