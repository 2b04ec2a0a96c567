/-
The commands that enable and disable plugins: enable, disable, clone, remove,
bar, configure-widget and layout-edit.
-/
import CybexOS.Plugins.Layout

namespace CybexOS

namespace Plugins

open Json

/-- The registry and the packages a command works on. -/
structure World where
  registry : Registry
  packages : Packages

def Registry.setEntry (registry : Registry) (id : Text) (entry : PyDict) : Registry :=
  { registry with plugins := Dict.set registry.plugins id (.obj entry) }

/-- Name a successor where the bar shows this plugin. -/
def Registry.passBar (registry : Registry) (bar : PyDict) (id : Text) (successor : PyValue) :
    Registry :=
  if isStr (bar.lookup (ascii "id")) id then
    { registry with bar := some (.obj (Dict.set bar (ascii "id") successor)) }
  else registry

@[simp]
theorem Registry.passBar_plugins (registry : Registry) (bar : PyDict) (id : Text)
    (successor : PyValue) : (registry.passBar bar id successor).plugins = registry.plugins := by
  unfold passBar
  split_ifs <;> rfl

def ENABLED : Text := ascii "enabled"

/-- Any exception that nobody catches. -/
def insist {α : Type} (value : Option α) : Result α :=
  match value with
  | some found => .ok found
  | none => .error .other

def check (condition : Bool) (message : String) : Result Unit := raising (require condition message)

def expect {α : Type} (value : Option α) (message : String) : Result α :=
  raising (demand value message)

/-! ### enable and disable -/

/-- What `enable` may set besides. -/
structure Placement where
  width : Option ℤ
  order : Option ℤ
  place : Option Section

def Placement.apply (placement : Placement) (entry : PyDict) : PyDict :=
  let entry := match placement.width with
    | none => entry
    | some width => Dict.set entry (ascii "width") (.num (.int width))
  let entry := match placement.order with
    | none => entry
    | some order => Dict.set entry (ascii "order") (.num (.int order))
  match placement.place with
  | none => entry
  | some place => Dict.set entry (ascii "section") (.str place.name)

/-- The plugin a package was cloned from, or itself. -/
def Package.origin (candidate : Package) : Text := candidate.clonedFrom.getD candidate.id

/-- Whether `enable` of a plugin of this origin disables another one. -/
def isSibling (packages : Packages) (id origin other : Text) : Bool :=
  other ≠ id && match package packages other with
    | .ok candidate => other = origin || candidate.clonedFrom = some origin
    | .error _ => false

def disableSiblings (packages : Packages) (id origin : Text) (item : Text × PyValue) :
    Text × PyValue :=
  match item.2 with
  | .obj entry =>
      if isSibling packages id origin item.1 then
        (item.1, .obj (Dict.set entry ENABLED (.bool false)))
      else item
  | _ => item

def commandEnable (w : World) (id : Text) (placement : Placement) : Result World := do
  check (validId id) "Invalid plugin id"
  let entry ← expect (entryAt w.registry.plugins id) "Plugin preferences must be an object"
  let candidate ← raising (package w.packages id)
  let plugins := w.registry.plugins.map (disableSiblings w.packages id candidate.origin)
  let entry := placement.apply
    (Dict.set (Dict.set entry ENABLED (.bool true)) (ascii "widgetEnabled") (.bool true))
  let _ ← raising (options (.obj entry))
  pure { w with registry := { w.registry with plugins := plugins }.setEntry id entry }

def commandDisable (w : World) (id : Text) : Result World := do
  check (validId id) "Invalid plugin id"
  let entry ← expect (entryAt w.registry.plugins id) "Plugin preferences must be an object"
  pure { w with registry := w.registry.setEntry id (Dict.set entry ENABLED (.bool false)) }

/-! ### bar -/

def NATIVE : Text := ascii "native"

/-- Enable the plugin whose bar is selected. -/
def enableBar (w : World) (id : Text) : Result Registry :=
  if id = NATIVE then pure w.registry
  else do
    let candidate ← raising (package w.packages id)
    check (ascii "bar" ∈ candidate.kinds) "Selected plugin does not declare a bar"
    let entry ← insist (entryAt w.registry.plugins id)
    pure (w.registry.setEntry id (Dict.set entry ENABLED (.bool true)))

def commandBar (w : World) (id : Text) (position : Option Text) : Result World := do
  check (validId id) "Invalid plugin id"
  let registry ← enableBar w id
  let bar ← expect registry.barFields "bar must be an object"
  let bar := Dict.set bar (ascii "id") (.str (if id = NATIVE then [] else id))
  let bar := match position with
    | none => bar
    | some position => Dict.set bar (ascii "position") (.str position)
  pure { w with registry := { registry with bar := some (.obj bar) } }

/-! ### clone and remove -/

/-- Where a clone is copied from. -/
inductive CloneSource where
  | installed
  | builtin (manifest : Except Text PyDict)

/-- `managed_directory` -/
def managedDirectory (packages : Packages) (id : Text) : Except Text Directory :=
  demand ((packages.lookup id).filter (!·.symlink))
    "Expected a local plugin directory, not a symlink"

/-- The manifest a clone is made from. -/
def sourceManifest (packages : Packages) (id : Text) : CloneSource → Except Text PyDict
  | .installed => do
      let directory ← managedDirectory packages id
      let _ ← package packages id
      directory.manifest
  | .builtin manifest => manifest

/-- Copy a package under a new id; `copied` tells which entry points the copy
holds. -/
def clone (packages : Packages) (id newId : Text) (source : CloneSource)
    (copied : Text → Bool) : Result Packages := do
  let manifest ← raising (sourceManifest packages id source)
  check (newId ∉ Dict.keys packages) "Clone destination already exists"
  let omarchy ← insist (dictAt manifest "omarchy")
  let omarchy := Dict.pop (Dict.set omarchy (ascii "clonedFrom") (.str id)) (ascii "clonePaths")
  let manifest := Dict.set (Dict.set manifest (ascii "id") (.str newId)) (ascii "omarchy")
    (.obj omarchy)
  let directory : Directory := ⟨.ok manifest, false, copied⟩
  let _ ← raising (package [(newId, directory)] newId)
  pure (packages ++ [(newId, directory)])

/-- `cloneRestore` of a new clone. -/
def cloneRestore (id : Text) (original : PyDict) (bar : Bool) : PyValue :=
  .obj [(ascii "id", .str id), (ENABLED, (original.lookup ENABLED).getD (.bool false)),
    (ascii "bar", .bool bar)]

def commandClone (w : World) (id newId : Text) (source : CloneSource) (copied : Text → Bool) :
    Result World := do
  check (validId id) "Invalid plugin id"
  check (validId newId) "Invalid clone id"
  let original := (w.registry.plugins.lookup id).getD (.obj [])
  let _ ← raising (options original)
  let original ← insist (entryAt w.registry.plugins id)
  let packages ← clone w.packages id newId source copied
  let bar ← insist w.registry.barFields
  let cloned := Dict.set (Dict.set original ENABLED (.bool true)) (ascii "cloneRestore")
    (cloneRestore id original (isStr (bar.lookup (ascii "id")) id))
  let registry := w.registry.setEntry newId cloned
  let registry := match registry.plugins.lookup id with
    | some (.obj entry) => registry.setEntry id (Dict.set entry ENABLED (.bool false))
    | _ => registry
  pure ⟨registry.passBar bar id (.str newId), packages⟩

/-- The plugin that removing a clone restores, and whether it enables it. -/
def restored (plugins restore : PyDict) : Result (Option (Text × PyDict × Bool)) := do
  match restore.lookup (ascii "id") with
  | some (.str id) =>
      match plugins.lookup id with
      | none => pure none
      | some original => do
          let restoring ← expect (match original, restore.lookup ENABLED with
              | .obj entry, some (.bool enabled) => some (id, entry, enabled)
              | _, _ => none)
            "Invalid original plugin preferences"
          pure (some restoring)
  | some (.arr _) => throw .other
  | some (.obj _) => throw .other
  | _ => pure none

/-- `removed.pop("cloneRestore", {})` where it is a dictionary. -/
def restoreOf (entry : PyDict) : Option PyDict := dictAt entry "cloneRestore"

/-- `deletes` tells whether the directory can be deleted once the registry is
written. -/
def commandRemove (w : World) (id : Text) (deletes : Bool) : Result World := do
  check (validId id) "Invalid plugin id"
  let _ ← raising (managedDirectory w.packages id)
  let removed ← expect (entryAt w.registry.plugins id) "Plugin preferences must be an object"
  let restore ← expect (restoreOf removed) "Invalid clone restoration metadata"
  let registry := w.registry.setEntry id (Dict.pop removed (ascii "cloneRestore"))
  let registry := match ← restored registry.plugins restore with
    | none => registry
    | some (original, entry, enabled) =>
        registry.setEntry original (Dict.set entry ENABLED (.bool enabled))
  let removed ← insist (entryAt registry.plugins id)
  let registry := registry.setEntry id (Dict.set removed ENABLED (.bool false))
  let bar ← insist registry.barFields
  let successor := if truthy (getNone restore "bar") then
    (restore.lookup (ascii "id")).getD (.str []) else .str []
  pure ⟨registry.passBar bar id successor, if deletes then Dict.pop w.packages id else w.packages⟩

/-! ### configure-widget -/

structure Changes where
  enabled : Option Bool
  width : Option ℤ
  place : Option Section

/-- The changes a JSON object asks for. -/
def changesOf (fields : PyDict) : Except Text Changes := do
  require (!fields.isEmpty &&
      (Dict.keys fields).all (· ∈ [ENABLED, ascii "width", ascii "section"]))
    "Widget changes must contain enabled, width or section"
  let place ← demand (match fields.lookup (ascii "section") with
      | none => some none
      | some value =>
          match section? value, fields.lookup ENABLED with
          | some place, some (.bool true) => some (some place)
          | _, _ => none)
    "A section can only be chosen when adding a widget"
  let enabled ← demand (match fields.lookup ENABLED with
      | none => some none
      | some (.bool enabled) => some (some enabled)
      | some _ => none)
    "enabled must be a boolean"
  let width ← demand (match fields.lookup (ascii "width") with
      | none => some none
      | some (.num (.int width)) => if 24 ≤ width ∧ width ≤ 320 then some (some width) else none
      | some _ => none)
    "width must be an integer from 24 to 320"
  pure ⟨enabled, width, place⟩

/-- Change the entry of a plugin or, under a name, the instance in it. -/
def changeTarget (plugins : PyDict) (id name : Text) (change : PyDict → PyDict) :
    Option PyDict := do
  let entry ← entryAt plugins id
  if name = [] then some (Dict.set plugins id (.obj (change entry)))
  else do
    let instances ← (entry.lookup (ascii "instances")).bind asDict
    let fields ← (instances.lookup name).bind asDict
    some (Dict.set plugins id (.obj (Dict.set entry (ascii "instances")
      (.obj (Dict.set instances name (.obj (change fields)))))))

/-- `item.get("section", "right")` -/
def Descriptor.isAt (descriptor : Descriptor) (place : Section) : Bool :=
  isStr (descriptor.place.orElse fun _ => some (.str Section.right.name)) place.name

/-- Number the widgets that keep their place before an added one. -/
def orderPeers (plugins : PyDict) (peers : List Widget) : Option PyDict :=
  peers.zipIdx.foldlM (fun plugins peer =>
    changeTarget plugins peer.1.id peer.1.instanceName
      (Dict.set · (ascii "order") (.num (.int peer.2)))) plugins

/-- `enabled` of a widget: its own for an instance, else `widgetEnabled`. -/
def flagWidget (plugins : PyDict) (widget : Widget) (enabled : Bool) : Option PyDict :=
  if widget.instanceName = [] then
    changeTarget plugins widget.id [] (Dict.set · (ascii "widgetEnabled") (.bool enabled))
  else changeTarget plugins widget.id widget.instanceName (Dict.set · ENABLED (.bool enabled))

/-- A widget that is switched on takes its plugin with it. -/
def enableWidget (plugins : PyDict) (widget : Widget) (enabled : Bool) : Option PyDict := do
  let plugins ← flagWidget plugins widget enabled
  if enabled then
    changeTarget plugins widget.id [] fun entry =>
      Dict.set (Dict.set entry ENABLED (.bool true)) (ascii "widgetEnabled") (.bool true)
  else some plugins

def sizeWidget (plugins : PyDict) (widget : Widget) (width : ℤ) : Option PyDict :=
  changeTarget plugins widget.id widget.instanceName
    (Dict.set · (ascii "width") (.num (.int width)))

/-- Place a widget behind the drawn ones of a section. -/
def placeWidget (plugins : PyDict) (widgets : List Widget) (widget : Widget) (place : Section) :
    Option PyDict := do
  let peers := widgets.filter fun item =>
    item.enabled && item.key ≠ widget.key && item.isAt place
  let plugins ← orderPeers plugins peers
  changeTarget plugins widget.id widget.instanceName fun target =>
    Dict.set (Dict.set target (ascii "section") (.str place.name)) (ascii "order")
      (.num (.int peers.length))

def configured (plugins : PyDict) (widgets : List Widget) (widget : Widget) (changes : Changes) :
    Option PyDict := do
  let plugins ← changes.width.elim (some plugins) (sizeWidget plugins widget)
  let plugins ← changes.place.elim (some plugins) (placeWidget plugins widgets widget)
  changes.enabled.elim (some plugins) (enableWidget plugins widget)

/-- The listed widget of a key. -/
def widgetAt (widgets : List Widget) (key : Text) : Option Widget :=
  widgets.find? (·.key = key)

def commandConfigureWidget (w : World) (key : Text) (value : PyDict) : Result World := do
  let changes ← raising (changesOf value)
  let snapshot ← scan w.registry w.packages
  let widget ← expect (widgetAt snapshot.widgets key) "Widget is no longer installed"
  match changes.enabled, widget.error with
  | some true, some message => throw (.value message)
  | _, _ => do
      -- a registry with an entry of another shape raises a `TypeError`
      let plugins ← insist (configured w.registry.plugins snapshot.widgets widget changes)
      pure { w with registry := { w.registry with plugins := plugins } }

/-! ### layout-edit, and runs of commands -/

def commandLayoutEdit (w : World) (action : Action) (id : Text) (payload : PyDict) :
    Result World := do
  check (validId id) "Invalid layout mutation"
  let registry ← editLayout w.registry w.packages action id payload
  pure { w with registry := registry }

inductive Command where
  | enable (id : Text) (placement : Placement)
  | disable (id : Text)
  | clone (id newId : Text) (source : CloneSource) (copied : Text → Bool)
  | remove (id : Text) (deletes : Bool)
  | bar (id : Text) (position : Option Text)
  | configureWidget (key : Text) (value : PyDict)
  | layoutEdit (action : Action) (id : Text) (payload : PyDict)

def Command.exec (w : World) : Command → Result World
  | .enable id placement => commandEnable w id placement
  | .disable id => commandDisable w id
  | .clone id newId source copied => commandClone w id newId source copied
  | .remove id deletes => commandRemove w id deletes
  | .bar id position => commandBar w id position
  | .configureWidget key value => commandConfigureWidget w key value
  | .layoutEdit action id payload => commandLayoutEdit w action id payload

/-- The world after a command, whether or not it succeeds.  A clone can fail
with its files in place. -/
def Command.after (w : World) (command : Command) : World :=
  match command.exec w, command with
  | .ok after, _ => after
  | .error .other, .clone id newId source copied =>
      match Plugins.clone w.packages id newId source copied with
      | .ok packages => { w with packages := packages }
      | .error _ => w
  | .error _, _ => w

end Plugins

end CybexOS
