/-
Layout edits: the drawn widgets as three arrays, one mutation of them, and the
arrays written back over the registry.
-/
import CybexOS.Plugins.Scan

namespace CybexOS

namespace Plugins

open Json

/-- The arrays of a layout, entries being dictionaries with an `id`. -/
structure Layout where
  left : List PyDict
  center : List PyDict
  right : List PyDict

def Layout.at (layout : Layout) : Section → List PyDict
  | .left => layout.left
  | .center => layout.center
  | .right => layout.right

def Layout.setAt (layout : Layout) (place : Section) (entries : List PyDict) : Layout :=
  match place with
  | .left => { layout with left := entries }
  | .center => { layout with center := entries }
  | .right => { layout with right := entries }

/-- The sections in the order of a layout. -/
def SECTIONS : List Section := [.left, .center, .right]

def INSTANCE : Text := ascii "__cybexInstance"

def entryId (item : PyDict) : Option Text :=
  match item.lookup (ascii "id") with
  | some (.str id) => some id
  | _ => none

/-! ### Writing a layout back -/

structure Row where
  place : Section
  order : ℕ
  item : PyDict

def rowsAt (layout : Layout) (place : Section) : Except Text (List (Text × Row)) :=
  (layout.at place).zipIdx.mapM fun entry => do
    let id ← demand (entryId entry.1) "layout entries must contain an id"
    pure (id, ⟨place, entry.2, entry.1⟩)

def rowsOf (layout : Layout) : Except Text (List (Text × Row)) := do
  let rows ← SECTIONS.mapM (rowsAt layout)
  pure rows.flatten

/-- The rows of one plugin. -/
def rowsFor (rows : List (Text × Row)) (id : Text) : List Row :=
  (rows.filter (·.1 = id)).map Prod.snd

/-- An item without what identifies it. -/
def settingsOf (item : PyDict) : PyDict :=
  item.filter fun field => field.1 ∉ [ascii "id", INSTANCE]

/-- The name of a row's instance; several rows without one are numbered. -/
def rowName (several : Bool) (made : ℕ) (item : PyDict) : PyValue :=
  let name := (item.lookup INSTANCE).getD (.str [])
  if !truthy name && several then .str (ascii "instance" ++ digitsOf (made + 1)) else name

/-- What a row gives the entry or the instance it is about. -/
def placed (row : Row) : PyDict :=
  [(ascii "section", .str row.place.name), (ascii "order", .num (.int row.order)),
    (ascii "settings", .obj (settingsOf row.item))]

/-- One row over the saved entry and the instances made so far. -/
def applyRow (multiple several : Bool) (previous : PyDict) (state : PyDict × PyDict)
    (row : Row) : Except Text (PyDict × PyDict) := do
  let name := rowName several state.2.length row.item
  if truthy name then do
    let name ← demand (match name with
        | .str name =>
            if multiple && validId name && name ∉ Dict.keys state.2 then some name else none
        | _ => none)
      "Invalid or duplicate widget instance name"
    let before ← demand (asDict ((previous.lookup name).getD (.obj [])))
      "Instance must be an object"
    let configured := Dict.merge (Dict.set before (ascii "enabled") (.bool true)) (placed row)
    let _ ← options (.obj (Dict.merge state.1 configured))
    pure (state.1, Dict.set state.2 name (.obj configured))
  else pure (Dict.merge state.1 (placed row), state.2)

/-- The entry that the rows of its plugin leave. -/
def applyRows (multiple : Bool) (entry : PyDict) (rows : List Row) : Except Text PyDict := do
  let saved := Dict.set (Dict.set entry (ascii "enabled") (.bool true))
    (ascii "widgetEnabled") (.bool true)
  let previous ← demand (dictAt saved "instances") "instances must be an object"
  let (saved, instances) ← rows.foldlM (applyRow multiple (1 < rows.length) previous) (saved, [])
  let saved := if instances ≠ [] ∨ ascii "instances" ∈ Dict.keys saved then
    Dict.set saved (ascii "instances") (.obj instances) else saved
  let _ ← options (.obj saved)
  pure saved

/-- The saved entry of a plugin, if it is a dictionary. -/
def entryAt (plugins : PyDict) (id : Text) : Option PyDict :=
  asDict ((plugins.lookup id).getD (.obj []))

def applyPlugin (packages : Packages) (rows : List (Text × Row)) (plugins : PyDict)
    (id : Text) : Result PyDict := do
  let candidate ← raising (package packages id)
  raising (require (candidate.omarchy && BAR_WIDGET ∈ candidate.kinds)
    "Replacement layout entry is not an Omarchy widget")
  let multiple ← candidate.allowMultiple
  raising (require ((rowsFor rows id).length ≤ 1 || multiple)
    "Plugin does not allow multiple instances")
  let entry ← raising (demand (entryAt plugins id) "Plugin preferences must be an object")
  let saved ← raising (applyRows multiple entry (rowsFor rows id))
  pure (Dict.set plugins id (.obj saved))

/-- Layout removal hides the widget while retaining its service and settings. -/
def hideRest (packages : Packages) (grouped : List Text) (item : Text × PyValue) :
    Text × PyValue :=
  match item.2, package packages item.1 with
  | .obj entry, .ok candidate =>
      if item.1 ∉ grouped ∧ candidate.omarchy ∧ BAR_WIDGET ∈ candidate.kinds then
        (item.1, .obj (Dict.set entry (ascii "widgetEnabled") (.bool false)))
      else item
  | _, _ => item

def applyLayout (registry : Registry) (layout : Layout) (packages : Packages) :
    Result Registry := do
  let rows ← raising (rowsOf layout)
  let grouped := (rows.map Prod.fst).eraseDups
  let plugins ← grouped.foldlM (applyPlugin packages rows) registry.plugins
  pure { registry with plugins := plugins.map (hideRest packages grouped) }

/-! ### Editing the layout that is drawn -/

inductive Action where
  | enable
  | put
  | move
  | set
deriving DecidableEq

/-- An enabled widget of an Omarchy plugin, as an entry of a section. -/
def drawnEntry (widget : Widget) : Option (Section × PyDict) := do
  let candidate ← widget.package
  let place ← widget.place.bind section?
  if widget.enabled && widget.error.isNone && candidate.omarchy then
    some (place, Dict.set (Dict.set widget.settings (ascii "id") (.str widget.id)) INSTANCE
      (.str widget.instanceName))
  else none

def drawnLayout (widgets : List Widget) : Layout :=
  let entries := widgets.filterMap drawnEntry
  let at' := fun place => (entries.filter (·.1 = place)).map Prod.snd
  ⟨at' .left, at' .center, at' .right⟩

/-- `d.get(key)` -/
def getNone (d : PyDict) (key : String) : PyValue := (d.lookup (ascii key)).getD .null

/-- Which entry a payload is about: its section, where one is named, and its
index. -/
def sourceOf (action : Action) (payload : PyDict) : Except Text (PyValue × Option ℕ) := do
  let selector ← demand (if action = .set then dictAt payload "selector" else some payload)
    "Invalid selector"
  let sourceSection := (selector.lookup (ascii "fromSection")).getD
    (if action = .set then getNone selector "section" else .null)
  match (selector.lookup (ascii "fromIndex")).getD
      (if action = .set then getNone selector "index" else .null) with
  | .null => pure (sourceSection, none)
  | .num (.int index) => do
      require (truthy sourceSection && 0 ≤ index) "Invalid source index"
      pure (sourceSection, some index.toNat)
  | _ => throw (ascii "Invalid source index")

/-- The first entry of this plugin that the source admits. -/
def findEntry (layout : Layout) (id : Text) (source : PyValue × Option ℕ) :
    Option (Section × ℕ × PyDict) :=
  SECTIONS.findSome? fun place =>
    if truthy source.1 && !isStr (some source.1) place.name then none
    else (layout.at place).zipIdx.findSome? fun entry =>
      if isStr (entry.1.lookup (ascii "id")) id && source.2.all (· == entry.2) then
        some (place, entry.2, entry.1)
      else none

/-- The first entry a relative position names. -/
def findAnchor (layout : Layout) (relative : PyValue) (only : Option Section) :
    Option (Section × ℕ) :=
  SECTIONS.findSome? fun place =>
    if only.all (· == place) then
      ((layout.at place).zipIdx.find? fun entry =>
        (entryId entry.1).any fun id => isStr (some relative) id).map fun entry =>
          (place, entry.2)
    else none

/-- `payload.get("section", default)` as a section of the layout; `in` raises
on lists and dictionaries. -/
def targetSection (payload : PyDict) (default : Section) : Result Section :=
  match payload.lookup (ascii "section") with
  | none => pure default
  | some (.arr _) => throw .other
  | some (.obj _) => throw .other
  | some value => raising (demand (section? value) "Invalid section")

/-- Where a moved or added entry goes, in the layout without it. -/
def targetOf (action : Action) (payload : PyDict) (layout : Layout) (place : Section) :
    Except Text (Section × ℕ) := do
  let relative := (payload.lookup (ascii "before")).getD (getNone payload "after")
  let plain := (payload.lookup (ascii "index")).getD
    (.num (.int ((layout.at place).length : ℕ)))
  let (place, index) ←
    if truthy relative then
      match findAnchor layout relative
        (if truthy (getNone payload "section") then some place else none) with
      | some (anchor, at') =>
          pure (anchor, Value.num (.int (at' + (truthy (getNone payload "after")).toNat : ℕ)))
      | none => do
          require (action == .put) "Relative widget not found"
          pure (place, plain)
    else pure (place, plain)
  let index ← demand (match index with
      | .num (.int index) =>
          if 0 ≤ index ∧ index ≤ (layout.at place).length then some index.toNat else none
      | _ => none)
    "Invalid index"
  pure (place, index)

/-- `found[2][payload["key"]] = payload["value"]` -/
def setEntry (payload : PyDict) (layout : Layout) (found : Section × ℕ × PyDict) :
    Except Text Layout := do
  let (key, value) ← demand (match payload.lookup (ascii "key"), payload.lookup (ascii "value") with
      | some (.str key), some value => some (key, value)
      | _, _ => none)
    "Setting mutation needs key and value"
  require (key ∉ [ascii "id", INSTANCE]) "Cannot change widget identity"
  pure (layout.setAt found.1 ((layout.at found.1).set found.2.1 (Dict.set found.2.2 key value)))

/-- Take the entry out of its place, or make one, and insert it. -/
def moveEntry (action : Action) (payload : PyDict) (layout : Layout) (id : Text)
    (settings : PyDict) (default : Section) (found : Option (Section × ℕ × PyDict)) :
    Result Layout := do
  let place ← targetSection payload ((found.map Prod.fst).getD default)
  raising (require (!(truthy (getNone payload "before") && truthy (getNone payload "after")))
    "Choose before or after")
  let (entry, layout) := match found with
    | some (place, index, entry) =>
        (entry, layout.setAt place ((layout.at place).eraseIdx index))
    | none => (Dict.set settings (ascii "id") (.str id), layout)
  let target ← raising (targetOf action payload layout place)
  pure (layout.setAt target.1 ((layout.at target.1).insertIdx target.2 entry))

/-- One mutation; without an effect where the widget to put is drawn. -/
def editLayout (registry : Registry) (packages : Packages) (action : Action) (id : Text)
    (payload : PyDict) : Result Registry := do
  let info ← scan registry packages
  let item ← raising (demand (info.plugins.find? fun item => item.id = id && item.error.isNone)
    "Unknown Omarchy widget")
  let candidate ← raising (demand (item.package.filter fun candidate =>
    candidate.omarchy && BAR_WIDGET ∈ candidate.kinds) "Unknown Omarchy widget")
  let layout := drawnLayout info.widgets
  let source ← raising (sourceOf action payload)
  match action, findEntry layout id source with
  | .put, some _ => pure registry
  | .set, none => throw (.value (ascii "Widget not found at source position"))
  | .move, none => throw (.value (ascii "Widget not found at source position"))
  | .set, some found => do
      let layout ← raising (setEntry payload layout found)
      applyLayout registry layout packages
  | action, found => do
      let default := (item.place.bind section?).getD candidate.place
      let layout ← moveEntry action payload layout id item.settings default found
      applyLayout registry layout packages

end Plugins

end CybexOS
