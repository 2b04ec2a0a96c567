/-
The widget editor (`WidgetEditor.js` and `ModulesPage.qml`): the catalog of
configured widgets, where a drop would put one and what committing it does.
-/
import CybexOS.Bar.MoveWidget

namespace CybexOS

namespace Bar

namespace Editor

open Settings (Column)

variable {Detail : Type}

/-- A layout, all three columns of it. -/
abbrev Layout (Detail : Type) := Column → List (Widget Bool Detail)

/-- What the catalog knows of a built-in widget. -/
structure Metadata where
  name : Text
  description : Text
  glyph : Text
  detail : Bool

/-- A widget of a plugin; `description` is its manifest's. -/
structure PluginWidget where
  key : Text
  id : Text
  name : Text
  instanceName : Text
  description : Text
  col : Text
  enabled : Bool

/-- An entry of the catalog; `col` is its `section`, and only a built-in has an
index. -/
structure Entry where
  key : Text
  id : Text
  name : Text
  description : Text
  glyph : Text
  origin : Text
  plugin : Bool
  col : Text
  index : Option ℕ
  enabled : Bool
  detail : Bool
deriving DecidableEq

/-- `text || fallback` -/
def orElse (text fallback : Text) : Text := if text = [] then fallback else text

def builtinEntry (metadata : Text → Option Metadata) (col : Column) (widget : Widget Bool Detail)
    (index : ℕ) : Entry :=
  let found := (metadata widget.id).getD ⟨widget.id, [], [], false⟩
  { key := widget.id
    id := widget.id
    name := found.name
    description := found.description
    glyph := orElse found.glyph (ascii "widgets")
    origin := ascii "Built-in"
    plugin := false
    col := col.key
    index := some index
    enabled := widget.on
    detail := found.detail }

def pluginEntry (widget : PluginWidget) : Entry where
  key := ascii "plugin:" ++ widget.key
  id := widget.id
  name := widget.name ++
    if widget.instanceName = [] then [] else [32, 183, 32] ++ widget.instanceName
  description := orElse widget.description (ascii "A widget provided by " ++ widget.name)
  glyph := ascii "extension"
  origin := widget.name ++ ascii " plugin"
  plugin := true
  col := orElse widget.col (ascii "right")
  index := none
  enabled := widget.enabled
  detail := false

def catalog (mods : Layout Detail) (plugins : List PluginWidget)
    (metadata : Text → Option Metadata) : List Entry :=
  (Column.all.flatMap fun col => (mods col).zipIdx.map fun item =>
    builtinEntry metadata col item.1 item.2) ++ plugins.map pluginEntry

def sectionEntries (entries : List Entry) (col : Text) : List Entry :=
  let enabled := entries.filter fun entry => entry.enabled && entry.col == col
  let builtins := enabled.filter fun entry => !entry.plugin
  let plugins := enabled.filter fun entry => entry.plugin
  if col = ascii "center" then builtins ++ plugins else plugins ++ builtins

/-- `list.slice(0, end)` -/
def sliceTo {α : Type} (list : List α) (stop : ℤ) : List α :=
  list.take (if stop < 0 then (list.length + stop).toNat else stop.toNat)

structure Plan where
  col : Text
  index : ℕ
  gap : ℕ
deriving DecidableEq

def dropPlan (entries : List Entry) (mods : Layout Detail) (moving : Entry) (col : Column)
    (gap : ℤ) : Plan :=
  let visible := sectionEntries entries col.key
  let peers := visible.filter fun entry => entry.plugin == moving.plugin
  let before := ((sliceTo visible gap).filter fun entry => entry.plugin == moving.plugin).length
  let index := if moving.plugin then before
    else (peers[before]?).elim (mods col).length fun anchor => anchor.index.getD 0
  let offset := if col = .center then (if moving.plugin then visible.length - peers.length else 0)
    else if moving.plugin then 0 else visible.length - peers.length
  ⟨col.key, index, offset + before⟩

/-! ### Committing a drop -/

/-- `Settings.mods` as `moveWidget` takes it. -/
def whole (mods : Layout Detail) : Mods Bool Detail := some fun col => some (mods col)

/-- `Settings.setModuleEnabled(id, true)` -/
def enable (id : Text) (mods : Layout Detail) : Layout Detail := fun col =>
  (mods col).map fun widget => if widget.id = id then { widget with on := true } else widget

/-- `Settings.mods` after `LayoutHelpers.moveWidget`, if it moved something. -/
def moveTo (mods : Layout Detail) (moving : Entry) (col : Column) (index : ℕ) : Layout Detail :=
  (moveWidget (whole mods) moving.col moving.id col.key index).elim mods Moved.mods

/-- `commitDrag` of a built-in: an enabled one is planned again, one from the
tray is put where the plan said and enabled. -/
def commitDrag (mods : Layout Detail) (plugins : List PluginWidget)
    (metadata : Text → Option Metadata) (moving : Entry) (col : Column) (target : Plan) :
    Layout Detail :=
  if moving.enabled then
    moveTo mods moving col (dropPlan (catalog mods plugins metadata) mods moving col target.gap).index
  else enable moving.id (moveTo mods moving col target.index)

/-! ### What the preview promises -/

/-- An entry without its place in the saved column. -/
def Entry.face (entry : Entry) : Entry := { entry with index := none }

/-- Every entry but the built-in one of this id. -/
def isOther (id : Text) (entry : Entry) : Bool := entry.plugin || entry.id != id

/-- The two kinds stand in blocks. -/
def Blocks (col : Column) (entries : List Entry) : Prop :=
  ∃ builtins plugins, entries.map Entry.plugin =
    if col = .center then List.replicate builtins false ++ List.replicate plugins true
    else List.replicate plugins true ++ List.replicate builtins false

/-- The layout after the drop, section by section. -/
structure AsPlanned (mods : Layout Detail) (plugins : List PluginWidget)
    (metadata : Text → Option Metadata) (moving : Entry) (col : Column) (plan : Plan)
    (after : Layout Detail) : Prop where
  target : (sectionEntries (catalog after plugins metadata) col.key).map Entry.face =
    ((((sectionEntries (catalog mods plugins metadata) col.key).take plan.gap).filter
        (isOther moving.id)).map Entry.face) ++
      { moving.face with col := col.key, enabled := true } ::
      ((((sectionEntries (catalog mods plugins metadata) col.key).drop plan.gap).filter
        (isOther moving.id)).map Entry.face)
  others : ∀ other, other ≠ col →
    (sectionEntries (catalog after plugins metadata) other.key).map Entry.face =
      ((sectionEntries (catalog mods plugins metadata) other.key).filter
        (isOther moving.id)).map Entry.face
  kept : ∀ other, (after other).filter (·.id ≠ moving.id) = (mods other).filter (·.id ≠ moving.id)
  blocks : ∀ other, Blocks other (sectionEntries (catalog after plugins metadata) other.key)

end Editor

end Bar

end CybexOS
