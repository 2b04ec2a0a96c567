/-
The layout of the bar's modules (`SettingsHelpers.js`): what is kept of a stored
one, and how one of an older schema gets the modules added since.
-/
import CybexOS.Firsts
import CybexOS.Json.Js
import Mathlib.Logic.Function.Basic

namespace CybexOS

namespace Settings

open Json (JsValue truthy)

inductive Column where
  | left
  | center
  | right
deriving DecidableEq

def Column.all : List Column := [.left, .center, .right]

def Column.key : Column → Text
  | .left => ascii "left"
  | .center => ascii "center"
  | .right => ascii "right"

structure Mod where
  id : Text
  on : Bool
  detail : Text
deriving DecidableEq

def MODULE_IDS : List Text :=
  ["ws", "media", "indicators", "clock", "weather", "notes", "modelusage", "updates", "gh", "t3",
    "hermes", "tray", "notifications", "vol", "wifi", "bt", "batt", "control"].map ascii

def DETAIL_POLICIES : List Text := ["auto", "prefer", "compact"].map ascii

def detailIn (value : Option JsValue) : Text :=
  match value with
  | some (.str text) => if text ∈ DETAIL_POLICIES then text else ascii "auto"
  | _ => ascii "auto"

def defaultMods : Column → List Mod
  | .left => [mod "ws" true, mod "media" true]
  | .center => [mod "indicators" true, mod "clock" true, mod "weather" false, mod "notes" true]
  | .right => [mod "modelusage" false, mod "updates" true, mod "gh" false, mod "t3" false,
      mod "hermes" false, mod "tray" false, mod "notifications" true, mod "vol" true,
      mod "wifi" true, mod "bt" true, mod "batt" true, mod "control" true]
where
  mod (id : String) (on : Bool) : Mod := ⟨ascii id, on, ascii "auto"⟩

def defaultOn (id : Text) : Bool :=
  (Column.all.flatMap defaultMods).any fun mod => mod.id = id ∧ mod.on = true

def defaultCol (id : Text) : Column :=
  (Column.all.find? fun col => (defaultMods col).any fun mod => mod.id = id).getD .right

/-! ### Stored layouts -/

/-- The members of a stored entry that are read; `none` is undefined. -/
structure Entry where
  id : Option JsValue
  on : Option JsValue
  detail : Option JsValue

/-- An item of a column, if it is an object. -/
def entryOf : JsValue → Option Entry
  | .obj fields =>
      some ⟨fields.lookup (ascii "id"), fields.lookup (ascii "on"), fields.lookup (ascii "detail")⟩
  | .arr _ => some ⟨none, none, none⟩
  | _ => none

abbrev Columns := Column → List (Option Entry)

/-- The columns of a layout that is an object. -/
def columnsOf : Option JsValue → Option Columns
  | some (.obj fields) => some fun col =>
      match fields.lookup col.key with
      | some (.arr items) => items.map entryOf
      | _ => []
  | some (.arr _) => some fun _ => []
  | _ => none

/-- `entry && entry.id === id` -/
def Entry.hasId (id : Text) (entry : Option Entry) : Bool :=
  match entry with
  | some ⟨some (.str text), _, _⟩ => text = id
  | _ => false

/-- The entry with its id, if that is one of a module. -/
def known (entry : Option Entry) : Option (Text × Entry) :=
  match entry with
  | some ⟨some (.str text), on, detail⟩ =>
      if text ∈ MODULE_IDS then some (text, ⟨some (.str text), on, detail⟩) else none
  | _ => none

def modOf (item : Text × Entry) : Mod where
  id := item.1
  on := match item.2.on with
    | some (.bool on) => on
    | _ => defaultOn item.1
  detail := detailIn item.2.detail

/-- `next` and `seen` of `normalizeMods`. -/
structure Taken where
  next : Column → List Mod
  seen : List Text

def Taken.push (taken : Taken) (col : Column) (mod : Mod) : Column → List Mod :=
  Function.update taken.next col (taken.next col ++ [mod])

def Taken.take (col : Column) (taken : Taken) (entry : Option Entry) : Taken :=
  match known entry with
  | none => taken
  | some item =>
      if item.1 ∈ taken.seen then taken
      else ⟨taken.push col (modOf item), item.1 :: taken.seen⟩

/-- A module that the layout lacks, at the end of its column. -/
def Taken.complete (taken : Taken) (id : Text) : Taken :=
  if id ∈ taken.seen then taken
  else { taken with next := taken.push (defaultCol id) ⟨id, defaultOn id, ascii "auto"⟩ }

/-- `normalizeMods`, of the columns if the layout is an object. -/
def normalizeMods : Option Columns → Column → List Mod
  | none => defaultMods
  | some columns =>
      let taken := Column.all.foldl (fun taken col => (columns col).foldl (Taken.take col) taken)
        ⟨fun _ => [], []⟩
      (MODULE_IDS.foldl Taken.complete taken).next

/-! ### Migration -/

/-- `typeof sourceVersion !== "number" || sourceVersion < version` -/
def olderThan (version : ℕ) : Option JsValue → Bool
  | some (.num (.fin source)) => source.val < version
  | some (.num (.inf negative)) => negative
  | some (.num .nan) => false
  | _ => true

/-- The columns as the migration starts with them. -/
def effective (sourceVersion : Option JsValue) (columns : Columns) : Columns := fun col =>
  if olderThan 24 sourceVersion then
    (columns col).filter fun entry => !Entry.hasId (ascii "control") entry
  else columns col

def present (id : Text) (columns : Columns) : Bool :=
  Column.all.any fun col => (columns col).any (Entry.hasId id)

def entry (id : String) (on : Bool) : Option Entry :=
  some ⟨some (.str (ascii id)), some (.bool on), some (.str (ascii "auto"))⟩

/-- `columns[col].splice(index, 0, entry)` -/
def splice (columns : Columns) (col : Column) (index : ℕ) (entry : Option Entry) : Columns :=
  Function.update columns col ((columns col).take index ++ entry :: (columns col).drop index)

/-- The entry beside the first one with this id, in the column that has it. -/
def beside (id : String) (offset : ℕ) (entry : Option Entry) (columns : Columns) : Columns :=
  match Column.all.find? fun col => (columns col).any (Entry.hasId (ascii id)) with
  | none => columns
  | some col =>
      splice columns col ((columns col).findIdx (Entry.hasId (ascii id)) + offset) entry

def statusIds : List Text := ["vol", "wifi", "bt", "batt"].map ascii

/-- Before the first status item of the right column, or at its end. -/
def beforeStatus (entry : Option Entry) (columns : Columns) : Columns :=
  splice columns .right
    ((columns .right).findIdx fun item => statusIds.any fun id => Entry.hasId id item) entry

/-- A module that came with a schema, unless the layout is newer or has it. -/
def added (version : ℕ) (id : String) (sourceVersion : Option JsValue)
    (insert : Columns → Columns) (columns : Columns) : Columns :=
  if olderThan version sourceVersion ∧ present (ascii id) columns = false then insert columns
  else columns

/-- `context && context.connectedWidgets` -/
def connectedWidgets (context : Option JsValue) : Bool :=
  (context.bind (·.field? (ascii "connectedWidgets"))).any truthy

def migrateMods (raw sourceVersion context : Option JsValue) : Column → List Mod :=
  match columnsOf raw with
  | none => normalizeMods none
  | some columns =>
      let migrated := effective sourceVersion columns
      let migrated := added 8 "indicators" sourceVersion
        (beside "clock" 0 (entry "indicators" true)) migrated
      let migrated := added 11 "notifications" sourceVersion
        (beforeStatus (entry "notifications" true)) migrated
      let migrated := added 14 "hermes" sourceVersion
        (beside "t3" 1 (entry "hermes" true)) migrated
      let migrated := added 20 "notes" sourceVersion
        (beside "weather" 1 (entry "notes" true)) migrated
      let migrated := added 26 "modelusage" sourceVersion
        (fun columns =>
          splice columns .right 0 (entry "modelusage" (connectedWidgets context))) migrated
      normalizeMods (some migrated)

end Settings

end CybexOS
