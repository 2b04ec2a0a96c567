/-
Reading a plugin package: its manifest, its kinds and what a clone says of its
original.
-/
import CybexOS.Dict
import CybexOS.Excepts
import CybexOS.Json.Py

namespace CybexOS

namespace Plugins

open Json

abbrev PyDict := List (Text × PyValue)

/-! ### Values -/

def isStr (value : Option PyValue) (text : Text) : Bool :=
  match value with
  | some (.str s) => s == text
  | _ => false

/-- `type(value) is bool` -/
def isBool : PyValue → Bool
  | .bool _ => true
  | _ => false

/-- `type(value) is int and value == number` -/
def isInt (value : Option PyValue) (number : ℤ) : Bool :=
  match value with
  | some (.num (.int z)) => z == number
  | _ => false

/-- `value` in a condition. -/
def truthy : PyValue → Bool
  | .null => false
  | .bool b => b
  | .num (.int z) => z != 0
  | .num (.float (.fin x)) => x.val != 0
  | .num (.float _) => true
  | .str s => !s.isEmpty
  | .arr items => !items.isEmpty
  | .obj fields => !fields.isEmpty

/-- The items of a dictionary. -/
def asDict : PyValue → Option PyDict
  | .obj fields => some fields
  | _ => none

/-- `d.get(key, {})` where it is a dictionary. -/
def dictAt (d : PyDict) (key : String) : Option PyDict :=
  asDict ((d.lookup (ascii key)).getD (.obj []))

/-- `key not in d or type(d[key]) is bool` -/
def absentOrBool (d : PyDict) (key : String) : Bool :=
  (d.lookup (ascii key)).all isBool

/-! ### Names -/

/-- `[A-Za-z][A-Za-z0-9_.-]*` without `..` -/
def validId (id : Text) : Bool :=
  id.head?.any (fun c => isUpper c || isLower c) &&
    id.all (fun c => isAlnum c || c ∈ ascii "_.-") && !decide (ascii ".." <:+: id)

/-- `valid_id` of any value. -/
def validIdValue : PyValue → Bool
  | .str s => validId s
  | _ => false

/-- `[a-z][a-z0-9]*(?:[.-][a-z0-9]+)*` -/
def nativeId (id : Text) : Bool :=
  let word := fun c => isLower c || isDigit c
  let mark := fun c => c ∈ ascii ".-"
  id.head?.any isLower && id.getLast?.any word && id.all (fun c => word c || mark c) &&
    (id.zip id.tail).all fun pair => !(mark pair.1 && mark pair.2)

inductive Section where
  | left
  | center
  | right
deriving DecidableEq

def Section.name : Section → Text
  | .left => ascii "left"
  | .center => ascii "center"
  | .right => ascii "right"

/-- The section a value names, if it names one. -/
def section? (value : PyValue) : Option Section :=
  [Section.left, .center, .right].find? fun place => isStr (some value) place.name

/-! ### Packages -/

def KINDS : List (Text × Text) :=
  [(ascii "bar-widget", ascii "barWidget"), (ascii "panel", ascii "panel"),
    (ascii "overlay", ascii "overlay"), (ascii "menu", ascii "menu"),
    (ascii "service", ascii "service"), (ascii "bar", ascii "bar")]

def BAR_WIDGET : Text := ascii "bar-widget"

/-- Packages whose widget now ships inside the shell. -/
def BUILT_IN : List (Text × Text) :=
  [(ascii "digitalpals.model-usage",
    ascii "Model Usage is built into CybexOS. Add it from Settings → Bar, then remove this plugin.")]

/-- A directory under the plugin root: what `read_object` makes of its
manifest and which entry points are `.qml` files inside it. -/
structure Directory where
  manifest : Except Text PyDict
  symlink : Bool
  holds : Text → Bool

abbrev Packages := List (Text × Directory)

structure Package where
  id : Text
  manifest : PyDict
  kinds : List Text
  omarchy : Bool
  place : Section
  defaults : PyDict

/-- `if not condition: raise ValueError(message)` -/
def require (condition : Bool) (message : String) : Except Text Unit :=
  if condition then .ok () else .error (ascii message)

/-- `value` or `raise ValueError(message)` -/
def demand {α : Type} (value : Option α) (message : String) : Except Text α :=
  match value with
  | some found => .ok found
  | none => .error (ascii message)

/-- The kinds a manifest declares, all known and none twice. -/
def kindsOf : PyValue → Option (List Text)
  | .arr items => do
      let kinds ← items.mapM fun
        | .str kind => if kind ∈ KINDS.map Prod.fst then some kind else none
        | _ => none
      if kinds ≠ [] ∧ kinds.Nodup then some kinds else none
  | _ => none

/-- What the formats declare: kinds, entry points, section and defaults. -/
structure Declared where
  kinds : List Text
  entries : List (Option PyValue)
  place : Section
  defaults : PyDict

def declaredOmarchy (manifest : PyDict) : Except Text Declared := do
  require ((manifest.lookup (ascii "apiVersion")).isNone)
    "Manifest cannot mix native and Omarchy formats"
  require (isInt (manifest.lookup (ascii "schemaVersion")) 1)
    "Unsupported Omarchy schemaVersion; host supports 1"
  let kinds ← demand ((manifest.lookup (ascii "kinds")).bind kindsOf)
    "Unsupported or duplicate Omarchy plugin kind"
  let expected := kinds.filterMap (KINDS.lookup ·)
  let entries ← demand (do
      let entries ← (manifest.lookup (ascii "entryPoints")).bind asDict
      if (∀ key ∈ Dict.keys entries, key ∈ expected) ∧ ∀ key ∈ expected, key ∈ Dict.keys entries
        then some entries else none)
    "Omarchy entryPoints must match the declared kinds"
  require (absentOrBool manifest "keepLoaded") "keepLoaded must be a boolean"
  let (widget, defaults) ← demand (do
      let widget ← dictAt manifest "barWidget"
      let defaults ← dictAt widget "defaults"
      pure (widget, defaults))
    "Omarchy barWidget and defaults must be objects"
  require (absentOrBool widget "allowMultiple") "barWidget.allowMultiple must be a boolean"
  let place ← demand (match widget.lookup (ascii "defaultSection") with
      | none => some .center
      | some value => section? value)
    "Invalid barWidget.defaultSection"
  pure ⟨kinds, entries.map fun entry => some entry.2, place, defaults⟩

def declaredNative (id : Text) (manifest : PyDict) : Except Text Declared := do
  require (nativeId id) "Native plugin ids must use lowercase letters, digits, dots or hyphens"
  require (isInt (manifest.lookup (ascii "apiVersion")) 1) "Unsupported widget API"
  pure ⟨[BAR_WIDGET], [manifest.lookup (ascii "entrypoint")], .right, []⟩

/-- `c.isspace()` -/
def isSpace (c : Nat) : Bool :=
  (9 ≤ c && c ≤ 13) || (28 ≤ c && c ≤ 32) || (8192 ≤ c && c ≤ 8202) ||
    c ∈ [133, 160, 5760, 8232, 8233, 8239, 8287, 12288]

/-- A string with more than white space. -/
def nonempty : Option PyValue → Bool
  | some (.str s) => s.any fun c => !isSpace c
  | _ => false

def entryHeld (directory : Directory) : Option PyValue → Bool
  | some (.str entrypoint) => directory.holds entrypoint
  | _ => false

/-- The fields of a manifest that plugins may see. -/
def publicFields (manifest : PyDict) : PyDict :=
  manifest.filter fun field => !(ascii "__").isPrefixOf field.1

/-- `manifest.get("omarchy", {})` with a valid origin, if it names one. -/
def cloneMetadata (manifest : PyDict) : Option PyDict := do
  let metadata ← dictAt manifest "omarchy"
  if (metadata.lookup (ascii "clonedFrom")).all validIdValue then some metadata else none

/-- Check a manifest and the files it names. -/
def checkPackage (id : Text) (directory : Directory) : Except Text Package := do
  let manifest ← directory.manifest
  require (isStr (manifest.lookup (ascii "id")) id) "Manifest id must match its directory name"
  let _ ← demand (cloneMetadata manifest) "Invalid Omarchy clone metadata"
  let omarchy := (manifest.lookup (ascii "schemaVersion")).isSome
  let declared ← if omarchy then declaredOmarchy manifest else declaredNative id manifest
  require (nonempty (manifest.lookup (ascii "name"))) "Manifest needs a nonempty name"
  require (nonempty (manifest.lookup (ascii "version"))) "Manifest needs a nonempty version"
  require (declared.entries.all nonempty) "Manifest needs a nonempty QML entrypoint"
  require (declared.entries.all (entryHeld directory))
    "Entrypoint is missing or resolves outside the package"
  pure ⟨id, publicFields manifest, declared.kinds, omarchy, declared.place, declared.defaults⟩

def package (packages : Packages) (id : Text) : Except Text Package := do
  require (validId id)
    "Invalid plugin id (use letters, digits, dots, underscores or hyphens)"
  match BUILT_IN.lookup id with
  | some reason => throw reason
  | none => do
      let directory ← demand (packages.lookup id) "No such file or directory"
      checkPackage id directory

/-- `manifest.get("omarchy", {}).get("clonedFrom")` -/
def Package.clonedFrom (candidate : Package) : Option Text :=
  match (dictAt candidate.manifest "omarchy").bind (·.lookup (ascii "clonedFrom")) with
  | some (.str origin) => some origin
  | _ => none

end Plugins

end CybexOS
