/-
The validation half of `displays.lua`.  Lua strings are byte strings, and one
table type serves for arrays and objects: `decode` gives an array its length
in the field `n`, which is also how `is_array` and `is_object` tell them apart.
-/
import CybexOS.Decimal
import CybexOS.Excepts
import CybexOS.Json.Value
import Mathlib.Data.List.Sort
import Mathlib.Order.Lex

namespace CybexOS

namespace Displays

open Json

/-- What `decode` returns; JSON null is the table `NULL`. -/
abbrev LuaValue := Value Double

def MAX_ENTRIES : Nat := 64

namespace Lua

/-- `value.n` on a table other than `NULL`: absent, a number, or neither. -/
def fieldN : LuaValue → Option (Option ℚ)
  | .arr items => some (some items.length)
  | .obj fields =>
      match fields.lookup (ascii "n") with
      | none => none
      | some (.num d) => some (some d.val)
      | some _ => some none
  | _ => none

def isTable : LuaValue → Bool
  | .arr _ => true
  | .obj _ => true
  | _ => false

/-- `is_array`, with the length it read. -/
def arrayLength (value : LuaValue) : Option ℚ := (fieldN value).join

def isObject (value : LuaValue) : Bool :=
  isTable value && (fieldN value).isNone

/-- `value[index]` for a positive integer: object members have string keys. -/
def index (value : LuaValue) (i : Nat) : Option LuaValue :=
  match value with
  | .arr items => items[i - 1]?
  | _ => none

def isInteger (value : Option LuaValue) (low high : ℤ) : Bool :=
  match value with
  | some (.num d) => d.val = ⌊d.val⌋ && (low : ℚ) ≤ d.val && d.val ≤ high
  | _ => false

/-- `value == "..."` -/
def isText (value : LuaValue) (text : String) : Bool :=
  match value with
  | .str s => s == ascii text
  | _ => false

/-- `type(value) == "number"` and within bounds. -/
def isNumberIn (value : Option LuaValue) (low high : ℚ) : Bool :=
  match value with
  | some (.num d) => low ≤ d.val && d.val ≤ high
  | _ => false

/-- `[\1-\31\127]` or NUL. -/
def isControl (c : Nat) : Bool := c ≤ 31 || c == 127

def hasControl (value : Text) : Bool := value.any isControl

/-- `%s` in the C locale. -/
def isSpace (c : Nat) : Bool := c == 32 || (9 ≤ c && c ≤ 13)

def trim (value : Text) : Text := trimWith isSpace value

/-- `[A-Za-z0-9_.-]` -/
def isConnectorUnit (c : Nat) : Bool :=
  isAlnum c || c == 95 || c == 46 || c == 45

def descPrefix : Text := ascii "desc:"

/-- `key:sub(1, 5) == "desc:"` -/
def isDesc (key : Text) : Bool := key.take 5 == descPrefix

def validKey (key : Text) : Bool :=
  if isDesc key then
    key.length ≤ 261 && trim (key.drop 5) == key.drop 5 &&
      key.drop 5 != [] && !hasControl (key.drop 5)
  else key != [] && key.all isConnectorUnit && key.length ≤ 64

/-- `M.valid_key` on a value of any type. -/
def validKeyValue : Option LuaValue → Bool
  | some (.str key) => validKey key
  | _ => false

def hexDigit (n : Nat) : Nat := if n < 10 then n + 48 else n + 87

def encodeByte (byte : Nat) : Text :=
  if byte = 34 then ascii "\\\""
  else if byte = 92 then ascii "\\\\"
  else if byte < 32 ∨ byte = 127 then
    ascii "\\u00" ++ [hexDigit (byte / 16), hexDigit (byte % 16)]
  else [byte]

def encodeString (value : Text) : Text :=
  [34] ++ value.flatMap encodeByte ++ [34]

/-- `gsub("0+$", "")` then `gsub("%.$", "")` -/
def stripZeros (text : Text) : Text :=
  let stripped := text.rdropWhile (· == 48)
  if stripped.getLast? = some 46 then stripped.dropLast else stripped

/-- `string.format("%.<places>f", value)` without its trailing zeros. -/
def formatPlaces (places : Nat) (value : ℚ) : Text :=
  stripZeros (fixedText places (Binary64.roundEven (value * 10 ^ places)))

def formatNumber (value : ℚ) : Text := formatPlaces 3 value

/-- `%d` -/
def formatInteger (value : ℚ) : Text := integerText ⌊value⌋

end Lua

/-- One validated entry of `displays.json`, as the rules are built from it. -/
structure Entry where
  key : Text
  description : Option Text := none
  connector : Option Text := none
  enabled : Bool := true
  disabledWith : List Text := []
  mode : Option Text := none
  position : Option Text := none
  scale : Option Text := none
  transform : Option ℤ := none
  vrr : Option ℤ := none
  mirror : Option Text := none
deriving DecidableEq, Repr

namespace Lua

/-- `return nil, key .. ": " .. message` -/
def reject {α : Type} (key : Text) (message : String) : Except Text α :=
  .error (key ++ ascii ": " ++ ascii message)

@[simp]
theorem reject_ne_ok {α : Type} (key : Text) (message : String) (a : α) :
    reject key message ≠ .ok a := by
  simp [reject]

def entryDescription (key : Text) (raw : LuaValue) :
    Except Text (Option Text) :=
  match raw.field? (ascii "description") with
  | some (.str description) =>
      if 256 < description.length || hasControl description then
        reject key "invalid description"
      else .ok (some description)
  | some _ => reject key "invalid description"
  | none => .ok (if isDesc key then some (key.drop 5) else none)

def entryConnector (key : Text) (raw : LuaValue) :
    Except Text (Option Text) :=
  match raw.field? (ascii "connector") with
  | some (.str connector) =>
      if connector == [] || !connector.all isConnectorUnit ||
          64 < connector.length then
        reject key "invalid connector"
      else .ok (some connector)
  | some _ => reject key "invalid connector"
  | none => .ok none

def entryEnabled (key : Text) (raw : LuaValue) : Except Text Bool :=
  match raw.field? (ascii "enabled") with
  | some (.bool enabled) => .ok enabled
  | some _ => reject key "enabled must be true or false"
  | none => .ok true

/-- `for index = 1, with.n`, collecting the identifiers. -/
def companions (key : Text) (list : LuaValue) :
    List Nat → Except Text (List Text)
  | [] => .ok []
  | i :: rest =>
      match index list i with
      | some (.str other) =>
          if !validKey other || other == key then
            reject key "invalid disabledWith identifier"
          else (companions key list rest).map (other :: ·)
      | _ => reject key "invalid disabledWith identifier"

def entryDisabledWith (key : Text) (raw : LuaValue) (enabled : Bool) :
    Except Text (List Text) :=
  if enabled then .ok []
  else
    match raw.field? (ascii "disabledWith") with
    | some list =>
        match arrayLength list with
        | some n =>
            if n < 1 || 16 < n then
              reject key "a disabled display needs 1-16 disabledWith identifiers"
            else companions key list (List.range' 1 ⌊n⌋.toNat)
        | none =>
            reject key "a disabled display needs 1-16 disabledWith identifiers"
    | none =>
        reject key "a disabled display needs 1-16 disabledWith identifiers"

/-- The value of a number, for a field already known to hold one. -/
def numberOf : Option LuaValue → ℚ
  | some (.num d) => d.val
  | _ => 0

def entryMode (key : Text) (raw : LuaValue) : Except Text (Option Text) :=
  match raw.field? (ascii "mode") with
  | none => .ok none
  | some mode =>
      if isText mode "preferred" then
        .ok (some (ascii "preferred"))
      else if !isObject mode ||
          !isInteger (mode.field? (ascii "width")) 1 16384 ||
          !isInteger (mode.field? (ascii "height")) 1 16384 ||
          !isNumberIn (mode.field? (ascii "refresh")) 1 1000 then
        reject key "invalid mode"
      else .ok (some (
        formatInteger (numberOf (mode.field? (ascii "width"))) ++ ascii "x" ++
        formatInteger (numberOf (mode.field? (ascii "height"))) ++ ascii "@" ++
        formatNumber (numberOf (mode.field? (ascii "refresh")))))

def entryPosition (key : Text) (raw : LuaValue) : Except Text (Option Text) :=
  match raw.field? (ascii "position") with
  | none => .ok none
  | some position =>
      if isText position "auto" then
        .ok (some (ascii "auto"))
      else if !isObject position ||
          !isInteger (position.field? (ascii "x")) (-65536) 65536 ||
          !isInteger (position.field? (ascii "y")) (-65536) 65536 then
        reject key "invalid position"
      else .ok (some (
        formatInteger (numberOf (position.field? (ascii "x"))) ++ ascii "x" ++
        formatInteger (numberOf (position.field? (ascii "y")))))

def entryScale (key : Text) (raw : LuaValue) : Except Text (Option Text) :=
  match raw.field? (ascii "scale") with
  | none => .ok none
  | some scale =>
      if isText scale "auto" then .ok (some (ascii "auto"))
      else if !isNumberIn (some scale) (1 / 4) 10 then
        reject key "invalid scale"
      else .ok (some (formatPlaces 6 (numberOf (some scale))))

/-- The two small integer fields, `transform` and `vrr`. -/
def entryInteger (name : String) (high : ℤ) (key : Text) (raw : LuaValue) :
    Except Text (Option ℤ) :=
  match raw.field? (ascii name) with
  | none => .ok none
  | some value =>
      if !isInteger (some value) 0 high then
        .error (key ++ ascii ": invalid " ++ ascii name)
      else .ok (some ⌊numberOf (some value)⌋)

def entryTransform : Text → LuaValue → Except Text (Option ℤ) :=
  entryInteger "transform" 7

def entryVrr : Text → LuaValue → Except Text (Option ℤ) :=
  entryInteger "vrr" 3

def entryMirror (key : Text) (raw : LuaValue) : Except Text (Option Text) :=
  match raw.field? (ascii "mirror") with
  | some (.str mirror) =>
      if (mirror != [] && !validKey mirror) || mirror == key then
        reject key "invalid mirror"
      else .ok (some mirror)
  | some _ => reject key "invalid mirror"
  | none => .ok none

def validateEntry (key : Text) (raw : LuaValue) : Except Text Entry :=
  if !validKey key then
    .error (ascii "invalid display identifier " ++ encodeString key)
  else if !isObject raw then reject key "the entry is not an object"
  else do
    let description ← entryDescription key raw
    let connector ← entryConnector key raw
    let enabled ← entryEnabled key raw
    let disabledWith ← entryDisabledWith key raw enabled
    let mode ← entryMode key raw
    let position ← entryPosition key raw
    let scale ← entryScale key raw
    let transform ← entryTransform key raw
    let vrr ← entryVrr key raw
    let mirror ← entryMirror key raw
    return { key, description, connector, enabled, disabledWith, mode,
             position, scale, transform, vrr, mirror }

/-- `pairs(value)`: each string key once. -/
def tableKeys : LuaValue → List Text
  | .obj fields => (fields.map Prod.fst).dedup
  | _ => []

/-- `document.v ~= 1` -/
def isOne : Option LuaValue → Bool
  | some (.num d) => d.val = 1
  | _ => false

def validateEntries (monitors : LuaValue) : List Text → Except Text (List Entry)
  | [] => .ok []
  | key :: keys => do
      let entry ← validateEntry key ((monitors.field? key).getD .null)
      let entries ← validateEntries monitors keys
      return entry :: entries

/-- `M.validate`: the entries in key order, or the first problem. -/
def validate (document : LuaValue) : Except Text (List Entry) :=
  if !isObject document then .error (ascii "the document is not an object")
  else if !isOne (document.field? (ascii "v")) then
    .error (ascii "unsupported version (expected v = 1)")
  else
    let monitors := (document.field? (ascii "monitors")).getD (.obj [])
    if !isObject monitors then .error (ascii "monitors is not an object")
    else if MAX_ENTRIES < (tableKeys monitors).length then
      .error (ascii "more than 64 displays")
    else
      validateEntries monitors ((tableKeys monitors).insertionSort (· ≤ ·))

theorem validateEntry_key {key : Text} {raw : LuaValue} {entry : Entry}
    (h : validateEntry key raw = .ok entry) : entry.key = key := by
  unfold validateEntry at h
  split_ifs at h
  · simp at h
  · simp only [bind_eq_ok, pure, Except.pure, Except.ok.injEq] at h
    obtain ⟨_, _, _, _, _, _, _, _, _, _, _, _, _, _, _, _, _, _, _, _, rfl⟩ := h
    rfl

theorem validateEntries_keys {monitors : LuaValue} {keys : List Text}
    {entries : List Entry} (h : validateEntries monitors keys = .ok entries) :
    entries.map Entry.key = keys := by
  induction keys generalizing entries with
  | nil =>
      cases h
      rfl
  | cons key keys ih =>
      simp only [validateEntries, bind_eq_ok, pure, Except.pure,
        Except.ok.injEq] at h
      obtain ⟨entry, hentry, rest, hrest, rfl⟩ := h
      rw [List.map_cons, validateEntry_key hentry, ih hrest]

theorem nodup_tableKeys (value : LuaValue) : (tableKeys value).Nodup := by
  cases value with
  | obj fields => exact List.nodup_dedup _
  | _ => exact List.nodup_nil

/-- Validated entries have strictly increasing keys. -/
theorem validate_keys_sorted {document : LuaValue} {entries : List Entry}
    (h : validate document = .ok entries) :
    (entries.map Entry.key).Pairwise (· < ·) := by
  unfold validate at h
  dsimp only at h
  split_ifs at h
  rw [validateEntries_keys h]
  set keys := tableKeys ((document.field? (ascii "monitors")).getD (.obj []))
  have hsorted := List.pairwise_insertionSort (· ≤ ·) keys
  have hnodup : (keys.insertionSort (· ≤ ·)).Nodup :=
    (List.perm_insertionSort (· ≤ ·) _).nodup_iff.mpr (nodup_tableKeys _)
  exact (hsorted.and hnodup).imp fun hle => lt_of_le_of_ne hle.1 hle.2

end Lua

end Displays

end CybexOS
