/-
The validation half of `display-settings.py`, on values as `loads` builds them
with strings of code points.
-/
import CybexOS.Displays.LuaValidate
import CybexOS.Json.Py

namespace CybexOS

namespace Displays

namespace Py

open Json

/-- Why a document is refused.  `overflow` is the `OverflowError` of `float()`
on a huge integer, which no caller catches. -/
inductive Problem where
  | notObject
  | version
  | monitorsNotObject
  | tooMany
  | identifier (key : Text)
  | entryNotObject (key : Text)
  | description (key : Text)
  | connector (key : Text)
  | enabled (key : Text)
  | companionCount (key : Text)
  | companion (key : Text)
  | mode (key : Text)
  | position (key : Text)
  | scale (key : Text)
  | transform (key : Text)
  | vrr (key : Text)
  | mirror (key : Text)
  | overflow
deriving DecidableEq, Repr

/-- The text raised; `repr` is Python's own, which depends on the Unicode
tables. -/
def Problem.message (repr : Text → Text) : Problem → Text
  | .notObject => ascii "the document is not an object"
  | .version => ascii "unsupported version (expected v = 1)"
  | .monitorsNotObject => ascii "monitors is not an object"
  | .tooMany => ascii "more than 64 displays"
  | .identifier key => ascii "invalid display identifier " ++ repr key
  | .entryNotObject key => key ++ ascii ": the entry is not an object"
  | .description key => key ++ ascii ": invalid description"
  | .connector key => key ++ ascii ": invalid connector"
  | .enabled key => key ++ ascii ": enabled must be true or false"
  | .companionCount key =>
      key ++ ascii ": a disabled display needs 1-16 disabledWith identifiers"
  | .companion key => key ++ ascii ": invalid disabledWith identifier"
  | .mode key => key ++ ascii ": invalid mode"
  | .position key => key ++ ascii ": invalid position"
  | .scale key => key ++ ascii ": invalid scale"
  | .transform key => key ++ ascii ": invalid transform"
  | .vrr key => key ++ ascii ": invalid vrr"
  | .mirror key => key ++ ascii ": invalid mirror"
  | .overflow => ascii "int too large to convert to float"

/-! ### Values -/

/-- `value.get(key)`, absent and `null` being the same `None`. -/
def getNone (value : PyValue) (key : String) : PyValue :=
  (value.field? (ascii key)).getD .null

def isDict : PyValue → Bool
  | .obj _ => true
  | _ => false

/-- `value == "..."` -/
def isText (value : PyValue) (text : String) : Bool :=
  match value with
  | .str s => s == ascii text
  | _ => false

/-- `low <= value <= high` of a number. -/
def within (number : PyNumber) (low high : ℚ) : Bool :=
  match number with
  | .int z => low ≤ z && z ≤ high
  | .float (.fin d) => low ≤ d.val && d.val ≤ high
  | .float _ => false

def isInt (value : PyValue) (low high : ℚ) : Except Problem Bool :=
  match value with
  | .num (.int z) =>
      match Number.ofRat z with
      | .fin _ => .ok (within (.int z) low high)
      | _ => .error .overflow
  | .num (.float (.fin d)) =>
      .ok (d.val = ⌊d.val⌋ && within (.float (.fin d)) low high)
  | _ => .ok false

def isNumber (value : PyValue) (low high : ℚ) : Bool :=
  match value with
  | .num number => within number low high
  | _ => false

/-- `str.isspace` -/
def isSpace (c : Nat) : Bool :=
  (9 ≤ c && c ≤ 13) || (28 ≤ c && c ≤ 32) || c == 0x85 || c == 0xa0 ||
    c == 0x1680 || (0x2000 ≤ c && c ≤ 0x200a) || c == 0x2028 || c == 0x2029 ||
    c == 0x202f || c == 0x205f || c == 0x3000

/-- `str.strip` -/
def strip (s : Text) : Text := trimWith isSpace s

/-- `CONTROL.search` -/
def hasControl (s : Text) : Bool := s.any fun c => c ≤ 0x1f || c == 0x7f

/-- `CONNECTOR.match`: the `$` also matches before a final line break. -/
def matchesConnector (s : Text) : Bool :=
  let name := if s.getLast? = some 10 then s.dropLast else s
  name != [] && name.all Lua.isConnectorUnit && name.length ≤ 64

def validKey (key : Text) : Bool :=
  if Lua.isDesc key then
    key.length ≤ 261 && key.drop 5 != [] && strip (key.drop 5) == key.drop 5 &&
      !hasControl (key.drop 5)
  else matchesConnector key

/-- `valid_key` on a value of any type. -/
def validKeyValue : PyValue → Bool
  | .str key => validKey key
  | _ => false

/-! ### Entries -/

/-- Raise unless the condition holds. -/
def require (problem : Problem) (condition : Bool) : Except Problem Unit :=
  if condition then .ok () else .error problem

/-- `len(description.encode()) <= 256`; a surrogate cannot be encoded. -/
def fitsDescription (description : Text) : Bool :=
  match Utf8.encode description with
  | some bytes => bytes.length ≤ 256
  | none => false

def checkDescription (key : Text) (entry : PyValue) : Except Problem Unit :=
  require (.description key) <|
    match getNone entry "description" with
    | .null => true
    | .str description => fitsDescription description && !hasControl description
    | _ => false

def checkConnector (key : Text) (entry : PyValue) : Except Problem Unit :=
  require (.connector key) <|
    match getNone entry "connector" with
    | .null => true
    | .str connector => matchesConnector connector
    | _ => false

/-- `entry.get('enabled', True)` -/
def enabledOf (entry : PyValue) : Option Bool :=
  match entry.field? (ascii "enabled") with
  | none => some true
  | some (.bool enabled) => some enabled
  | some _ => none

def checkCompanions (key : Text) (entry : PyValue) : Except Problem Unit :=
  match getNone entry "disabledWith" with
  | .arr companions =>
      if 1 ≤ companions.length ∧ companions.length ≤ 16 then
        require (.companion key) (companions.all fun other =>
          match other with
          | .str other => validKey other && other != key
          | _ => false)
      else .error (.companionCount key)
  | _ => .error (.companionCount key)

def checkEnabled (key : Text) (entry : PyValue) : Except Problem Unit :=
  match enabledOf entry with
  | none => .error (.enabled key)
  | some true => .ok ()
  | some false => checkCompanions key entry

/-- Both integers lie in their range; the second is not looked at otherwise. -/
def bothInts (first second : PyValue) (low high : ℚ) : Except Problem Bool :=
  match isInt first low high with
  | .ok true => isInt second low high
  | result => result

def checkMode (key : Text) (entry : PyValue) : Except Problem Unit :=
  match getNone entry "mode" with
  | .null => .ok ()
  | .obj fields => do
      let sized ← bothInts (getNone (.obj fields) "width")
        (getNone (.obj fields) "height") 1 16384
      require (.mode key) (sized && isNumber (getNone (.obj fields) "refresh") 1 1000)
  | mode => require (.mode key) (isText mode "preferred")

def checkPosition (key : Text) (entry : PyValue) : Except Problem Unit :=
  match getNone entry "position" with
  | .null => .ok ()
  | .obj fields => do
      let placed ← bothInts (getNone (.obj fields) "x") (getNone (.obj fields) "y")
        (-65536) 65536
      require (.position key) placed
  | position => require (.position key) (isText position "auto")

def checkScale (key : Text) (entry : PyValue) : Except Problem Unit :=
  require (.scale key) <|
    match getNone entry "scale" with
    | .null => true
    | scale => isText scale "auto" || isNumber scale (1 / 4) 10

/-- The two small integer fields, `transform` and `vrr`. -/
def checkInteger (name : String) (high : ℚ) (problem : Problem)
    (entry : PyValue) : Except Problem Unit :=
  match entry.field? (ascii name) with
  | none => .ok ()
  | some value => do
      let small ← isInt value 0 high
      require problem small

def checkTransform (key : Text) (entry : PyValue) : Except Problem Unit :=
  checkInteger "transform" 7 (.transform key) entry

def checkVrr (key : Text) (entry : PyValue) : Except Problem Unit :=
  checkInteger "vrr" 3 (.vrr key) entry

def checkMirror (key : Text) (entry : PyValue) : Except Problem Unit :=
  require (.mirror key) <|
    match getNone entry "mirror" with
    | .null => true
    | .str mirror => (mirror == [] || validKey mirror) && mirror != key
    | _ => false

def validateEntry (key : Text) (entry : PyValue) : Except Problem Unit := do
  require (.identifier key) (validKey key)
  require (.entryNotObject key) (isDict entry)
  checkDescription key entry
  checkConnector key entry
  checkEnabled key entry
  checkMode key entry
  checkPosition key entry
  checkScale key entry
  checkTransform key entry
  checkVrr key entry
  checkMirror key entry

/-! ### Documents -/

/-- `document.get('v') == 1` of a number. -/
def isOne (value : PyValue) : Bool :=
  match value with
  | .num (.int z) => z = 1
  | .num (.float (.fin d)) => d.val = 1
  | _ => false

/-- The items of a dictionary. -/
def fieldsOf : PyValue → Option (List (Text × PyValue))
  | .obj fields => some fields
  | _ => none

def validateEntries : List (Text × PyValue) → Except Problem Unit
  | [] => .ok ()
  | (key, entry) :: rest => do
      validateEntry key entry
      validateEntries rest

/-- `validate_document`: the document itself, or the first problem in key
order. -/
def validateDocument (document : PyValue) : Except Problem PyValue :=
  if !isDict document then .error .notObject
  else if !isOne (getNone document "v") then .error .version
  else
    match fieldsOf ((document.field? (ascii "monitors")).getD (.obj [])) with
    | none => .error .monitorsNotObject
    | some monitors =>
        if MAX_ENTRIES < monitors.length then .error .tooMany
        else do
          validateEntries (monitors.insertionSort fun a b => a.1 ≤ b.1)
          return document

/-- `encode`: the bytes saved, unless the value cannot be written or is too
large. -/
def encode (document : PyValue) : Option Text :=
  (dumps document).bind fun text =>
    (Utf8.encode (text ++ [10])).bind fun bytes =>
      if bytes.length ≤ 262144 then some bytes else none

end Py

end Displays

end CybexOS
