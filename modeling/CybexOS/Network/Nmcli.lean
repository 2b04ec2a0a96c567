/-
Reading what nmcli prints (`network-tool.py`): escapes, records of several
lines, the saved profiles, the Wi-Fi scan and the details of a profile.
-/
import CybexOS.Excepts
import CybexOS.Network.Dns
import CybexOS.Number
import CybexOS.PyLines

namespace CybexOS

namespace Network

namespace Nmcli

open Displays.Py (isSpace strip)

def BACKSLASH : ℕ := 92

def COLON : ℕ := 58

def LF : ℕ := 10

/-- What reading may raise; `overflow` is the `OverflowError` of `round`. -/
inductive Failure where
  | tool (error : ToolError)
  | overflow
deriving DecidableEq

def invalid (message : String) : Failure := .tool ⟨ascii "invalid_nmcli", ascii message⟩

/-! ### Fields of a line -/

/-- The locals of `split_escaped`. -/
structure Splitting where
  output : List Text
  current : Text
  escaped : Bool

def Splitting.take (s : Splitting) (char : ℕ) : Splitting :=
  if s.escaped then ⟨s.output, s.current ++ [char], false⟩
  else if char = BACKSLASH then ⟨s.output, s.current, true⟩
  else if char = COLON then ⟨s.output ++ [s.current], [], false⟩
  else ⟨s.output, s.current ++ [char], false⟩

def splitEscaped (value : Text) : Except Failure (List Text) :=
  let s := value.foldl Splitting.take ⟨[], [], false⟩
  if s.escaped then .error (invalid "NetworkManager returned a dangling escape")
  else .ok (s.output ++ [s.current])

def fieldLine (line : Text) : Except Failure (Text × Text) := do
  let parts ← splitEscaped line
  if parts.length < 2 ∨ parts.head? = some [] then
    .error (invalid "NetworkManager returned malformed status")
  else return (parts.headD [], [COLON].intercalate parts.tail)

/-- `output.replace("\r\n", "\n")` -/
def replaceCrLf : Text → Text
  | [] => []
  | 13 :: 10 :: text => 10 :: replaceCrLf text
  | c :: text => c :: replaceCrLf text

/-! ### Records of several lines -/

abbrev Fields := List (Text × List Text)

structure Reading where
  records : List Fields
  current : Option Fields

/-- `records.append(current)`, unless it is `None`. -/
def Reading.closed (r : Reading) : List Fields := r.records ++ r.current.toList

def Reading.line (startKey : Text) (r : Reading) (rawLine : Text) : Except Failure Reading :=
  if rawLine = [] then .ok ⟨r.closed, none⟩
  else do
    let (key, value) ← fieldLine rawLine
    let r : Reading := if key = startKey then ⟨r.closed, some []⟩ else r
    match r.current with
    | none => .error (invalid "NetworkManager returned fields out of order")
    | some current =>
        return ⟨r.records, some (Dict.set current key ((current.lookup key).getD [] ++ [value]))⟩

def multilineRecords (output startKey : Text) : Except Failure (List Fields) := do
  let r ← ((replaceCrLf output).splitOn LF).foldlM (Reading.line startKey) ⟨[], none⟩
  return r.closed

def first (record : Fields) (key : Text) : Text := ((record.lookup key).getD []).headD []

structure Summary where
  name : Text
  uuid : Text
  connectionType : Text
  type : Text
  device : Text
  active : Bool
deriving DecidableEq

/-- A profile of the list; `get` is `first(record, ·)`. -/
def summaryOf (get : Text → Text) : Summary :=
  let connectionType := get (ascii "TYPE")
  let device := get (ascii "DEVICE")
  { name := get (ascii "NAME")
    uuid := get (ascii "UUID")
    connectionType := connectionType
    type := (PHYSICAL_TYPES.lookup connectionType).getD connectionType
    device := if device = ascii "--" then [] else device
    active := ¬(device = [] ∨ device = ascii "--") }

def NAME : Text := ascii "NAME"

def parseProfileSummary (output : Text) : Except Failure (List Summary) := do
  let records ← multilineRecords output NAME
  return records.map fun record => summaryOf (first record)

/-! ### The scan -/

section

-- the value of a decimal digit of any script, and `str.lower`, as the running
-- Python's character tables give them
variable (digit : ℕ → Option ℕ) (lower : Text → Text)

def digitsValue (digits : Text) : ℕ :=
  digits.foldl (fun value c => 10 * value + (digit c).getD 0) 0

/-- `int(text)`, `none` for a `ValueError`. Only a text with a character beyond
ASCII loses the separators U+001C to U+001F at its ends. -/
def int (text : Text) : Option ℤ :=
  let space := fun c => if text.all (· < 128) then c == 32 || (9 ≤ c && c ≤ 13) else isSpace c
  let body := trimWith space text
  let digits := if body.head? = some 45 ∨ body.head? = some 43 then body.tail else body
  let groups := digits.splitOn 95
  if groups.all (fun group => group ≠ [] && group.all fun c => (digit c).isSome) then
    if 4300 < groups.flatten.length then none
    else
      let value : ℤ := digitsValue digit groups.flatten
      some (if body.head? = some 45 then -value else value)
  else none

/-- The number of the first match of `\d+(?:\.\d+)?`. -/
def firstNumber (value : Text) : Option ℚ :=
  let isDigit := fun c => (digit c).isSome
  let found := value.dropWhile fun c => !isDigit c
  if found = [] then none
  else
    let whole := found.takeWhile isDigit
    let rest := found.dropWhile isDigit
    let fraction := if rest.head? = some 46 then rest.tail.takeWhile isDigit else []
    some (digitsValue digit (whole ++ fraction) / 10 ^ fraction.length)

/-- `round(float(number))` -/
def roundFloat (number : ℚ) : Except Failure ℤ :=
  match Number.ofRat number with
  | .fin double => .ok (Binary64.roundEven double.val)
  | _ => .error .overflow

def parseFrequency (value : Text) : Except Failure (Option ℤ) :=
  (firstNumber digit value).mapM roundFloat

/-- The fields of a line of the scan. -/
structure ScanRow where
  inUse : Text
  ssid : Text
  bssid : Text
  signal : Text
  frequency : Text
  security : Text

structure WifiNetwork where
  ssid : Text
  bssid : Text
  signal : ℤ
  frequency : Option ℤ
  security : Text
  connected : Bool
  known : Bool
  profileUuid : Text
  profileName : Text
deriving DecidableEq

/-- The names of Wi-Fi profiles, the last of equal ones. -/
def byName (profiles : List Summary) : List (Text × Summary) :=
  (profiles.filter (·.type = ascii "wifi")).foldl (fun named profile =>
    Dict.set named profile.name profile) []

variable (profiles : List Summary) (activeUuid : Text)

def networkOf (row : ScanRow) : Except Failure WifiNetwork := do
  let profile := (byName profiles).lookup row.ssid
  let strength := ((int digit row.signal).map fun value => max 0 (min 100 value)).getD (-1)
  let connected : Bool := strip row.inUse = ascii "*"
  let frequency ← parseFrequency digit row.frequency
  return {
    ssid := row.ssid
    bssid := lower row.bssid
    signal := strength
    frequency := frequency
    security := row.security
    connected := connected
    known := profile.isSome
    profileUuid := if connected ∧ activeUuid ≠ [] then activeUuid
      else (profile.map Summary.uuid).getD []
    profileName := (profile.map Summary.name).getD [] }

/-- The body of the loop; a network without a name is skipped. -/
def scanLine (line : Text) : Except Failure (Option WifiNetwork) := do
  match ← splitEscaped line with
  | [inUse, ssid, bssid, signal, frequency, security] =>
      if ssid = [] then return none
      return some (← networkOf digit lower profiles activeUuid
        ⟨inUse, ssid, bssid, signal, frequency, security⟩)
  | _ => .error (invalid "NetworkManager returned a malformed Wi-Fi scan")

def parseWifiList (output : Text) : Except Failure (List WifiNetwork) := do
  let networks ← (PyLines.pieces (replaceCrLf output)).mapM
    (scanLine digit lower profiles activeUuid)
  return networks.filterMap id

end

/-! ### Details -/

def detailRecord (output : Text) : Except Failure (List (Text × Text)) :=
  (PyLines.pieces (replaceCrLf output)).foldlM (fun record line => do
    let (key, value) ← fieldLine line
    return Dict.set record key value) []

/-! ### What nmcli prints -/

/-- A backslash before every colon and backslash. -/
def escape (text : Text) : Text :=
  text.flatMap fun c => if c = COLON ∨ c = BACKSLASH then [BACKSLASH, c] else [c]

/-- Escaped fields joined by colons. -/
def terse (fields : List Text) : Text := [COLON].intercalate (fields.map escape)

def ScanRow.fields (row : ScanRow) : List Text :=
  [row.inUse, row.ssid, row.bssid, row.signal, row.frequency, row.security]

/-- One record a line. -/
def scanOutput (rows : List ScanRow) : Text := rows.flatMap fun row => terse row.fields ++ [LF]

/-- One `key:value` a line. -/
def multilineOutput (record : List (Text × Text)) : Text :=
  record.flatMap fun field => terse [field.1, field.2] ++ [LF]

end Nmcli

end Network

end CybexOS
