/-
Whether the root filesystem is encrypted (`cybexos-login-prepare`), by what
`findmnt`, `btrfs` and `lsblk` print of it.
-/
import CybexOS.Decimal
import CybexOS.Displays.PyValidate
import CybexOS.Regex
import CybexOS.Words

namespace CybexOS

namespace Login

open Displays.Py (isSpace)
open Json (PyValue)
open Regex (Item findAll)

/-- An exception by its class. -/
inductive Exc where
  | os
  | value
  | key
  | type
  | subprocess
  | attribute
deriving DecidableEq

/-- What Python does with texts: JSON, integers, lower case, units of words. -/
structure Python where
  loads : Text → Option PyValue
  int : Text → Option ℤ
  lower : Text → Text
  isWord : ℕ → Bool

/-- What the commands print, or the exception that they raise. -/
structure Devices where
  findmnt : Except Exc Text
  btrfs : Except Exc Text
  lsblk : Text → Except Exc Text

/-! ### Backing devices -/

def isCrypt : PyValue → Bool
  | .obj fields =>
      match fields.lookup (ascii "type") with
      | some (.str text) => text == ascii "crypt"
      | _ => false
  | _ => false

def isZero : Json.PyNumber → Bool
  | .int value => value == 0
  | .float (.fin value) => value.val == 0
  | .float _ => false

mutual

/-- `encrypted_paths`; only lists are made of devices. -/
def encryptedPaths : PyValue → Except Exc Bool
  | .arr nodes => if nodes.isEmpty then .ok false else allEncrypted nodes
  | .obj fields => if fields.isEmpty then .ok false else .error .attribute
  | .str text => if text.isEmpty then .ok false else .error .attribute
  | .num number => if isZero number then .ok false else .error .type
  | .bool value => if value then .error .type else .ok false
  | .null => .ok false

def allEncrypted : List PyValue → Except Exc Bool
  | [] => .ok true
  | node :: nodes => do
      let encrypted ← encryptedNode node
      if encrypted then allEncrypted nodes else pure false

def encryptedNode : PyValue → Except Exc Bool
  | .obj fields => if isCrypt (.obj fields) then .ok true else encryptedChildren fields
  | _ => .error .attribute

/-- `encrypted_paths(node.get('children', []))` -/
def encryptedChildren : List (Text × PyValue) → Except Exc Bool
  | [] => .ok false
  | (key, value) :: fields =>
      if ascii "children" == key then encryptedPaths value else encryptedChildren fields

end

/-! ### Members of a Btrfs filesystem -/

def notLineBreak (c : ℕ) : Bool := c != 10

def notSpace (c : ℕ) : Bool := !isSpace c

def isUuidUnit (c : ℕ) : Bool := isDigit c || (97 ≤ c && c ≤ 102) || (65 ≤ c && c ≤ 70) || c == 45

/-- `^\s*Total devices ([0-9]+) FS bytes used [0-9]+\s*$` -/
def TOTAL : List Item :=
  [.lineStart, .many isSpace 0, .lit (ascii "Total devices "), .many isDigit 1,
    .lit (ascii " FS bytes used "), .many isDigit 1, .many isSpace 0, .lineEnd]

/-- `^\s*devid\s+([0-9]+)\s+size\s+[0-9]+\s+used\s+[0-9]+\s+path\s+(/dev/\S+)\s*$` -/
def DEVICE : List Item :=
  [.lineStart, .many isSpace 0, .lit (ascii "devid"), .many isSpace 1, .many isDigit 1,
    .many isSpace 1, .lit (ascii "size"), .many isSpace 1, .many isDigit 1, .many isSpace 1,
    .lit (ascii "used"), .many isSpace 1, .many isDigit 1, .many isSpace 1, .lit (ascii "path"),
    .many isSpace 1, .lit (ascii "/dev/"), .many notSpace 1, .many isSpace 0, .lineEnd]

/-- `^Label:.*\buuid: [0-9a-fA-F-]{36}\s*$` -/
def HEADER (isWord : ℕ → Bool) : List Item :=
  [.lineStart, .lit (ascii "Label:"), .many notLineBreak 0, .wordEdge isWord,
    .lit (ascii "uuid: "), .times isUuidUnit 36, .many isSpace 0, .lineEnd]

/-- The group of a match of `TOTAL`. -/
def totalOf (pieces : List Text) : Text := pieces.getD 3 []

/-- The groups of a match of `DEVICE`. -/
def devidOf (pieces : List Text) : Text := pieces.getD 4 []

def pathOf (pieces : List Text) : Text := pieces.getD 16 [] ++ pieces.getD 17 []

/-- The text has these units somewhere. -/
def contains (part : Text) (text : Text) : Bool := text.tails.any part.isPrefixOf

/-- `btrfs_members` -/
def btrfsMembers (python : Python) (output : Text) : Except Exc (List Text) :=
  let devices := findAll DEVICE output
  match findAll (HEADER python.isWord) output, findAll TOTAL output with
  | [_], [total] =>
      if devices = [] ∨ devices.length ≠ decimal (totalOf total) ∨
          ¬ (devices.map devidOf).Nodup ∨ ¬ (devices.map pathOf).Nodup ∨
          contains (ascii "missing") (python.lower output) then .error .value
      else .ok (devices.map pathOf)
  | _, _ => .error .value

/-! ### The root -/

/-- `value[key]` -/
def item (value : PyValue) (key : String) : Except Exc PyValue :=
  match value with
  | .obj fields =>
      match fields.lookup (ascii key) with
      | some found => .ok found
      | none => .error .key
  | _ => .error .type

/-- `json.loads` -/
def parse (python : Python) (text : Text) : Except Exc PyValue :=
  match python.loads text with
  | some value => .ok value
  | none => .error .value

/-- `len(mounts) == 1`, and then `mounts[0]`. -/
def onlyOf (mounts : PyValue) : Except Exc (Option PyValue) :=
  match mounts with
  | .arr [mount] => .ok (some mount)
  | .arr _ => .ok none
  | .obj [_] => .error .key
  | .obj _ => .ok none
  | .str [c] => .ok (some (.str [c]))
  | .str _ => .ok none
  | _ => .error .type

def isText (value : PyValue) (text : String) : Bool :=
  match value with
  | .str held => held == ascii text
  | _ => false

/-- `mounts[0]['source'].split('[', 1)[0]` -/
def deviceOf (source : PyValue) : Except Exc Text :=
  match source with
  | .str text => .ok (text.takeWhile (· != 91))
  | _ => .error .attribute

def treeEncrypted (python : Python) (devices : Devices) (member : Text) : Except Exc Bool := do
  let output ← devices.lsblk member
  let value ← parse python output
  let nodes ← item value "blockdevices"
  encryptedPaths nodes

def allTrees (python : Python) (devices : Devices) : List Text → Except Exc Bool
  | [] => .ok true
  | member :: members => do
      let encrypted ← treeEncrypted python devices member
      if encrypted then allTrees python devices members else pure false

def membersOf (python : Python) (devices : Devices) (fstype : PyValue) (device : Text) :
    Except Exc (List Text) :=
  if isText fstype "btrfs" then do
    let output ← devices.btrfs
    btrfsMembers python output
  else .ok [device]

def mountEncrypted (python : Python) (devices : Devices) (mount : PyValue) : Except Exc Bool := do
  let target ← item mount "target"
  if isText target "/" = false then pure false
  else do
    let source ← item mount "source"
    let device ← deviceOf source
    if (ascii "/dev/").isPrefixOf device = false then pure false
    else do
      let fstype ← item mount "fstype"
      let members ← membersOf python devices fstype device
      allTrees python devices members

def rootEncrypted (python : Python) (devices : Devices) : Except Exc Bool := do
  let output ← devices.findmnt
  let value ← parse python output
  let mounts ← item value "filesystems"
  let mount ← onlyOf mounts
  match mount with
  | none => pure false
  | some mount => mountEncrypted python devices mount

/-- `encrypted_root` -/
def encryptedRoot (python : Python) (devices : Devices) : Except Exc Bool :=
  match rootEncrypted python devices with
  | .ok encrypted => .ok encrypted
  | .error .attribute => .error .attribute
  | .error _ => .ok false

end Login

end CybexOS
