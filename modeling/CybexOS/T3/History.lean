/-
The detail histories of a T3 thread: the order of their entries, the sorted
copy and the upsert of one entry.
-/
import CybexOS.Json.JsObject
import CybexOS.SortedInsert
import Mathlib.Order.Defs.LinearOrder

namespace CybexOS

namespace T3

open Json

/-! ### Sort keys -/

structure HistoryKey where
  sequence : Option Number
  ms : Option ℤ
  id : Text

/-- `entry && entry[name]`, `none` for undefined. -/
def property (entry : JsValue) (name : Text) : Option JsValue :=
  (objectFields? entry).bind (·.lookup name)

/-- `value === undefined || value === null` -/
def isNullish : Option JsValue → Bool
  | none => true
  | some .null => true
  | some _ => false

/-- `left === right`; two objects read from different messages are never the
same one. -/
def strictEquals : JsValue → JsValue → Bool
  | .null, .null => true
  | .bool left, .bool right => left == right
  | .num left, .num right => left ≠ .nan && left == right
  | .str left, .str right => left == right
  | _, _ => false

/-- `Array.isArray(value) ? value : []` -/
def arrayOf : JsValue → List JsValue
  | .arr items => items
  | _ => []

/-- `value === true` -/
def isTrue (value : Option JsValue) : Bool := value.any (strictEquals · (.bool true))

/-- `value === text` -/
def equalsText (value : Option JsValue) (text : String) : Bool :=
  value.any (strictEquals · (.str (ascii text)))

/-- `typeof value === "string" ? value : absent` -/
def stringOr (value : Option JsValue) (absent : Text) : Text :=
  match value with
  | some (.str text) => text
  | _ => absent

/-- The sign of `left - right`, `none` for NaN. -/
def differenceSign : Number → Number → Option Ordering
  | .fin left, .fin right => some (compare left.val right.val)
  | .inf left, .inf right =>
      if left = right then none else some (if left then .lt else .gt)
  | .inf left, .fin _ => some (if left then .lt else .gt)
  | .fin _, .inf right => some (if right then .gt else .lt)
  | .nan, _ => none
  | _, .nan => none

section

variable (dateParse : Text → Option ℤ) (localeCompare : Text → Text → Ordering)

def parseMs : Option JsValue → Option ℤ
  | some (.str text) => if text ≠ [] then dateParse text else none
  | _ => none

def historySortKey (entry : JsValue) : HistoryKey :=
  let stamp := property entry (ascii "createdAt")
  let stamp := if isNullish stamp then property entry (ascii "updatedAt") else stamp
  let stamp := if isNullish stamp then property entry (ascii "completedAt") else stamp
  { sequence := match property entry (ascii "sequence") with
      | some (.num sequence) => some sequence
      | _ => none
    ms := parseMs dateParse stamp
    id := match property entry (ascii "id") with
      | some (.str id) => id
      | _ => [] }

/-- `left.sequence - right.sequence` where both are there and differ. -/
def compareSequences (left right : HistoryKey) : Option (Option Ordering) :=
  match left.sequence, right.sequence with
  | some a, some b => if a ≠ b ∨ a = .nan then some (differenceSign a b) else none
  | _, _ => none

/-- `left.ms - right.ms` where both are valid and differ. -/
def compareTimes (left right : HistoryKey) : Option Ordering :=
  match left.ms, right.ms with
  | some a, some b => if a ≠ b then some (compare a b) else none
  | _, _ => none

/-- The sign of the comparison, `none` for NaN. -/
def compareHistoryKeys (left right : HistoryKey) : Option Ordering :=
  (compareSequences left right).getD
    (some ((compareTimes left right).getD (localeCompare left.id right.id)))

def compareHistory (left right : JsValue) : Option Ordering :=
  compareHistoryKeys localeCompare (historySortKey dateParse left)
    (historySortKey dateParse right)

/-- `compareHistory(left, right) <= 0` -/
def atMost (left right : JsValue) : Bool :=
  (compareHistory dateParse localeCompare left right).any Ordering.isLE

/-! ### The sorted copy -/

/-- `compareHistoryKeys(left.key, right.key) || left.at - right.at`, not
positive. -/
def decoratedAtMost (left right : JsValue × Nat) : Bool :=
  match compareHistory dateParse localeCompare left.1 right.1 with
  | some .lt => true
  | some .gt => false
  | _ => left.2 ≤ right.2

def sortHistory (values : List JsValue) : List JsValue :=
  (values.zipIdx.insertionSort
    (fun left right => decoratedAtMost dateParse localeCompare left right)).map Prod.fst

/-! ### Upserting -/

/-- The first entry whose id is the one of `value`. -/
def indexOfId (values : List JsValue) (value : JsValue) (idField : Text) : Option Nat :=
  match property value idField with
  | none => none
  | some .null => none
  | some key =>
      values.findIdx? fun entry => (property entry idField).any (strictEquals · key)

def upsertHistory (values : List JsValue) (value : JsValue) (idField : Text) :
    List JsValue :=
  if truthy value then
    match indexOfId values value idField with
    | some i =>
        let afterPrevious := i = 0 ||
          values[i - 1]?.any (atMost dateParse localeCompare · value)
        let beforeNext := i = values.length - 1 ||
          values[i + 1]?.any (atMost dateParse localeCompare value ·)
        if afterPrevious && beforeNext then values.set i value
        else insertAfter (atMost dateParse localeCompare · value) (values.eraseIdx i) value
    | none => insertAfter (atMost dateParse localeCompare · value) values value
  else values

/-! ### The latest versions -/

/-- An entry with the id that the claim of a slot goes by. -/
def entryId? (entry : JsValue) : Option Text :=
  match property entry (ascii "id") with
  | some (.str id) => some id
  | _ => none

/-- Entries that can be told apart by their ids. -/
def DistinctIds (entries : List JsValue) : Prop :=
  (∀ entry ∈ entries, (entryId? entry).isSome) ∧ (entries.map entryId?).Nodup

/-- Put a version in place of the one before it, a new entry at the end. -/
def putLatest (latest : List JsValue) (value : JsValue) : List JsValue :=
  if entryId? value ∈ latest.map entryId? then
    latest.map fun entry => if entryId? entry = entryId? value then value else entry
  else latest ++ [value]

/-- What a snapshot and the upserts after it hold, as they arrived. -/
def latestVersions (snapshot updates : List JsValue) : List JsValue :=
  updates.foldl putLatest snapshot

/-- The comparison orders these entries. -/
def Comparable (entries : List JsValue) : Prop :=
  OrderedOn (fun left right => atMost dateParse localeCompare left right = true) entries

/-- The history after a snapshot and upserts is the sorted copy of the latest
versions, in whatever order they are listed. -/
def FollowsSort (snapshot updates : List JsValue) : Prop :=
  ∀ arrived : List JsValue, arrived.Perm (latestVersions snapshot updates) →
    updates.foldl (upsertHistory dateParse localeCompare · · (ascii "id"))
        (sortHistory dateParse localeCompare snapshot) =
      sortHistory dateParse localeCompare arrived

end

end T3

end CybexOS
