/-
The feed rows that wait for their progress line (`addPendingRow` and
`takePendingRow` in `UpdatesHelpers.js`), indexed by package name.
-/
import CybexOS.Dict
import CybexOS.Json.Js
import Mathlib.Data.List.MinMax
import Mathlib.Logic.Function.Basic

namespace CybexOS

namespace Updates

open Json (isArrayIndex)

structure PendingRow where
  index : ℕ
  evr : Text
deriving DecidableEq

/-- The own properties of the table, in the order they were made. -/
abbrev Pending := List (Text × List PendingRow)

def DASH : ℕ := 45

def HAS_OWN_PROPERTY : Text := ascii "hasOwnProperty"

/-- Assigning this name sets the prototype of the table. -/
def PROTO : Text := ascii "__proto__"

def rowMatchesToken (name evr token : Text) : Bool :=
  if token = [] then false
  else
    let key := name ++ DASH :: evr
    if key.length ≤ token.length then
      token.take (key.length + 1) == key ++ ascii "." || token == key
    else key.take token.length == token

/-- `pending.hasOwnProperty(name)`; a row list under that name is no function. -/
def hasOwn (pending : Pending) (name : Text) : Option Bool :=
  if HAS_OWN_PROPERTY ∈ Dict.keys pending then none
  else some (decide (name ∈ Dict.keys pending))

/-- `pending[name]` of an own name, else no rows. -/
def rowsOf (pending : Pending) (name : Text) : List PendingRow := (pending.lookup name).getD []

def addPendingRow (pending : Pending) (name evr : Text) (index : ℕ) : Option Pending := do
  let _ ← hasOwn pending name
  if name = PROTO then return pending
  return Dict.set pending name (rowsOf pending name ++ [⟨index, evr⟩])

/-- The row list is changed in place; an empty one is deleted. -/
def putRows (pending : Pending) (name : Text) (rows : List PendingRow) : Pending :=
  if rows = [] then Dict.pop pending name else Dict.set pending name rows

/-- The index taken and what it leaves; `none` is -1. -/
def takeFromRows (pending : Pending) (name token : Text) : Option (ℕ × Pending) :=
  let rows := rowsOf pending name
  (rows.find? fun row => rowMatchesToken name row.evr token).map fun row =>
    (row.index, putRows pending name (rows.eraseP fun row => rowMatchesToken name row.evr token))

/-- `token.slice(0, at)` for the dashes `at`, while `at > 0`. -/
def candidates (token : Text) : List Text :=
  (((List.range token.length).filter fun at' => token[at']? = some DASH).takeWhile
    fun at' => 0 < at').map fun at' => token.take at'

/-- The loop over the candidates: was one pending, and what was taken. -/
def takeNamed (pending : Pending) (token : Text) :
    List Text → Bool → Option (Bool × Option (ℕ × Pending))
  | [], named => some (named, none)
  | name :: names, named => do
      let own ← hasOwn pending name
      if own then
        let taken := takeFromRows pending name token
        if taken.isSome then return (true, taken)
        takeNamed pending token names true
      else takeNamed pending token names named

/-- `for (var key in pending)`: array indices come first. -/
def forIn (pending : Pending) : Pending :=
  (pending.filter (isArrayIndex ·.1)).insertionSort (fun a b => decimal a.1 ≤ decimal b.1) ++
    pending.filter (!isArrayIndex ·.1)

/-- A matching row of the least index, the first of these, with its name. -/
def bestRow (pending : Pending) (token : Text) : Option (Text × ℕ) :=
  (forIn pending).foldl (fun best item => item.2.foldl (fun best row =>
    if (best.elim true fun held => decide (row.index < held.2)) &&
        rowMatchesToken item.1 row.evr token then some (item.1, row.index) else best) best) none

/-- Raising is `none`, and an index of `none` is -1. -/
def takePendingRow (pending : Pending) (token : Text) : Option (Option ℕ × Pending) :=
  if token = [] then some (none, pending)
  else do
    let (named, taken) ← takeNamed pending token (candidates token) false
    if let some (index, left) := taken then return (some index, left)
    if named then return (none, pending)
    -- every key of the table is tested with `hasOwnProperty` before it is scanned
    if HAS_OWN_PROPERTY ∈ Dict.keys pending then none
    else if let some (bestName, best) := bestRow pending token then
      return (some best, putRows pending bestName
        ((rowsOf pending bestName).eraseP fun row => row.index = best))
    else return (none, pending)

/-- The arguments of a call of `addPendingRow`. -/
structure PendingCall where
  name : Text
  evr : Text
  index : ℕ
deriving DecidableEq

def addRows (calls : List PendingCall) (pending : Pending) : Option Pending :=
  calls.foldlM (fun pending call => addPendingRow pending call.name call.evr call.index) pending

/-! ### What the lookup is for -/

/-- The rows added under a name, in order. -/
def added (calls : List PendingCall) (name : Text) : List PendingRow :=
  (calls.filter (·.name = name)).map fun call => ⟨call.index, call.evr⟩

/-- One row of a name is gone, every other row is in its place. -/
def Removes (rows : Text → List PendingRow) (name : Text) (row : PendingRow)
    (left : Text → List PendingRow) : Prop :=
  ∃ before after, rows name = before ++ row :: after ∧
    left = Function.update rows name (before ++ after)

/-- No row matches and none is taken, or one that matches is. -/
inductive Takes (token : Text) (rows : Text → List PendingRow) :
    Option ℕ → (Text → List PendingRow) → Prop
  | missed (hnone : ∀ name, ∀ row ∈ rows name, rowMatchesToken name row.evr token = false) :
      Takes token rows none rows
  | taken {name : Text} {row : PendingRow} {left : Text → List PendingRow}
      (hremoves : Removes rows name row left)
      (hmatch : rowMatchesToken name row.evr token = true) :
      Takes token rows (some row.index) left

/-- A lookup in a table made of the calls agrees with a scan of the calls. -/
def Agrees (calls : List PendingCall) (token : Text)
    (answer : Option (Option ℕ × Pending)) : Prop :=
  ∃ index left, answer = some (index, left) ∧ Takes token (added calls) index (rowsOf left)

/-! ### Where it goes wrong -/

/-- Some front of the token is a pending name, its rows do not match, and the
token is cut inside the name of another. -/
def Shadowed (pending : Pending) (token : Text) : Prop :=
  (∃ name ∈ candidates token, name ∈ Dict.keys pending) ∧
    (∀ name ∈ candidates token, ∀ row ∈ rowsOf pending name,
      rowMatchesToken name row.evr token = false) ∧
    ∃ name ∈ Dict.keys pending, token <+: name

/-- The token begins with a dash, and under the first name with a matching row
of the least index the first row of that index does not match. -/
def Clash (pending : Pending) (token : Text) : Prop :=
  token.head? = some DASH ∧ ∃ ahead name rows behind, ∃ row wrong : PendingRow,
    forIn pending = ahead ++ (name, rows) :: behind ∧ row ∈ rows ∧
    rowMatchesToken name row.evr token = true ∧
    (∀ item ∈ pending, ∀ other ∈ item.2, rowMatchesToken item.1 other.evr token = true →
      row.index ≤ other.index) ∧
    (∀ item ∈ ahead, ∀ other ∈ item.2, rowMatchesToken item.1 other.evr token = true →
      other.index ≠ row.index) ∧
    rows.find? (fun other => other.index = row.index) = some wrong ∧
    rowMatchesToken name wrong.evr token = false

end Updates

end CybexOS
