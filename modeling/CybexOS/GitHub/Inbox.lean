/-
The inbox: saved rows and, for each source, the revisions it reported last;
reconciling a page of a source, settling rows and dropping sources.
-/
import CybexOS.GitHub.Snapshot

namespace CybexOS

namespace GitHub

open Json (JsValue isArrayIndex)

abbrev Items := List (Text × Row)

abbrev Revisions := List (Text × Text)

structure Inbox where
  items : Items
  sourceRevisions : List (Text × Revisions)

def MAX_SETTLED_INBOX_ITEMS : Nat := 30

def MAX_INBOX_SOURCES : Nat := 100

def MAX_SOURCE_REVISIONS : Nat := 400

/-! ### Comparing revisions -/

/-- The number before the colon, without leading zeros. -/
def revisionHead (revision : Text) : Text :=
  orText ((revision.takeWhile (· != 58)).dropWhile (· == 48)) (ascii "0")

def revisionCompare (left right : Text) : Ordering :=
  let headA := revisionHead left
  let headB := revisionHead right
  if headA.all isDigit ∧ headB.all isDigit ∧ headA ≠ headB then
    if headA.length ≠ headB.length then compare headA.length headB.length
    else if headB < headA then .gt else .lt
  else if left = right then .eq
  else if right < left then .gt else .lt

section

variable (dateParse : Text → Option ℤ) (localeCompare : Text → Text → Ordering)

/-- Keep the row if it is the newest of its key so far. -/
def putNewest (byKey : Items) (row : Row) : Items :=
  match byKey.lookup row.key with
  | none => Dict.set byKey row.key row
  | some current =>
      if atMs dateParse current < atMs dateParse row ∨ atMs dateParse row = atMs dateParse current ∧
          revisionCompare row.revision current.revision = .gt then
        Dict.set byKey row.key row
      else byKey

/-- The newest row of each key, in the order in which the keys come. -/
def newestEntityRows (rows : List Row) : List Row :=
  (rows.foldl (putNewest dateParse) []).map Prod.snd

/-! ### Normal states -/

/-- The order of settled rows, those settled last coming first. -/
def settledOrder (a b : Text × Row) : Ordering :=
  let time := fun row : Row =>
    dateParse (orText row.settledAt (orText row.noticedAt row.at'))
  let bySnapshot := (compare (atMs dateParse b.2) (atMs dateParse a.2)).then (localeCompare a.1 b.1)
  match time a.2, time b.2 with
  | some left, some right => (compare right left).then bySnapshot
  | _, _ => bySnapshot

def pruneSettledInbox (items : Items) (limit : Nat) : Items :=
  let settled := (items.filter (·.2.lifecycle = .settled)).insertionSort
    fun a b => (settledOrder dateParse localeCompare a b).isLE
  let keep := Dict.keys (settled.take limit)
  items.filter fun item => item.2.lifecycle ≠ .settled ∨ item.1 ∈ keep

/-- Keep the row that a raw one makes. -/
def putSnapshot (out : Items) (raw : JsValue) : Items :=
  match normalizeInboxSnapshot dateParse raw [] with
  | some row => Dict.set out row.key row
  | none => out

/-- The rows of an array, or of the values of an object. -/
def normalizeInboxItems (values : List JsValue) : Items :=
  pruneSettledInbox dateParse localeCompare (values.foldl (putSnapshot dateParse) [])
    MAX_SETTLED_INBOX_ITEMS

def Items.values (items : Items) : List JsValue := items.map (·.2.value)

/-- `object[key] = value`: array indices come first, ascending, and the
prototype is no property. -/
def assign (object : Revisions) (key value : Text) : Revisions :=
  if key = ascii "__proto__" then object
  else
    let next := Dict.set object key value
    (next.filter (isArrayIndex ·.1)).insertionSort (fun a b => decimal a.1 ≤ decimal b.1) ++
      next.filter (!isArrayIndex ·.1)

def normalizeSourceRevisions (value : List (Text × Revisions)) : List (Text × Revisions) :=
  (value.take MAX_INBOX_SOURCES).foldl (fun out item =>
    let source := validInboxSource (some (.str item.1))
    if source = [] then out
    else
      let revisions := (item.2.take MAX_SOURCE_REVISIONS).foldl (fun revisions entry =>
        let revision := cleanText (some (.str entry.2)) 600
        if revision = [] then revisions
        else assign revisions (cleanText (some (.str entry.1)) 600) revision) []
      Dict.set out source revisions) []

/-! ### Reconciling -/

/-- The revisions of the page, then of other rows of the source, then the old
ones, as many as are kept. -/
def sourceRevisionMap (oldMap incoming : Revisions) (items : Items) (source : Text) : Revisions :=
  let keys := Dict.keys incoming ++
    Dict.keys (items.filter (·.2.source = source)) ++ Dict.keys oldMap
  keys.foldl (fun out key =>
    if key ∈ Dict.keys out ∨ key ∈ INHERITED ∨ MAX_SOURCE_REVISIONS ≤ out.length then out
    else
      match (incoming.lookup key).or (oldMap.lookup key) with
      | some revision => if revision = [] then out else assign out key revision
      | none => out) []

/-- The row says what was reported or kept already. -/
def sameRevision (oldMap : Revisions) (existing : Option Row) (row : Row) : Bool :=
  oldMap.lookup row.key = some row.revision || existing.any (·.revision = row.revision)

/-- The kept row is newer. -/
def lagging (source : Text) (existing row : Row) : Bool :=
  atMs dateParse row < atMs dateParse existing ||
    ((ascii "events:").isPrefixOf source && atMs dateParse existing = atMs dateParse row &&
      revisionCompare existing.revision row.revision = .gt)

/-- The row with the lifecycle it gets. -/
def reconciledRow (known same : Bool) (existing : Option Row) (stamp : Text) (row : Row) : Row :=
  let noticed := orText stamp row.at'
  if !known then
    match existing.filter fun existing => !row.active && existing.lifecycle ≠ .active with
    | some existing =>
        { row with
          lifecycle := existing.lifecycle
          noticedAt := existing.noticedAt
          settledAt := existing.settledAt }
    | none =>
        { row with
          lifecycle := if row.active then .active else .settled
          noticedAt := noticed
          settledAt := if row.active then [] else noticed }
  else if row.active then
    { row with
      lifecycle := .active
      noticedAt := existing.elim noticed (·.noticedAt)
      settledAt := [] }
  else
    match existing.filter fun existing => same && existing.lifecycle ≠ .active with
    | some existing =>
        { row with
          lifecycle := existing.lifecycle
          noticedAt := existing.noticedAt
          settledAt := existing.settledAt }
    | none => { row with lifecycle := .unsettled, noticedAt := noticed, settledAt := [] }

/-- One row of a page over the items and the revisions of the rows before it. -/
def reconcileRow (source : Text) (known : Bool) (oldMap : Revisions) (stamp : Text)
    (state : Items × Revisions) (row : Row) : Items × Revisions :=
  let existing := state.1.lookup row.key
  let same := sameRevision oldMap existing row
  match existing.filter fun existing => !same && lagging dateParse source existing row with
  | some existing =>
      let revision := orText ((oldMap.lookup row.key).getD []) existing.revision
      (state.1, state.2 ++ [(row.key, revision)])
  | none =>
      -- a pruned settled row must not be recreated by an unchanged page
      let items := if known && same && existing.isNone && !row.active then state.1
        else Dict.set state.1 row.key (reconciledRow known same existing stamp row)
      (items, state.2 ++ [(row.key, row.revision)])

/-- The rows of a page, the newest of each key. -/
def incomingRows (source : Text) (rows : List JsValue) : List Row :=
  newestEntityRows dateParse (rows.filterMap (normalizeInboxSnapshot dateParse · source))

/-- The items without live workflows that vanished from the page. -/
def withoutVanished (source : Text) (incoming : List Row) (items : Items) : Items :=
  items.filter fun item => !(item.2.source = source && item.2.lifecycle = .active &&
    item.1 ∉ incoming.map Row.key)

/-- Reconcile a page; `none` for rows that are no array.  The flag says that
the source had no baseline. -/
def reconcileInboxSource (inbox : Inbox) (sourceValue : JsValue) (rows : Option (List JsValue))
    (noticedAt : JsValue) : Inbox × Bool :=
  let source := validInboxSource (some sourceValue)
  let items := normalizeInboxItems dateParse localeCompare inbox.items.values
  let revisions := normalizeSourceRevisions inbox.sourceRevisions
  match rows.filter fun _ => source ≠ [] with
  | none => (⟨items, revisions⟩, false)
  | some rows =>
      let known := decide (source ∈ Dict.keys revisions)
      let oldMap := (revisions.lookup source).getD []
      let stamp := cleanStamp dateParse (some noticedAt)
      let incoming := incomingRows dateParse source rows
      let (items, reported) := incoming.foldl (reconcileRow dateParse source known oldMap stamp)
        (withoutVanished source incoming items, [])
      let next := sourceRevisionMap oldMap reported items source
      (⟨pruneSettledInbox dateParse localeCompare items MAX_SETTLED_INBOX_ITEMS,
        Dict.set revisions source next⟩, !known)

/-! ### The user's actions -/

def setInboxSettlement (items : Items) (keyValue : JsValue) (settled : Bool) (at' : JsValue) :
    Items :=
  let items := normalizeInboxItems dateParse localeCompare items.values
  let key := cleanText (some keyValue) 600
  match (items.lookup key).filter Row.canSettle with
  | none => items
  | some row =>
      let copy := { row with
        lifecycle := if settled then .settled else .unsettled
        settledAt := if settled then
          orText (cleanStamp dateParse (some at')) (orText row.settledAt row.noticedAt) else [] }
      pruneSettledInbox dateParse localeCompare (Dict.set items key copy) MAX_SETTLED_INBOX_ITEMS

/-- A row that the user settles with all others. -/
def settleRow (stamp : Text) (row : Row) : Row :=
  if row.canSettle ∧ row.lifecycle = .unsettled then
    { row with lifecycle := .settled, settledAt := orText stamp (orText row.noticedAt row.at') }
  else row

def settleAllInboxItems (items : Items) (at' : JsValue) : Items :=
  let items := normalizeInboxItems dateParse localeCompare items.values
  let stamp := cleanStamp dateParse (some at')
  pruneSettledInbox dateParse localeCompare
    (items.map fun item => (item.1, settleRow stamp item.2)) MAX_SETTLED_INBOX_ITEMS

/-- `typeof prefix === "string" ? prefix : ""` -/
def wantedPrefix : JsValue → Text
  | .str text => text
  | _ => []

def removeInboxSources (inbox : Inbox) (start : JsValue) : Inbox :=
  let items := normalizeInboxItems dateParse localeCompare inbox.items.values
  let revisions := normalizeSourceRevisions inbox.sourceRevisions
  let wanted := wantedPrefix start
  ⟨items.filter fun item => !(wanted.isPrefixOf item.2.source && item.2.lifecycle = .active),
    revisions.filter fun entry => !wanted.isPrefixOf entry.1⟩

end

end GitHub

end CybexOS
