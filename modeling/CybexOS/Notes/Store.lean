/-
The Notes records (`NotesHelpers.js`): strict parsing of the state file, its
serialization, and the operations on the record list.
-/
import CybexOS.Notes.Title
import Mathlib.Data.List.Sort

namespace CybexOS

namespace Notes

open Json (Value JsValue jsonParse jsonStringify truthy)

/-- A note; its timestamps are whole milliseconds. -/
@[ext]
structure Record where
  id : Text
  title : Text
  body : Text
  createdAt : Nat
  updatedAt : Nat
deriving DecidableEq, Repr

/-! ### Validity -/

/-- `Number.MAX_SAFE_INTEGER` -/
def MAX_TIMESTAMP : Nat := 9007199254740991

def isIdUnit (c : Nat) : Bool :=
  isAlnum c || c == 46 || c == 95 || c == 58 || c == 45

/-- `ID_PATTERN` -/
def validId (id : Text) : Bool :=
  match id with
  | [] => false
  | c :: rest => isAlnum c && rest.all isIdUnit && rest.length ≤ 127

def isBlank (body : Text) : Bool := jsTrim body == []

/-- The string a value is, if it is one. -/
def stringOf : JsValue → Option Text
  | .str text => some text
  | _ => none

/-- `validTimestamp`, with the whole number it accepts. -/
def validTimestamp : JsValue → Option Nat
  | .num (.fin d) =>
      if 0 ≤ d.val ∧ (⌊d.val⌋ : ℚ) = d.val ∧ d.val ≤ MAX_TIMESTAMP then
        some ⌊d.val⌋.toNat
      else none
  | _ => none

/-- The fields of an object that has only these keys. -/
def hasOnlyKeys (value : JsValue) (keys : List Text) : Bool :=
  match value with
  | .obj fields =>
      (fields.map Prod.fst).insertionSort (· ≤ ·) = keys.insertionSort (· ≤ ·)
  | _ => false

def RECORD_KEYS : List Text :=
  [ascii "id", ascii "title", ascii "body", ascii "createdAt", ascii "updatedAt"]

def LEGACY_RECORD_KEYS : List Text :=
  [ascii "id", ascii "body", ascii "createdAt", ascii "updatedAt"]

/-- The checks that both schema versions share, on a record with a title. -/
def readRecord (value : JsValue) (title : Text) : Option Record :=
  match (value.field? (ascii "id")).bind stringOf,
      (value.field? (ascii "body")).bind stringOf,
      (value.field? (ascii "createdAt")).bind validTimestamp,
      (value.field? (ascii "updatedAt")).bind validTimestamp with
  | some id, some body, some createdAt, some updatedAt =>
      if validId id && !isBlank body && decide (createdAt ≤ updatedAt) then
        some ⟨id, title, body, createdAt, updatedAt⟩
      else none
  | _, _, _, _ => none

/-- The record that a valid value holds. -/
def validRecord (value : JsValue) : Option Record :=
  if hasOnlyKeys value RECORD_KEYS then
    match (value.field? (ascii "title")).bind stringOf with
    | some title => if validTitle title then readRecord value title else none
    | none => none
  else none

/-- A valid record of the first schema, with the title it is migrated to. -/
def validLegacyRecord (value : JsValue) : Option Record :=
  if hasOnlyKeys value LEGACY_RECORD_KEYS then
    (readRecord value []).map fun record =>
      { record with title := fallbackTitle record.body }
  else none

/-- A whole number as a value. -/
def natValue (n : Nat) : JsValue := .num (Number.ofRat n)

def Record.toValue (record : Record) : JsValue :=
  .obj [(ascii "id", .str record.id), (ascii "title", .str record.title),
    (ascii "body", .str record.body),
    (ascii "createdAt", natValue record.createdAt),
    (ascii "updatedAt", natValue record.updatedAt)]

/-! ### The state file -/

/-- Newest edits lead; equal timestamps fall back to creation and id. -/
def compareRecords (left right : Record) : ℤ :=
  if left.updatedAt ≠ right.updatedAt then right.updatedAt - left.updatedAt
  else if left.createdAt ≠ right.createdAt then right.createdAt - left.createdAt
  else if left.id < right.id then -1
  else if right.id < left.id then 1 else 0

/-- The order `sort` keeps equal elements in. -/
def NotAfter (left right : Record) : Prop := compareRecords left right ≤ 0

instance : DecidableRel NotAfter := fun _ _ => inferInstanceAs (Decidable (_ ≤ _))

def sortRecords (records : List Record) : List Record :=
  records.insertionSort NotAfter

/-- Check from one index on; the ids seen before may not come again. -/
def validateFrom (valid : JsValue → Option Record) (index : Nat)
    (seen : List Text) : List JsValue → Except Text (List Record)
  | [] => .ok []
  | value :: rest =>
      match valid value with
      | none => .error (ascii "invalid note at index " ++ digitsOf index)
      | some record =>
          if seen.contains record.id then .error (ascii "duplicate note id")
          else (validateFrom valid (index + 1) (record.id :: seen) rest).map
            (record :: ·)

def validateRecords (notes : Option JsValue) (legacy : Bool) :
    Except Text (List Record) :=
  match notes with
  | some (.arr values) =>
      validateFrom (if legacy then validLegacyRecord else validRecord) 0 [] values
  | _ => .error (ascii "notes is not an array")

/-- A state file that could be read. -/
structure State where
  records : List Record
  migrated : Bool
deriving DecidableEq, Repr

def isNumber (value : Option JsValue) (n : Nat) : Bool :=
  match value with
  | some (.num (.fin d)) => d.val = n
  | _ => false

/-- `parseState`; an error is the status `corrupt`. -/
def parseState (text : Text) : Except Text State :=
  if jsTrim text = [] then .error (ascii "Empty Notes state")
  else
    match jsonParse text with
    | none => .error (ascii "Invalid JSON")
    | some parsed =>
        let v := parsed.field? (ascii "v")
        if !hasOnlyKeys parsed [ascii "v", ascii "notes"] ||
            (!isNumber v 2 && !isNumber v 1) then
          .error (ascii "Unsupported Notes state")
        else
          let migrated := isNumber v 1
          (validateRecords (parsed.field? (ascii "notes")) migrated).map
            fun records => ⟨sortRecords records, migrated⟩

/-- `serializeState`; an error is what it throws. -/
def serializeState (records : List Record) : Except Text Text :=
  (validateRecords (some (.arr (records.map Record.toValue))) false).map
    fun checked =>
      jsonStringify (.obj [(ascii "v", natValue 2),
        (ascii "notes", .arr ((sortRecords checked).map Record.toValue))]) ++ [10]

/-! ### Operations -/

/-- What an operation returns: the next records and the record concerned. -/
structure Outcome where
  changed : Bool
  records : List Record
  record : Option Record := none
  deleted : Option Record := none
deriving DecidableEq, Repr

/-- Whether a record has this id; only a string is the id of one. -/
def Record.hasId (record : Record) (id : JsValue) : Bool :=
  stringOf id == some record.id

def findRecord (records : List Record) (id : JsValue) : Option Record :=
  records.find? (·.hasId id)

/-- `normalizeTitle` of any value. -/
def titleOf (title : JsValue) : Text := ((stringOf title).map normalizeTitle).getD []

def orUntitled (title : Text) : Text := if title = [] then UNTITLED_TITLE else title

def unchanged (records : List Record) (record : Option Record) : Outcome :=
  ⟨false, sortRecords records, record, none⟩

/-- The text of a body that is not blank. -/
def bodyOf (body : JsValue) : Option Text :=
  (stringOf body).bind fun text => if isBlank text then none else some text

def addRecord (records : List Record) (body id now title : JsValue) : Outcome :=
  match bodyOf body, stringOf id, validTimestamp now with
  | some body, some id, some now =>
      if !validId id || (findRecord records (.str id)).isSome then
        unchanged records none
      else
        let record : Record := ⟨id, orUntitled (titleOf title), body, now, now⟩
        ⟨true, sortRecords (records ++ [record]), some record, none⟩
  | _, _, _ => unchanged records none

/-- Rewrite the records of one id; the last one rewritten is returned. -/
def rewrite (records : List Record) (id : JsValue) (update : Record → Record) :
    Outcome :=
  ⟨true, sortRecords (records.map fun record =>
      if record.hasId id then update record else record),
    ((records.filter (·.hasId id)).map update).getLast?, none⟩

def removeRecord (records : List Record) (id : JsValue) : Outcome :=
  match findRecord records id with
  | none => unchanged records none
  | some deleted =>
      ⟨true, sortRecords (records.filter fun record => !record.hasId id), none,
        some deleted⟩

def updateRecord (records : List Record) (id body now : JsValue) : Outcome :=
  match bodyOf body with
  | none => removeRecord records id
  | some body =>
      match validTimestamp now with
      | none => unchanged records none
      | some now =>
          match findRecord records id with
          | none => unchanged records none
          | some found =>
              if found.body = body then unchanged records (some found)
              else rewrite records id fun record =>
                { record with body := body, updatedAt := max now record.updatedAt }

def updateTitleRecord (records : List Record) (id title now : JsValue) : Outcome :=
  match validTimestamp now with
  | none => unchanged records none
  | some now =>
      match findRecord records id with
      | none => unchanged records none
      | some found =>
          let normalized := orUntitled (titleOf title)
          if normalized = found.title then unchanged records (some found)
          else rewrite records id fun record =>
            { record with
              title := normalized, updatedAt := max now record.updatedAt }

def applyGeneratedTitle (records : List Record) (id title : JsValue) : Outcome :=
  let normalized := titleOf title
  match findRecord records id with
  | none => unchanged records none
  | some found =>
      if normalized = [] ∨ normalized = found.title then
        unchanged records (some found)
      else rewrite records id fun record => { record with title := normalized }

def restoreDeleted (records : List Record) (deleted : JsValue) : Outcome :=
  match validRecord deleted with
  | none => unchanged records none
  | some record =>
      if (findRecord records (.str record.id)).isSome then unchanged records none
      else ⟨true, sortRecords (records ++ [record]), some record, none⟩

/-- A blank existing note is a deletion; a blank draft stays nothing. -/
def commitDraft (records : List Record) (id body now newId : JsValue) : Outcome :=
  match bodyOf body with
  | none => if truthy id then removeRecord records id else unchanged records none
  | some _ =>
      if truthy id then updateRecord records id body now
      else addRecord records body newId now .null

end Notes

end CybexOS
