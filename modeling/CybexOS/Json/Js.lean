/-
`JSON.parse` and `JSON.stringify(value, null, 2)` of ECMAScript on values
whose strings are UTF-16 code units.
-/
import CybexOS.Json.JsNumber
import Mathlib.Data.List.Sort

namespace CybexOS

namespace Json

abbrev JsValue := Value Number

/-- `Boolean(value)` -/
def truthy : JsValue → Bool
  | .null => false
  | .bool value => value
  | .num (.fin d) => d.val ≠ 0
  | .num (.inf _) => true
  | .num .nan => false
  | .str text => text ≠ []
  | .arr _ => true
  | .obj _ => true

/-! ### Strings -/

/-- The code unit a piece stands for. -/
def Piece.unit : Piece → Nat
  | .lit unit => unit
  | .hex unit => unit

def isHighSurrogate (c : Nat) : Bool := 0xd800 ≤ c && c ≤ 0xdbff

def isLowSurrogate (c : Nat) : Bool := 0xdc00 ≤ c && c ≤ 0xdfff

/-- A unit on its own: control characters without a short escape and lone
surrogates are written by their value. -/
def quoteUnit (c : Nat) : Piece :=
  if c ∈ [8, 9, 10, 12, 13] then .lit c
  else if c < 32 ∨ isHighSurrogate c ∨ isLowSurrogate c then .hex c
  else .lit c

/-- `QuoteJSONString`: surrogate pairs stay as they are. -/
def quoteUnits : Text → List Piece
  | [] => []
  | [c] => [quoteUnit c]
  | c :: d :: rest =>
      if isHighSurrogate c && isLowSurrogate d then
        .lit c :: .lit d :: quoteUnits rest
      else quoteUnit c :: quoteUnits (d :: rest)

@[simp]
theorem quoteUnit_unit (c : Nat) : (quoteUnit c).unit = c := by
  unfold quoteUnit
  split_ifs <;> rfl

theorem quoteUnit_printable (c : Nat) : (quoteUnit c).Printable := by
  unfold quoteUnit
  split_ifs with hshort hescape
  · exact Or.inr hshort
  · simp only [isHighSurrogate, isLowSurrogate, Bool.and_eq_true,
      decide_eq_true_eq] at hescape
    simp only [Piece.Printable]
    omega
  · exact Or.inl (by omega)

theorem quoteUnits_unit (s : Text) : (quoteUnits s).map Piece.unit = s := by
  induction s using quoteUnits.induct with
  | case1 => rfl
  | case2 c => simp [quoteUnits]
  | case3 c d rest hpair ih => simp [quoteUnits, hpair, ih, Piece.unit]
  | case4 c d rest hpair ih => simp [quoteUnits, hpair, ih]

theorem quoteUnits_printable (s : Text) :
    ∀ piece ∈ quoteUnits s, piece.Printable := by
  induction s using quoteUnits.induct with
  | case1 => simp [quoteUnits]
  | case2 c => simpa [quoteUnits] using quoteUnit_printable c
  | case3 c d rest hpair ih =>
      rw [quoteUnits, if_pos hpair, List.forall_mem_cons, List.forall_mem_cons]
      simp only [isHighSurrogate, isLowSurrogate, Bool.and_eq_true,
        decide_eq_true_eq] at hpair
      exact ⟨Or.inl (by omega), Or.inl (by omega), ih⟩
  | case4 c d rest hpair ih =>
      rw [quoteUnits, if_neg hpair, List.forall_mem_cons]
      exact ⟨quoteUnit_printable c, ih⟩

/-! ### Objects -/

/-- Assign a property: a new one goes last, an old one keeps its place. -/
def setMember (fields : List (Text × JsValue)) (member : Text × JsValue) :
    List (Text × JsValue) :=
  if member.1 ∈ fields.map Prod.fst then
    fields.map fun field => if field.1 = member.1 then member else field
  else fields ++ [member]

/-- An array index: a canonical number below `2 ^ 32 - 1`. -/
def isArrayIndex (key : Text) : Bool :=
  key.all isDigit && key == digitsOf (decimal key) && decimal key < 2 ^ 32 - 1

/-- Own property order: array indices first, ascending, then by creation. -/
def ownOrder (fields : List (Text × JsValue)) : List (Text × JsValue) :=
  (fields.filter (isArrayIndex ·.1)).insertionSort
      (fun a b => decimal a.1 ≤ decimal b.1) ++
    fields.filter (!isArrayIndex ·.1)

/-- The object a member list makes: the last of equal keys counts. -/
def jsObject (members : List (Text × JsValue)) : List (Text × JsValue) :=
  ownOrder (members.foldl setMember [])

theorem setMember_new {fields : List (Text × JsValue)} {member : Text × JsValue}
    (h : member.1 ∉ fields.map Prod.fst) :
    setMember fields member = fields ++ [member] := if_neg h

/-- Distinct keys are all kept, in their order. -/
theorem foldl_setMember {members fields : List (Text × JsValue)}
    (h : ((fields ++ members).map Prod.fst).Nodup) :
    members.foldl setMember fields = fields ++ members := by
  induction members generalizing fields with
  | nil => simp
  | cons member members ih =>
      have hnew : member.1 ∉ fields.map Prod.fst := by
        intro hmem
        rw [List.map_append, List.nodup_append] at h
        exact h.2.2 _ hmem _ (by simp) rfl
      rw [List.foldl_cons, setMember_new hnew, ih] <;> simp_all

/-- The member list of an object: distinct keys in own property order. -/
def OwnOrdered (fields : List (Text × JsValue)) : Prop :=
  (fields.map Prod.fst).Nodup ∧ ownOrder fields = fields

theorem jsObject_of_ownOrdered {fields : List (Text × JsValue)}
    (h : OwnOrdered fields) : jsObject fields = fields := by
  rw [jsObject, foldl_setMember (by simpa using h.1), List.nil_append]
  exact h.2

/-- Objects without array indices keep the order of their members. -/
theorem ownOrdered_of_names {fields : List (Text × JsValue)}
    (hkeys : (fields.map Prod.fst).Nodup)
    (hnames : ∀ field ∈ fields, isArrayIndex field.1 = false) :
    OwnOrdered fields := by
  refine ⟨hkeys, ?_⟩
  have hindices : fields.filter (isArrayIndex ·.1) = [] :=
    List.filter_eq_nil_iff.mpr fun field hfield => by simp [hnames field hfield]
  have hothers : fields.filter (!isArrayIndex ·.1) = fields :=
    List.filter_eq_self.mpr fun field hfield => by simp [hnames field hfield]
  rw [ownOrder, hindices, hothers]
  rfl

/-! ### Reading and writing -/

/-- How `JSON.parse` reads strings, numbers and objects. -/
def jsDialect : Dialect Number where
  text := fun pieces => some (pieces.map Piece.unit)
  number := fun numeral => some numeral.toNumber
  object := fun members => some (jsObject members)

def jsonParse (s : Text) : Option JsValue := jsDialect.read s

mutual

/-- Numbers that are not finite are written as `null`. -/
def JsValue.toTerm : JsValue → Term
  | .null => .null
  | .bool value => .bool value
  | .num (.fin d) => .num (numberNumeral d.val)
  | .num _ => .null
  | .str text => .str (quoteUnits text)
  | .arr items => .arr (itemsToTerms items)
  | .obj fields => .obj (fieldsToTerms fields)

def itemsToTerms : List JsValue → List Term
  | [] => []
  | item :: items => JsValue.toTerm item :: itemsToTerms items

def fieldsToTerms : List (Text × JsValue) → List (List Piece × Term)
  | [] => []
  | (key, value) :: fields =>
      (quoteUnits key, JsValue.toTerm value) :: fieldsToTerms fields

end

/-- `JSON.stringify(value, null, 2)` -/
def jsonStringify (value : JsValue) : Text := (JsValue.toTerm value).print 0

/-- Values that a text can hold: finite numbers, and objects as they are. -/
inductive Storable : JsValue → Prop
  | null : Storable .null
  | bool (value : Bool) : Storable (.bool value)
  | num (d : Double) : Storable (.num (.fin d))
  | str (text : Text) : Storable (.str text)
  | arr (items : List JsValue) (h : ∀ item ∈ items, Storable item) :
      Storable (.arr items)
  | obj (fields : List (Text × JsValue)) (hordered : OwnOrdered fields)
      (h : ∀ field ∈ fields, Storable field.2) : Storable (.obj fields)

theorem itemsToTerms_eq (items : List JsValue) :
    itemsToTerms items = items.map JsValue.toTerm := by
  induction items with
  | nil => simp [itemsToTerms]
  | cons item items ih => simp [itemsToTerms, ih]

theorem fieldsToTerms_eq (fields : List (Text × JsValue)) :
    fieldsToTerms fields =
      fields.map fun field => (quoteUnits field.1, JsValue.toTerm field.2) := by
  induction fields with
  | nil => simp [fieldsToTerms]
  | cons field fields ih =>
      obtain ⟨key, value⟩ := field
      simp [fieldsToTerms, ih]

theorem toTerm_printable (value : JsValue) : (JsValue.toTerm value).Printable := by
  induction value using Value.induct with
  | null => rw [JsValue.toTerm]; exact .null
  | bool value => rw [JsValue.toTerm]; exact .bool value
  | num number =>
      cases number with
      | fin d =>
          rw [JsValue.toTerm]
          exact .num _ (numberNumeral_wellFormed d.exact)
      | inf neg => rw [JsValue.toTerm] <;> first | exact .null | simp
      | nan => rw [JsValue.toTerm] <;> first | exact .null | simp
  | str text =>
      rw [JsValue.toTerm]
      exact .str _ (quoteUnits_printable text)
  | arr items ih =>
      rw [JsValue.toTerm, itemsToTerms_eq]
      refine .arr _ fun term hterm => ?_
      obtain ⟨item, hitem, rfl⟩ := List.mem_map.mp hterm
      exact ih item hitem
  | obj fields ih =>
      rw [JsValue.toTerm, fieldsToTerms_eq]
      refine .obj _ (fun field hfield => ?_) fun field hfield => ?_
      · obtain ⟨member, -, rfl⟩ := List.mem_map.mp hfield
        exact quoteUnits_printable member.1
      · obtain ⟨member, hmember, rfl⟩ := List.mem_map.mp hfield
        exact ih member hmember

theorem evalItems_map {D : Dialect Number} {items : List JsValue}
    (h : ∀ item ∈ items, Term.eval D (JsValue.toTerm item) = some item) :
    Term.evalItems D (items.map JsValue.toTerm) = some items := by
  induction items with
  | nil => simp [Term.evalItems]
  | cons item items ih =>
      rw [List.forall_mem_cons] at h
      simp [Term.evalItems, h.1, ih h.2]

theorem evalFields_map {fields : List (Text × JsValue)}
    (h : ∀ field ∈ fields,
      Term.eval jsDialect (JsValue.toTerm field.2) = some field.2) :
    Term.evalFields jsDialect (fields.map fun field =>
      (quoteUnits field.1, JsValue.toTerm field.2)) = some fields := by
  induction fields with
  | nil => simp [Term.evalFields]
  | cons field fields ih =>
      rw [List.forall_mem_cons] at h
      simp [Term.evalFields, jsDialect, quoteUnits_unit] at ih h ⊢
      simp [h.1, ih h.2]

/-- A storable value is read back as itself. -/
theorem eval_toTerm {value : JsValue} (h : Storable value) :
    Term.eval jsDialect (JsValue.toTerm value) = some value := by
  induction h with
  | null => simp [JsValue.toTerm, Term.eval]
  | bool value => simp [JsValue.toTerm, Term.eval]
  | num d =>
      have hnumber : (numberNumeral d.val).toNumber = .fin d :=
        Number.ofRat_of_nearest (numberNumeral_nearest d.exact)
      simp [JsValue.toTerm, Term.eval, jsDialect, hnumber]
  | str text =>
      simp [JsValue.toTerm, Term.eval, jsDialect, quoteUnits_unit]
  | arr items h ih =>
      rw [JsValue.toTerm, itemsToTerms_eq, Term.eval, evalItems_map ih]
      rfl
  | obj fields hordered h ih =>
      rw [JsValue.toTerm, fieldsToTerms_eq, Term.eval, evalFields_map ih]
      simp [jsDialect, jsObject_of_ownOrdered hordered]

/-- `JSON.parse(JSON.stringify(value, null, 2))`, also with a line break after
the text. -/
theorem jsonParse_jsonStringify {value : JsValue} (h : Storable value)
    {rest : Text} (hrest : rest.all isSpace = true) :
    jsonParse (jsonStringify value ++ rest) = some value := by
  rw [jsonParse, Dialect.read, jsonStringify,
    parse_print (toTerm_printable value) 0 hrest, Option.bind_some,
    eval_toTerm h]

end Json

end CybexOS
