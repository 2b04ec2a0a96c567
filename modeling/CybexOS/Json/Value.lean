/-
JSON values and how a reader turns a term into one.  The type of numbers and
the three interpretations a language is free to choose are parameters.
-/
import CybexOS.Decimal
import CybexOS.Json.Term
import CybexOS.Number

namespace CybexOS

namespace Json

inductive Value (N : Type) where
  | null
  | bool (value : Bool)
  | num (number : N)
  | str (text : Text)
  | arr (items : List (Value N))
  | obj (fields : List (Text × Value N))

variable {N : Type}

/-- Induction with the hypothesis for every item and every member. -/
@[induction_eliminator]
theorem Value.induct {motive : Value N → Prop}
    (null : motive .null) (bool : ∀ value, motive (.bool value))
    (num : ∀ number, motive (.num number)) (str : ∀ text, motive (.str text))
    (arr : ∀ items, (∀ item ∈ items, motive item) → motive (.arr items))
    (obj : ∀ fields, (∀ field ∈ fields, motive field.2) →
      motive (.obj fields))
    (value : Value N) : motive value :=
  @Value.rec N motive (fun items => ∀ item ∈ items, motive item)
    (fun fields => ∀ field ∈ fields, motive field.2)
    (fun field => motive field.2)
    null bool num str arr obj
    (by simp) (fun _ _ hhead htail => List.forall_mem_cons.mpr ⟨hhead, htail⟩)
    (by simp) (fun _ _ hhead htail => List.forall_mem_cons.mpr ⟨hhead, htail⟩)
    (fun _ _ hvalue => hvalue) value

@[induction_eliminator]
theorem Term.induct {motive : Term → Prop}
    (null : motive .null) (bool : ∀ value, motive (.bool value))
    (num : ∀ numeral, motive (.num numeral))
    (str : ∀ pieces, motive (.str pieces))
    (arr : ∀ items, (∀ item ∈ items, motive item) → motive (.arr items))
    (obj : ∀ fields, (∀ field ∈ fields, motive field.2) →
      motive (.obj fields))
    (term : Term) : motive term :=
  @Term.rec motive (fun items => ∀ item ∈ items, motive item)
    (fun fields => ∀ field ∈ fields, motive field.2)
    (fun field => motive field.2)
    null bool num str arr obj
    (by simp) (fun _ _ hhead htail => List.forall_mem_cons.mpr ⟨hhead, htail⟩)
    (by simp) (fun _ _ hhead htail => List.forall_mem_cons.mpr ⟨hhead, htail⟩)
    (fun _ _ hvalue => hvalue) term

/-- The value of an object's member. -/
def Value.field? (key : Text) : Value N → Option (Value N)
  | .obj fields => fields.lookup key
  | _ => none

/-- What a reader decides: how pieces make a string, what a numeral is worth
and which member lists make an object.  `none` refuses the text. -/
structure Dialect (N : Type) where
  text : List Piece → Option Text
  number : Numeral → Option N
  object : List (Text × Value N) → Option (List (Text × Value N))

mutual

/-- The value a term stands for. -/
def Term.eval (D : Dialect N) : Term → Option (Value N)
  | .null => some .null
  | .bool value => some (.bool value)
  | .num numeral => (D.number numeral).map .num
  | .str pieces => (D.text pieces).map .str
  | .arr items => (evalItems D items).map .arr
  | .obj fields => ((evalFields D fields).bind D.object).map .obj

def Term.evalItems (D : Dialect N) : List Term → Option (List (Value N))
  | [] => some []
  | item :: items =>
      (Term.eval D item).bind fun value =>
        (evalItems D items).map fun values => value :: values

def Term.evalFields (D : Dialect N) :
    List (List Piece × Term) → Option (List (Text × Value N))
  | [] => some []
  | (key, term) :: fields =>
      (D.text key).bind fun key =>
        (Term.eval D term).bind fun value =>
          (evalFields D fields).map fun values => (key, value) :: values

end

/-- Read a JSON text. -/
def Dialect.read (D : Dialect N) (s : Text) : Option (Value N) :=
  (parse s).bind (Term.eval D)

/-- The exact value of a numeral. -/
def Numeral.value (n : Numeral) : ℚ :=
  let magnitude : ℚ := decimal (n.whole ++ n.frac)
  let exponent : ℤ :=
    match n.exp with
    | none => 0
    | some (sign, digits) =>
        if sign = some true then -(decimal digits : ℤ) else decimal digits
  (if n.neg then -magnitude else magnitude) *
    10 ^ (exponent - n.frac.length)

/-- No point and no exponent. -/
def Numeral.isInteger (n : Numeral) : Bool := n.frac.isEmpty && n.exp.isNone

/-- The number as binary64. -/
def Numeral.toNumber (n : Numeral) : Number := Number.ofRat n.value

end Json

end CybexOS
