/-
`json.loads` and `json.dumps(value, indent=2, ensure_ascii=False,
allow_nan=False)` of Python on texts of code points.
-/
import CybexOS.Json.JsNumber
import CybexOS.Utf8

namespace CybexOS

namespace Json

/-- Python keeps integers and floats apart. -/
inductive PyNumber where
  | int (value : ℤ)
  | float (value : Number)
deriving DecidableEq

abbrev PyValue := Value PyNumber

/-! ### Reading -/

/-- Two escapes of a surrogate pair make one character; others stay alone. -/
def joinPieces : List Piece → Text
  | [] => []
  | .lit c :: rest => c :: joinPieces rest
  | .hex c :: .hex d :: rest =>
      if (0xd800 ≤ c ∧ c ≤ 0xdbff) ∧ (0xdc00 ≤ d ∧ d ≤ 0xdfff) then
        (0x10000 + (c - 0xd800) * 1024 + (d - 0xdc00)) :: joinPieces rest
      else c :: joinPieces (.hex d :: rest)
  | .hex c :: rest => c :: joinPieces rest

/-- `sys.int_info.default_max_str_digits` -/
def MAX_STR_DIGITS : Nat := 4300

/-- Integers are exact, but their texts are limited. -/
def pyNumber (numeral : Numeral) : Option PyNumber :=
  if numeral.isInteger then
    if numeral.whole.length ≤ MAX_STR_DIGITS then
      some (.int (if numeral.neg then -(decimal numeral.whole : ℤ)
        else decimal numeral.whole))
    else none
  else some (.float numeral.toNumber)

/-- Strings, numbers and objects as read with `reject_duplicates`. -/
def pyDialect : Dialect PyNumber where
  text := fun pieces => some (joinPieces pieces)
  number := pyNumber
  object := fun members =>
    if (members.map Prod.fst).Nodup then some members else none

/-- `loads`: the constants `NaN` and `Infinity` are refused, as is a byte order
mark, which begins no value. -/
def loads (s : Text) : Option PyValue := pyDialect.read s

/-! ### Writing -/

/-- `repr` of a finite float: an exponent below `1e-4` and from `1e16` on. -/
def floatRepr (x : ℚ) : Numeral :=
  if x = 0 then ⟨false, [48], [48], none⟩
  else
    let digits := digitsOf (shortest x).1
    let k := digits.length
    let n := (shortest x).2 + k
    let neg : Bool := x < 0
    if n ≤ -4 ∨ 16 < n then
      let exponent := digitsOf (n - 1).natAbs
      ⟨neg, digits.take 1, digits.drop 1, some (some (n - 1 < 0),
        List.replicate (2 - exponent.length) 48 ++ exponent)⟩
    else if k ≤ n then
      ⟨neg, digits ++ List.replicate (n - k).toNat 48, [48], none⟩
    else if 0 < n then ⟨neg, digits.take n.toNat, digits.drop n.toNat, none⟩
    else ⟨neg, [48], List.replicate (-n).toNat 48 ++ digits, none⟩

def intRepr (z : ℤ) : Numeral := ⟨z < 0, digitsOf z.natAbs, [], none⟩

/-- The numeral of a number; too long integers and `nan` cannot be written. -/
def pyNumeral : PyNumber → Option Numeral
  | .int z => if (digitsOf z.natAbs).length ≤ MAX_STR_DIGITS then some (intRepr z)
      else none
  | .float (.fin d) => some (floatRepr d.val)
  | .float _ => none

/-- Control characters without a short escape are written by their value. -/
def pyQuote (s : Text) : List Piece :=
  s.map fun c =>
    if c ∈ [8, 9, 10, 12, 13] ∨ 32 ≤ c then .lit c else .hex c

mutual

def PyValue.toTerm : PyValue → Option Term
  | .null => some .null
  | .bool value => some (.bool value)
  | .num number => (pyNumeral number).map .num
  | .str text => some (.str (pyQuote text))
  | .arr items => (pyItems items).map .arr
  | .obj fields => (pyFields fields).map .obj

def pyItems : List PyValue → Option (List Term)
  | [] => some []
  | item :: items =>
      (PyValue.toTerm item).bind fun term =>
        (pyItems items).map fun terms => term :: terms

def pyFields : List (Text × PyValue) → Option (List (List Piece × Term))
  | [] => some []
  | (key, value) :: fields =>
      (PyValue.toTerm value).bind fun term =>
        (pyFields fields).map fun terms => (pyQuote key, term) :: terms

end

def dumps (value : PyValue) : Option Text :=
  (PyValue.toTerm value).map fun term => term.print 0

/-! ### Reading back what was written -/

theorem value_point_zero (neg : Bool) (s zeros : ℕ) :
    (⟨neg, digitsOf s ++ List.replicate zeros 48, [48], none⟩ : Numeral).value =
      signFactor neg * (s * 10 ^ (zeros : ℤ)) := by
  have htenth : decimal (digitsOf s ++ List.replicate zeros 48 ++ [48]) =
      s * 10 ^ zeros * 10 := by
    rw [decimal_append, decimal_append, decimal_digitsOf, decimal_replicate_zero,
      List.length_replicate]
    simp [decimal]
  rw [value_plain, htenth]
  push_cast
  rw [List.length_singleton, Nat.cast_one, zpow_neg_one, mul_assoc _ (10 : ℚ),
    mul_inv_cancel₀ (by norm_num), mul_one, zpow_natCast]

/-- `repr` of a float is neither an integer text nor another number. -/
theorem floatRepr_spec {x : ℚ} (hexact : Binary64.nearest x = x) :
    (floatRepr x).WellFormed ∧ (floatRepr x).isInteger = false ∧
      Binary64.nearest (floatRepr x).value = x := by
  by_cases hx : x = 0
  · subst hx
    refine ⟨⟨rfl, by decide, by decide, rfl, by simp [floatRepr]⟩, rfl, ?_⟩
    rw [floatRepr, if_pos rfl, value_plain]
    simp [decimal]
  obtain ⟨hne, hround⟩ := shortest_spec hx hexact
  have hpos := List.length_pos_of_ne_nil (digitsOf_ne_nil (shortest x).1)
  have hdigits := digitsOf_all_isDigit (shortest x).1
  have hpart : ∀ n, ((digitsOf (shortest x).1).drop n).all isDigit = true := fun n =>
    List.all_eq_true.mpr fun c hc =>
      List.all_eq_true.mp hdigits c (List.mem_of_mem_drop hc)
  have hzeros : ∀ n, (List.replicate n 48).all isDigit = true := fun n =>
    List.all_eq_true.mpr fun c hc => by rw [List.eq_of_mem_replicate hc]; rfl
  have hsign : Binary64.nearest (signFactor (x < 0) *
      ((shortest x).1 * 10 ^ (shortest x).2)) = x := by
    rcases lt_or_ge x 0 with hneg | hnonneg
    · rw [abs_of_neg hneg] at hround
      simp only [signFactor, hneg, decide_true, if_true, neg_mul, one_mul]
      rw [Binary64.nearest_neg, hround, neg_neg]
    · rw [abs_of_nonneg hnonneg] at hround
      simpa [signFactor, not_lt.mpr hnonneg] using hround
  rw [floatRepr, if_neg hx]
  dsimp only
  split_ifs with hexponent hwhole hpoint
  · refine ⟨wellFormed_digits hne (Or.inl rfl) Nat.one_pos (hpart 1) ?_, ?_, ?_⟩
    · intro exp hexp
      rw [Option.mem_def, Option.some.injEq] at hexp
      subst hexp
      refine ⟨by simp [digitsOf_ne_nil], ?_⟩
      rw [List.all_append, hzeros, digitsOf_all_isDigit]
      rfl
    · simp [Numeral.isInteger]
    · rw [value_scientific]
      convert hsign using 5
      omega
  · refine ⟨wellFormed_digits hne (Or.inr ⟨_, rfl⟩) Nat.one_pos rfl (by simp), rfl, ?_⟩
    rw [value_point_zero]
    convert hsign using 5
    omega
  · refine ⟨wellFormed_digits hne (Or.inl rfl) (by omega) (hpart _) (by simp), ?_, ?_⟩
    · simp [Numeral.isInteger]
      omega
    · rw [value_point]
      convert hsign using 5
      omega
  · refine ⟨⟨rfl, by simp, by simp, ?_, by simp⟩, ?_, ?_⟩
    · rw [List.all_append, hzeros, hdigits]
      rfl
    · simp [Numeral.isInteger, digitsOf_ne_nil]
    · rw [value_small]
      convert hsign using 5
      omega

theorem pyNumeral_spec {number : PyNumber} {numeral : Numeral}
    (h : pyNumeral number = some numeral) :
    numeral.WellFormed ∧ pyNumber numeral = some number := by
  cases number with
  | int z =>
      rw [pyNumeral] at h
      split at h
      · next hlen =>
        obtain rfl := Option.some.inj h
        refine ⟨⟨digitsOf_all_isDigit _, digitsOf_ne_nil _, fun hlong => ?_, rfl,
          by simp [intRepr]⟩, ?_⟩
        · refine digitsOf_head_ne_zero fun hzero => ?_
          rw [intRepr, hzero] at hlong
          simp [digitsOf] at hlong
        · rw [pyNumber, if_pos (by simp [Numeral.isInteger, intRepr]), intRepr,
            if_pos hlen, decimal_digitsOf]
          congr 2
          simp only [decide_eq_true_eq]
          split_ifs <;> omega
      · simp at h
  | float value =>
      cases value with
      | fin d =>
          obtain rfl := Option.some.inj h
          obtain ⟨hformed, hinteger, hround⟩ := floatRepr_spec d.exact
          refine ⟨hformed, ?_⟩
          rw [pyNumber, hinteger, if_neg (by simp), Numeral.toNumber,
            Number.ofRat_of_nearest hround]
      | inf neg => simp [pyNumeral] at h
      | nan => simp [pyNumeral] at h

theorem joinPieces_pyQuote (s : Text) : joinPieces (pyQuote s) = s := by
  induction s with
  | nil => rfl
  | cons c s ih =>
      rw [pyQuote, List.map_cons, ← pyQuote]
      split
      · rw [joinPieces, ih]
      · next hc =>
        -- a control character is no surrogate, so nothing is joined
        cases hrest : pyQuote s with
        | nil =>
            rw [hrest] at ih
            rw [joinPieces, ih]
            intro d rest heq
            cases heq
        | cons piece pieces =>
            rw [hrest] at ih
            cases piece with
            | lit d =>
                rw [joinPieces, ih]
                intro d rest heq
                cases heq
            | hex d =>
                rw [joinPieces, if_neg (by omega), ih]

theorem pyQuote_printable (s : Text) : ∀ piece ∈ pyQuote s, piece.Printable := by
  intro piece hpiece
  obtain ⟨c, -, rfl⟩ := List.mem_map.mp hpiece
  split
  · next hc =>
    rcases hc with hshort | hlow
    · exact Or.inr hshort
    · exact Or.inl hlow
  · next hc =>
    simp only [Piece.Printable]
    omega

/-- Dictionaries have distinct keys at every level. -/
inductive Proper : PyValue → Prop
  | null : Proper .null
  | bool (value : Bool) : Proper (.bool value)
  | num (number : PyNumber) : Proper (.num number)
  | str (text : Text) : Proper (.str text)
  | arr (items : List PyValue) (h : ∀ item ∈ items, Proper item) :
      Proper (.arr items)
  | obj (fields : List (Text × PyValue)) (hkeys : (fields.map Prod.fst).Nodup)
      (h : ∀ field ∈ fields, Proper field.2) : Proper (.obj fields)

/-- A written term is printable and stands for the value. -/
def WrittenAs (value : PyValue) (term : Term) : Prop :=
  term.Printable ∧ Term.eval pyDialect term = some value

theorem pyItems_spec {items : List PyValue}
    (h : ∀ item ∈ items, ∀ term, PyValue.toTerm item = some term →
      WrittenAs item term) {terms : List Term} (hterms : pyItems items = some terms) :
    (∀ term ∈ terms, term.Printable) ∧
      Term.evalItems pyDialect terms = some items := by
  induction items generalizing terms with
  | nil =>
      obtain rfl : terms = [] := by simpa [pyItems, eq_comm] using hterms
      exact ⟨by simp, by rw [Term.evalItems]⟩
  | cons item items ih =>
      rw [List.forall_mem_cons] at h
      simp only [pyItems, Option.bind_eq_some_iff, Option.map_eq_some_iff] at hterms
      obtain ⟨term, hterm, rest, hrest, rfl⟩ := hterms
      obtain ⟨hprint, heval⟩ := h.1 term hterm
      obtain ⟨hall, hevalRest⟩ := ih h.2 hrest
      exact ⟨List.forall_mem_cons.mpr ⟨hprint, hall⟩, by
        rw [Term.evalItems, heval, hevalRest]; rfl⟩

theorem pyFields_spec {fields : List (Text × PyValue)}
    (h : ∀ field ∈ fields, ∀ term, PyValue.toTerm field.2 = some term →
      WrittenAs field.2 term) {terms : List (List Piece × Term)}
    (hterms : pyFields fields = some terms) :
    (∀ term ∈ terms, (∀ piece ∈ term.1, piece.Printable) ∧ term.2.Printable) ∧
      Term.evalFields pyDialect terms = some fields := by
  induction fields generalizing terms with
  | nil =>
      obtain rfl : terms = [] := by simpa [pyFields, eq_comm] using hterms
      exact ⟨by simp, by rw [Term.evalFields]⟩
  | cons field fields ih =>
      obtain ⟨key, value⟩ := field
      rw [List.forall_mem_cons] at h
      simp only [pyFields, Option.bind_eq_some_iff, Option.map_eq_some_iff] at hterms
      obtain ⟨term, hterm, rest, hrest, rfl⟩ := hterms
      obtain ⟨hprint, heval⟩ := h.1 term hterm
      obtain ⟨hall, hevalRest⟩ := ih h.2 hrest
      refine ⟨List.forall_mem_cons.mpr ⟨⟨pyQuote_printable key, hprint⟩, hall⟩, ?_⟩
      have hkey : pyDialect.text (pyQuote key) = some key :=
        congrArg some (joinPieces_pyQuote key)
      rw [Term.evalFields, hkey, Option.bind_some, heval, hevalRest]
      rfl

theorem toTerm_spec {value : PyValue} (h : Proper value) :
    ∀ term, PyValue.toTerm value = some term → WrittenAs value term := by
  induction h with
  | null =>
      intro term hterm
      obtain rfl : term = .null := by simpa [PyValue.toTerm, eq_comm] using hterm
      exact ⟨.null, by rw [Term.eval]⟩
  | bool value =>
      intro term hterm
      obtain rfl : term = .bool value := by
        simpa [PyValue.toTerm, eq_comm] using hterm
      exact ⟨.bool value, by rw [Term.eval]⟩
  | num number =>
      intro term hterm
      simp only [PyValue.toTerm, Option.map_eq_some_iff] at hterm
      obtain ⟨numeral, hnumeral, rfl⟩ := hterm
      obtain ⟨hformed, hvalue⟩ := pyNumeral_spec hnumeral
      refine ⟨.num numeral hformed, ?_⟩
      have hread : pyDialect.number numeral = some number := hvalue
      rw [Term.eval, hread]
      rfl
  | str text =>
      intro term hterm
      obtain rfl : term = .str (pyQuote text) := by
        simpa [PyValue.toTerm, eq_comm] using hterm
      refine ⟨.str _ (pyQuote_printable text), ?_⟩
      have hread : pyDialect.text (pyQuote text) = some text :=
        congrArg some (joinPieces_pyQuote text)
      rw [Term.eval, hread]
      rfl
  | arr items h ih =>
      intro term hterm
      simp only [PyValue.toTerm, Option.map_eq_some_iff] at hterm
      obtain ⟨terms, hterms, rfl⟩ := hterm
      obtain ⟨hprint, heval⟩ := pyItems_spec ih hterms
      refine ⟨.arr terms hprint, ?_⟩
      rw [Term.eval, heval]
      rfl
  | obj fields hkeys h ih =>
      intro term hterm
      simp only [PyValue.toTerm, Option.map_eq_some_iff] at hterm
      obtain ⟨terms, hterms, rfl⟩ := hterm
      obtain ⟨hprint, heval⟩ := pyFields_spec ih hterms
      refine ⟨.obj terms (fun term hterm => (hprint term hterm).1)
        (fun term hterm => (hprint term hterm).2), ?_⟩
      rw [Term.eval, heval, Option.bind_some]
      simp [pyDialect, hkeys]

/-- What `dumps` wrote is read back as the same value. -/
theorem loads_dumps {value : PyValue} (hproper : Proper value) {s : Text}
    (h : dumps value = some s) {rest : Text} (hrest : rest.all isSpace = true) :
    loads (s ++ rest) = some value := by
  obtain ⟨term, hterm, rfl⟩ := Option.map_eq_some_iff.mp h
  obtain ⟨hprint, heval⟩ := toTerm_spec hproper term hterm
  rw [loads, Dialect.read, parse_print hprint 0 hrest, Option.bind_some, heval]

/-! ### What can be read -/

mutual

theorem eval_proper : ∀ (term : Term) (value : PyValue),
    Term.eval pyDialect term = some value → Proper value
  | .null, value, h => by
      obtain rfl : value = .null := by simpa [Term.eval, eq_comm] using h
      exact .null
  | .bool b, value, h => by
      obtain rfl : value = .bool b := by simpa [Term.eval, eq_comm] using h
      exact .bool b
  | .num numeral, value, h => by
      rw [Term.eval] at h
      obtain ⟨number, -, rfl⟩ := Option.map_eq_some_iff.mp h
      exact .num number
  | .str pieces, value, h => by
      rw [Term.eval] at h
      obtain ⟨text, -, rfl⟩ := Option.map_eq_some_iff.mp h
      exact .str text
  | .arr items, value, h => by
      rw [Term.eval] at h
      obtain ⟨values, hvalues, rfl⟩ := Option.map_eq_some_iff.mp h
      exact .arr values (evalItems_proper items values hvalues)
  | .obj fields, value, h => by
      rw [Term.eval] at h
      obtain ⟨members, hmembers, rfl⟩ := Option.map_eq_some_iff.mp h
      obtain ⟨read, hread, hobject⟩ := Option.bind_eq_some_iff.mp hmembers
      simp only [pyDialect, Option.ite_none_right_eq_some, Option.some.injEq] at hobject
      obtain ⟨hnodup, rfl⟩ := hobject
      exact .obj read hnodup (evalFields_proper fields read hread)

theorem evalItems_proper : ∀ (items : List Term) (values : List PyValue),
    Term.evalItems pyDialect items = some values → ∀ value ∈ values, Proper value
  | [], values, h => by
      obtain rfl : values = [] := by simpa [Term.evalItems, eq_comm] using h
      simp
  | item :: items, values, h => by
      simp only [Term.evalItems, Option.bind_eq_some_iff, Option.map_eq_some_iff] at h
      obtain ⟨value, hvalue, rest, hrest, rfl⟩ := h
      exact List.forall_mem_cons.mpr
        ⟨eval_proper item value hvalue, evalItems_proper items rest hrest⟩

theorem evalFields_proper : ∀ (fields : List (List Piece × Term))
    (members : List (Text × PyValue)),
    Term.evalFields pyDialect fields = some members →
      ∀ field ∈ members, Proper field.2
  | [], members, h => by
      obtain rfl : members = [] := by simpa [Term.evalFields, eq_comm] using h
      simp
  | (key, term) :: fields, members, h => by
      simp only [Term.evalFields, Option.bind_eq_some_iff,
        Option.map_eq_some_iff] at h
      obtain ⟨key', -, value, hvalue, rest, hrest, rfl⟩ := h
      exact List.forall_mem_cons.mpr
        ⟨eval_proper term value hvalue, evalFields_proper fields rest hrest⟩

end

/-- Whatever `loads` builds has distinct keys. -/
theorem loads_proper {s : Text} {value : PyValue} (h : loads s = some value) :
    Proper value := by
  obtain ⟨term, -, hterm⟩ := Option.bind_eq_some_iff.mp h
  exact eval_proper term value hterm

theorem Proper.field? {value : PyValue} (h : Proper value) {key : Text}
    {field : PyValue} (hfield : value.field? key = some field) : Proper field := by
  cases h with
  | obj fields _ hall =>
      obtain ⟨before, after, rfl, -⟩ := List.lookup_eq_some_iff.mp hfield
      exact hall (key, field) (by simp)
  | _ => simp [Value.field?] at hfield

end Json

end CybexOS
