/-
Printing JSON terms with two-space indentation, the layout that both
`JSON.stringify(value, null, 2)` and `json.dumps(value, indent=2)` write, and
reading a printed term back.
-/
import CybexOS.Json.Fuel

namespace CybexOS

namespace Json

/-! ### Printing -/

def hexDigit (n : Nat) : Nat := if n < 10 then 48 + n else 87 + n

def Piece.print : Piece → Text
  | .lit unit =>
      match unit with
      | 34 => [92, 34]
      | 92 => [92, 92]
      | 8 => [92, 98]
      | 9 => [92, 116]
      | 10 => [92, 110]
      | 12 => [92, 102]
      | 13 => [92, 114]
      | _ => [unit]
  | .hex unit =>
      [92, 117, hexDigit (unit / 4096), hexDigit (unit / 256 % 16),
        hexDigit (unit / 16 % 16), hexDigit (unit % 16)]

def printPieces (pieces : List Piece) : Text :=
  34 :: (pieces.flatMap Piece.print ++ [34])

def printExp : Option (Option Bool × Text) → Text
  | none => []
  | some (none, digits) => 101 :: digits
  | some (some false, digits) => 101 :: 43 :: digits
  | some (some true, digits) => 101 :: 45 :: digits

def printFrac (frac : Text) : Text := if frac = [] then [] else 46 :: frac

def Numeral.print (n : Numeral) : Text :=
  (if n.neg then [45] else []) ++ (n.whole ++ (printFrac n.frac ++ printExp n.exp))

/-- A line break and the indentation of a depth. -/
def newline (depth : Nat) : Text := 10 :: List.replicate (2 * depth) 32

mutual

def Term.print (depth : Nat) : Term → Text
  | .null => [110, 117, 108, 108]
  | .bool true => [116, 114, 117, 101]
  | .bool false => [102, 97, 108, 115, 101]
  | .num numeral => numeral.print
  | .str pieces => printPieces pieces
  | .arr [] => [91, 93]
  | .arr (item :: items) =>
      91 :: (newline (depth + 1) ++ Term.print (depth + 1) item ++
        printItems (depth + 1) items ++ newline depth ++ [93])
  | .obj [] => [123, 125]
  | .obj (field :: fields) =>
      123 :: (newline (depth + 1) ++ printField (depth + 1) field ++
        printFields (depth + 1) fields ++ newline depth ++ [125])

/-- The items after the first. -/
def printItems (depth : Nat) : List Term → Text
  | [] => []
  | item :: items =>
      44 :: (newline depth ++ Term.print depth item) ++ printItems depth items

def printField (depth : Nat) : List Piece × Term → Text
  | (key, value) => printPieces key ++ 58 :: 32 :: Term.print depth value

/-- The members after the first. -/
def printFields (depth : Nat) : List (List Piece × Term) → Text
  | [] => []
  | field :: fields =>
      44 :: (newline depth ++ printField depth field) ++ printFields depth fields

end

/-! ### What can be printed -/

/-- A plain unit is no control character without a short escape. -/
def Piece.Printable : Piece → Prop
  | .lit unit => 32 ≤ unit ∨ unit ∈ [8, 9, 10, 12, 13]
  | .hex unit => unit < 65536

/-- The digits a reader takes for this number. -/
structure Numeral.WellFormed (n : Numeral) : Prop where
  whole : n.whole.all isDigit = true
  wholeNonempty : n.whole ≠ []
  noLeadingZero : 1 < n.whole.length → n.whole.head? ≠ some 48
  frac : n.frac.all isDigit = true
  exp : ∀ exp ∈ n.exp, exp.2 ≠ [] ∧ exp.2.all isDigit = true

inductive Term.Printable : Term → Prop
  | null : Term.Printable .null
  | bool (value : Bool) : Term.Printable (.bool value)
  | num (numeral : Numeral) (h : numeral.WellFormed) :
      Term.Printable (.num numeral)
  | str (pieces : List Piece) (h : ∀ piece ∈ pieces, piece.Printable) :
      Term.Printable (.str pieces)
  | arr (items : List Term) (h : ∀ item ∈ items, Term.Printable item) :
      Term.Printable (.arr items)
  | obj (fields : List (List Piece × Term))
      (hkeys : ∀ field ∈ fields, ∀ piece ∈ field.1, piece.Printable)
      (hvalues : ∀ field ∈ fields, Term.Printable field.2) :
      Term.Printable (.obj fields)

/-! ### Reading strings back -/

theorem hexValue_hexDigit {n : Nat} (hn : n < 16) :
    hexValue (hexDigit n) = some n := by
  unfold hexDigit hexValue
  split_ifs <;> first | omega | (congr 1; omega)

theorem hexValue4_hexDigit {unit : Nat} (hunit : unit < 65536) :
    hexValue4 (hexDigit (unit / 4096)) (hexDigit (unit / 256 % 16))
      (hexDigit (unit / 16 % 16)) (hexDigit (unit % 16)) = some unit := by
  have hdigits : ((unit / 4096 * 16 + unit / 256 % 16) * 16 +
      unit / 16 % 16) * 16 + unit % 16 = unit := by omega
  rw [hexValue4, hexValue_hexDigit (by omega), hexValue_hexDigit (by omega),
    hexValue_hexDigit (by omega), hexValue_hexDigit (by omega)]
  exact congrArg some hdigits

theorem parsePieces_plain {c : Nat} (hquote : c ≠ 34) (hslash : c ≠ 92)
    (hlow : 32 ≤ c) (tail : Text) :
    parsePieces (c :: tail) =
      (parsePieces tail).map fun r => (.lit c :: r.1, r.2) := by
  rw [parsePieces, if_neg (by omega)]
  · exact hquote
  · intro _ _ _ _ _ h
    exact absurd h hslash
  · intro _ _ h
    exact absurd h hslash

/-- One printed piece is read back as itself. -/
theorem parsePieces_print_append {piece : Piece} (h : piece.Printable)
    (tail : Text) :
    parsePieces (piece.print ++ tail) =
      (parsePieces tail).map fun r => (piece :: r.1, r.2) := by
  cases piece with
  | lit unit =>
      unfold Piece.print
      dsimp only
      split
      all_goals try (simp [parsePieces, shortEscape]; done)
      next hquote hslash h8 h9 h10 h12 h13 =>
        have hlow : 32 ≤ unit := by
          rcases h with h | h
          · exact h
          · simp only [List.mem_cons, List.not_mem_nil, or_false] at h
            rcases h with h | h | h | h | h
            · exact absurd h h8
            · exact absurd h h9
            · exact absurd h h10
            · exact absurd h h12
            · exact absurd h h13
        exact parsePieces_plain hquote hslash hlow tail
  | hex unit =>
      simp only [Piece.print, List.cons_append, List.nil_append, parsePieces,
        hexValue4_hexDigit h]

theorem parsePieces_printPieces {pieces : List Piece}
    (h : ∀ piece ∈ pieces, piece.Printable) (rest : Text) :
    parsePieces (pieces.flatMap Piece.print ++ 34 :: rest) =
      some (pieces, rest) := by
  induction pieces with
  | nil => simp [parsePieces]
  | cons head tail ih =>
      have htail := ih fun piece hpiece => h piece (List.mem_cons_of_mem head hpiece)
      rw [List.flatMap_cons, List.append_assoc,
        parsePieces_print_append (h head List.mem_cons_self), htail]
      rfl

/-! ### Reading numerals back -/

/-- What follows does not continue a number. -/
def EndsNumber (rest : Text) : Prop :=
  ∀ c ∈ rest.head?, isDigit c = false ∧ c ≠ 46 ∧ c ≠ 101 ∧ c ≠ 69

theorem takeWhile_digits {digits rest : Text} (h : digits.all isDigit = true)
    (hrest : ∀ c ∈ rest.head?, isDigit c = false) :
    (digits ++ rest).takeWhile isDigit = digits := by
  rw [List.takeWhile_append_of_pos fun c hc => List.all_eq_true.mp h c hc]
  cases rest with
  | nil => simp
  | cons c tail => simp [hrest c (by simp)]

theorem dropWhile_digits {digits rest : Text} (h : digits.all isDigit = true)
    (hrest : ∀ c ∈ rest.head?, isDigit c = false) :
    (digits ++ rest).dropWhile isDigit = rest := by
  rw [List.dropWhile_append_of_pos fun c hc => List.all_eq_true.mp h c hc]
  exact dropWhile_eq_self_of_head hrest

theorem parseExp_printExp {exp : Option (Option Bool × Text)}
    (h : ∀ e ∈ exp, e.2 ≠ [] ∧ e.2.all isDigit = true) {rest : Text}
    (hrest : EndsNumber rest) :
    parseExp (printExp exp ++ rest) = some (exp, rest) := by
  have hdigit : ∀ c ∈ rest.head?, isDigit c = false := fun c hc => (hrest c hc).1
  cases exp with
  | none =>
      cases rest with
      | nil => rfl
      | cons c tail =>
          have hc := hrest c (by simp)
          simp [printExp, parseExp, hc.2.2.1, hc.2.2.2]
  | some e =>
      obtain ⟨sign, digits⟩ := e
      obtain ⟨hne, hall⟩ := h _ rfl
      have hread : ∀ signed : Text, parseExpSign (signed ++ rest) =
          (sign, digits ++ rest) →
          parseExp (101 :: signed ++ rest) = some (some (sign, digits), rest) := by
        intro signed hsign
        simp only [List.cons_append, parseExp, true_or, if_true, hsign,
          takeWhile_digits hall hdigit, dropWhile_digits hall hdigit, if_neg hne]
      rcases sign with _ | _ | _
      · refine hread digits ?_
        obtain ⟨c, tail, rfl⟩ := List.exists_cons_of_ne_nil hne
        have hc : isDigit c = true := List.all_eq_true.mp hall c (by simp)
        have hplus : c ≠ 43 := by rintro rfl; simp [isDigit] at hc
        have hminus : c ≠ 45 := by rintro rfl; simp [isDigit] at hc
        rw [List.cons_append, parseExpSign]
        · intro _ h
          exact hplus (List.cons.inj h).1
        · intro _ h
          exact hminus (List.cons.inj h).1
      · exact hread (43 :: digits) rfl
      · exact hread (45 :: digits) rfl

theorem printExp_head {exp : Option (Option Bool × Text)} {rest : Text}
    (hrest : EndsNumber rest) :
    ∀ c ∈ (printExp exp ++ rest).head?, isDigit c = false ∧ c ≠ 46 := by
  intro c hc
  rcases exp with _ | ⟨_ | _ | _, digits⟩
  · exact ⟨(hrest c hc).1, (hrest c hc).2.1⟩
  all_goals
    simp only [printExp, List.cons_append, List.head?_cons,
      Option.mem_def, Option.some.injEq] at hc
    subst hc
    exact ⟨rfl, by omega⟩

theorem parseFrac_printFrac {frac : Text} (h : frac.all isDigit = true)
    {rest : Text} (hrest : ∀ c ∈ rest.head?, isDigit c = false ∧ c ≠ 46) :
    parseFrac (printFrac frac ++ rest) = some (frac, rest) := by
  have hdigit : ∀ c ∈ rest.head?, isDigit c = false := fun c hc => (hrest c hc).1
  unfold printFrac
  split
  · next hempty =>
    subst hempty
    cases rest with
    | nil => rfl
    | cons c tail =>
        have hpoint : c ≠ 46 := (hrest c (by simp)).2
        rw [List.nil_append, parseFrac]
        intro _ heq
        exact hpoint (List.cons.inj heq).1
  · next hne =>
    simp only [List.cons_append, parseFrac, takeWhile_digits h hdigit,
      dropWhile_digits h hdigit, if_neg hne]

theorem parseNumeral_print {n : Numeral} (h : n.WellFormed) {rest : Text}
    (hrest : EndsNumber rest) :
    parseNumeral (n.print ++ rest) = some (n, rest) := by
  have hfracHead : ∀ c ∈ (printFrac n.frac ++ (printExp n.exp ++ rest)).head?,
      isDigit c = false := by
    intro c hc
    unfold printFrac at hc
    split at hc
    · exact (printExp_head hrest c hc).1
    · simp only [List.cons_append, List.head?_cons, Option.mem_def,
        Option.some.injEq] at hc
      subst hc
      rfl
  have hminus : parseMinus (n.print ++ rest) =
      (n.neg, n.whole ++ (printFrac n.frac ++ (printExp n.exp ++ rest))) := by
    unfold Numeral.print
    cases hneg : n.neg with
    | true => simp [parseMinus]
    | false =>
        obtain ⟨c, tail, hcons⟩ := List.exists_cons_of_ne_nil h.wholeNonempty
        have hc : isDigit c = true :=
          List.all_eq_true.mp h.whole c (by rw [hcons]; simp)
        have hne : c ≠ 45 := by rintro rfl; simp [isDigit] at hc
        simp only [Bool.false_eq_true, if_false, List.nil_append,
          List.append_assoc, hcons, List.cons_append]
        rw [parseMinus]
        intro _ heq
        exact hne (List.cons.inj heq).1
  have hwhole : parseWhole (n.whole ++ (printFrac n.frac ++
      (printExp n.exp ++ rest))) =
      some (n.whole, printFrac n.frac ++ (printExp n.exp ++ rest)) := by
    unfold parseWhole
    simp only [takeWhile_digits h.whole hfracHead,
      dropWhile_digits h.whole hfracHead]
    rw [if_neg]
    rintro (hempty | ⟨hlong, hzero⟩)
    · exact h.wholeNonempty hempty
    · exact h.noLeadingZero hlong hzero
  simp only [parseNumeral, hminus, hwhole, Option.bind_some,
    parseFrac_printFrac h.frac (printExp_head hrest),
    parseExp_printExp h.exp hrest, Option.map_some]

/-! ### Reading values back -/

theorem skipSpace_append {space : Text} (h : space.all isSpace = true)
    (s : Text) : skipSpace (space ++ s) = skipSpace s :=
  List.dropWhile_append_of_pos fun c hc => List.all_eq_true.mp h c hc

theorem skipSpace_cons {c : Nat} (h : isSpace c = false) (s : Text) :
    skipSpace (c :: s) = c :: s :=
  List.dropWhile_cons_of_neg (by simp [h])

theorem newline_isSpace (depth : Nat) : (newline depth).all isSpace = true := by
  simp [newline, isSpace]

theorem Numeral.print_head {n : Numeral} (h : n.WellFormed) :
    ∃ c tail, n.print = c :: tail ∧ (isDigit c = true ∨ c = 45) := by
  unfold Numeral.print
  cases n.neg with
  | true => exact ⟨45, _, rfl, Or.inr rfl⟩
  | false =>
      obtain ⟨c, tail, hcons⟩ := List.exists_cons_of_ne_nil h.wholeNonempty
      have hc : isDigit c = true :=
        List.all_eq_true.mp h.whole c (by rw [hcons]; simp)
      exact ⟨c, _, by rw [hcons]; rfl, Or.inl hc⟩

/-- A printed value begins with neither space nor a closing bracket. -/
theorem Term.print_head {term : Term} (h : term.Printable) (depth : Nat) :
    ∃ c tail, term.print depth = c :: tail ∧ isSpace c = false ∧ c ≠ 93 := by
  cases h with
  | null => exact ⟨110, _, rfl, rfl, by omega⟩
  | bool value => cases value <;> exact ⟨_, _, rfl, rfl, by omega⟩
  | num numeral h =>
      obtain ⟨c, tail, hcons, hc⟩ := Numeral.print_head h
      refine ⟨c, tail, hcons, ?_⟩
      rcases hc with hc | rfl
      · simp only [isDigit, Bool.and_eq_true, decide_eq_true_eq] at hc
        refine ⟨?_, by omega⟩
        simp only [isSpace, Bool.or_eq_false_iff, beq_eq_false_iff_ne]
        omega
      · exact ⟨rfl, by omega⟩
  | str pieces h => exact ⟨34, _, rfl, rfl, by omega⟩
  | arr items h => cases items <;> exact ⟨91, _, rfl, rfl, by omega⟩
  | obj fields hkeys hvalues => cases fields <;> exact ⟨123, _, rfl, rfl, by omega⟩

/-- Some fuel reads this value from the text. -/
def Reads (s : Text) (term : Term) (rest : Text) : Prop :=
  ∃ fuel, parseValue fuel s = some (term, rest)

theorem Reads.at_fuel {s rest : Text} {term : Term} (h : Reads s term rest)
    {fuel : Nat} (hfuel : 2 * s.length ≤ fuel) :
    parseValue fuel s = some (term, rest) := by
  obtain ⟨n, hn⟩ := h
  exact ((readers_frugal n).1 s term rest hn).2 fuel (by omega)

/-- Printed at any depth and after any space, the term is read back. -/
def ReadsBack (term : Term) : Prop :=
  ∀ depth (space rest : Text), space.all isSpace = true → EndsNumber rest →
    Reads (space ++ (term.print depth ++ rest)) term rest

theorem endsNumber_of_head {c : Nat} (hc : c = 10 ∨ c = 44) (tail : Text) :
    EndsNumber (c :: tail) := by
  intro d hd
  simp only [List.head?_cons, Option.mem_def, Option.some.injEq] at hd
  subst hd
  rcases hc with rfl | rfl <;> simp [isDigit]

theorem skipSpace_newline (depth : Nat) (c : Nat) (hc : isSpace c = false)
    (rest : Text) : skipSpace (newline depth ++ c :: rest) = c :: rest := by
  rw [skipSpace_append (newline_isSpace depth), skipSpace_cons hc]

theorem enough_items {s rest : Text} {items : List Term}
    (h : ∃ fuel, parseItems fuel s = some (items, rest)) {fuel : Nat}
    (hfuel : 2 * s.length ≤ fuel) : parseItems fuel s = some (items, rest) := by
  obtain ⟨n, hn⟩ := h
  exact ((readers_frugal n).2.1 s items rest hn).2 fuel (by omega)

theorem enough_fields {s rest : Text} {fields : List (List Piece × Term)}
    (h : ∃ fuel, parseFields fuel s = some (fields, rest)) {fuel : Nat}
    (hfuel : 2 * s.length ≤ fuel) : parseFields fuel s = some (fields, rest) := by
  obtain ⟨n, hn⟩ := h
  exact ((readers_frugal n).2.2 s fields rest hn).2 fuel (by omega)

/-- An item and the items after it, up to the closing bracket. -/
theorem parseItems_print {item : Term} {items : List Term}
    (h : ∀ other ∈ item :: items, ReadsBack other) (depth outer : Nat)
    (rest : Text) :
    ∃ fuel, parseItems fuel (newline depth ++ (item.print depth ++
      (printItems depth items ++ (newline outer ++ 93 :: rest)))) =
        some (item :: items, rest) := by
  induction items generalizing item with
  | nil =>
      obtain ⟨fuel, hread⟩ := h item List.mem_cons_self depth (newline depth)
        (newline outer ++ 93 :: rest) (newline_isSpace depth)
        (endsNumber_of_head (Or.inl rfl) _)
      exact ⟨fuel + 1, parseItems_last hread (skipSpace_newline outer 93 rfl rest)⟩
  | cons next items ih =>
      have htail := ih fun other hother =>
        h other (List.mem_cons_of_mem item hother)
      have hread := h item List.mem_cons_self depth (newline depth)
        (printItems depth (next :: items) ++ (newline outer ++ 93 :: rest))
        (newline_isSpace depth) (endsNumber_of_head (Or.inr rfl) _)
      have hcomma : skipSpace (printItems depth (next :: items) ++
          (newline outer ++ 93 :: rest)) =
          44 :: (newline depth ++ (next.print depth ++
            (printItems depth items ++ (newline outer ++ 93 :: rest)))) := by
        rw [printItems]
        simp only [List.cons_append, List.append_assoc]
        exact skipSpace_cons rfl _
      obtain ⟨fuel, hitem, hitems⟩ : ∃ fuel, parseValue fuel _ = some _ ∧
          parseItems fuel _ = some _ :=
        ⟨_, hread.at_fuel (le_max_left _ _), enough_items htail (le_max_right _ _)⟩
      refine ⟨fuel + 1, ?_⟩
      rw [parseItems_cons hitem hcomma, hitems]
      rfl

theorem readsMember_print {key : List Piece} {value : Term}
    (hkey : ∀ piece ∈ key, piece.Printable) (hvalue : ReadsBack value)
    (depth : Nat) {rest : Text} (hrest : EndsNumber rest) :
    ∃ n, ∀ fuel, n ≤ fuel →
      ReadsMember fuel (newline depth ++ (printField depth (key, value) ++ rest))
        key value rest := by
  have hread := hvalue depth [32] rest rfl hrest
  refine ⟨_, fun fuel hfuel => ⟨key.flatMap Piece.print ++ 34 :: 58 ::
    32 :: (value.print depth ++ rest), 58 :: 32 :: (value.print depth ++ rest),
    32 :: (value.print depth ++ rest), ?_, parsePieces_printPieces hkey _,
    skipSpace_cons rfl _, hread.at_fuel hfuel⟩⟩
  rw [printField, printPieces]
  simp only [List.cons_append, List.append_assoc, List.nil_append]
  exact skipSpace_newline depth 34 rfl _

/-- A member and the members after it, up to the closing brace. -/
theorem parseFields_print {field : List Piece × Term}
    {fields : List (List Piece × Term)}
    (hkeys : ∀ other ∈ field :: fields, ∀ piece ∈ other.1, piece.Printable)
    (hvalues : ∀ other ∈ field :: fields, ReadsBack other.2) (depth outer : Nat)
    (rest : Text) :
    ∃ fuel, parseFields fuel (newline depth ++ (printField depth field ++
      (printFields depth fields ++ (newline outer ++ 125 :: rest)))) =
        some (field :: fields, rest) := by
  induction fields generalizing field with
  | nil =>
      obtain ⟨n, hmember⟩ := readsMember_print (hkeys field List.mem_cons_self)
        (hvalues field List.mem_cons_self) depth
        (endsNumber_of_head (Or.inl rfl) _)
      exact ⟨n + 1, parseFields_last (hmember n (le_refl n))
        (skipSpace_newline outer 125 rfl rest)⟩
  | cons next fields ih =>
      have htail := ih (fun other hother =>
          hkeys other (List.mem_cons_of_mem field hother))
        (fun other hother => hvalues other (List.mem_cons_of_mem field hother))
      have hends : EndsNumber (printFields depth (next :: fields) ++
          (newline outer ++ 125 :: rest)) := endsNumber_of_head (Or.inr rfl) _
      obtain ⟨n, hmember⟩ := readsMember_print (hkeys field List.mem_cons_self)
        (hvalues field List.mem_cons_self) depth hends
      have hcomma : skipSpace (printFields depth (next :: fields) ++
          (newline outer ++ 125 :: rest)) =
          44 :: (newline depth ++ (printField depth next ++
            (printFields depth fields ++ (newline outer ++ 125 :: rest)))) := by
        rw [printFields]
        simp only [List.cons_append, List.append_assoc]
        exact skipSpace_cons rfl _
      obtain ⟨fuel, hmember, hfields⟩ : ∃ fuel, ReadsMember fuel _ _ _ _ ∧
          parseFields fuel _ = some _ :=
        ⟨_, hmember _ (le_max_left n _), enough_fields htail (le_max_right n _)⟩
      refine ⟨fuel + 1, ?_⟩
      rw [parseFields_cons hmember hcomma, hfields]
      rfl

/-- Every printable term is read back, whatever surrounds it. -/
theorem Term.Printable.readsBack {term : Term} (h : term.Printable) :
    ReadsBack term := by
  induction h with
  | null =>
      intro depth space rest hspace hrest
      refine ⟨1, parseValue_null ?_⟩
      rw [skipSpace_append hspace]
      exact skipSpace_cons rfl _
  | bool value =>
      intro depth space rest hspace hrest
      cases value with
      | false =>
          refine ⟨1, parseValue_false ?_⟩
          rw [skipSpace_append hspace]
          exact skipSpace_cons rfl _
      | true =>
          refine ⟨1, parseValue_true ?_⟩
          rw [skipSpace_append hspace]
          exact skipSpace_cons rfl _
  | num numeral h =>
      intro depth space rest hspace hrest
      obtain ⟨c, tail, hcons, hc⟩ := Numeral.print_head h
      have hskip : skipSpace (space ++ (numeral.print ++ rest)) =
          numeral.print ++ rest := by
        rw [skipSpace_append hspace, hcons, List.cons_append]
        refine skipSpace_cons ?_ _
        rcases hc with hc | rfl
        · simp only [isDigit, Bool.and_eq_true, decide_eq_true_eq] at hc
          simp only [isSpace, Bool.or_eq_false_iff, beq_eq_false_iff_ne]
          omega
        · rfl
      have hhead : ∀ d other, (isDigit d = false ∧ d ≠ 45) →
          skipSpace (space ++ (numeral.print ++ rest)) ≠ d :: other := by
        intro d other hd heq
        rw [hskip, hcons, List.cons_append] at heq
        obtain ⟨rfl, -⟩ := List.cons.inj heq
        rcases hc with hc | hc
        · simp [hc] at hd
        · exact hd.2 hc
      refine ⟨1, ?_⟩
      rw [Term.print, parseValue_num, hskip, parseNumeral_print h hrest]
      · rfl
      all_goals
        intro other
        exact hhead _ _ ⟨rfl, by omega⟩
  | str pieces h =>
      intro depth space rest hspace hrest
      refine ⟨1, ?_⟩
      have hskip : skipSpace (space ++ (printPieces pieces ++ rest)) =
          34 :: (pieces.flatMap Piece.print ++ 34 :: rest) := by
        rw [skipSpace_append hspace, printPieces]
        simp only [List.cons_append, List.append_assoc, List.nil_append]
        exact skipSpace_cons rfl _
      rw [Term.print, parseValue_str hskip, parsePieces_printPieces h]
      rfl
  | arr items h ih =>
      intro depth space rest hspace hrest
      cases items with
      | nil =>
          have hskip : skipSpace (space ++ 91 :: 93 :: rest) = 91 :: 93 :: rest := by
            rw [skipSpace_append hspace]
            exact skipSpace_cons rfl _
          exact ⟨1, parseValue_arr_nil hskip (skipSpace_cons rfl _)⟩
      | cons item items =>
          obtain ⟨fuel, hitems⟩ := parseItems_print ih (depth + 1) depth rest
          have hskip : skipSpace (space ++ ((Term.arr (item :: items)).print depth
              ++ rest)) = 91 :: (newline (depth + 1) ++ (item.print (depth + 1) ++
                (printItems (depth + 1) items ++ (newline depth ++ 93 :: rest)))) := by
            rw [skipSpace_append hspace, Term.print]
            simp only [List.cons_append, List.append_assoc, List.nil_append]
            exact skipSpace_cons rfl _
          refine ⟨fuel + 1, ?_⟩
          rw [parseValue_arr hskip, hitems]
          · rfl
          · intro after heq
            obtain ⟨c, tail, hcons, hspace', hc⟩ := Term.print_head
              (h item List.mem_cons_self) (depth + 1)
            rw [hcons, List.cons_append, skipSpace_newline _ _ hspace'] at heq
            exact hc (List.cons.inj heq).1
  | obj fields hkeys hvalues ih =>
      intro depth space rest hspace hrest
      cases fields with
      | nil =>
          have hskip : skipSpace (space ++ 123 :: 125 :: rest) =
              123 :: 125 :: rest := by
            rw [skipSpace_append hspace]
            exact skipSpace_cons rfl _
          exact ⟨1, parseValue_obj_nil hskip (skipSpace_cons rfl _)⟩
      | cons field fields =>
          obtain ⟨fuel, hfields⟩ := parseFields_print hkeys ih (depth + 1) depth rest
          have hskip : skipSpace (space ++ ((Term.obj (field :: fields)).print depth
              ++ rest)) = 123 :: (newline (depth + 1) ++
                (printField (depth + 1) field ++ (printFields (depth + 1) fields ++
                  (newline depth ++ 125 :: rest)))) := by
            rw [skipSpace_append hspace, Term.print]
            simp only [List.cons_append, List.append_assoc, List.nil_append]
            exact skipSpace_cons rfl _
          refine ⟨fuel + 1, ?_⟩
          rw [parseValue_obj hskip, hfields]
          · rfl
          · intro after heq
            obtain ⟨key, value⟩ := field
            rw [printField, printPieces, List.cons_append, List.cons_append,
              skipSpace_newline _ _ rfl] at heq
            exact absurd (List.cons.inj heq).1 (by omega)

/-- Reading a printed term gives the term, also with space around it. -/
theorem parse_print {term : Term} (h : term.Printable) (depth : Nat)
    {rest : Text} (hrest : rest.all isSpace = true) :
    parse (term.print depth ++ rest) = some term := by
  have hends : EndsNumber rest := by
    intro c hc
    have hspace := List.all_eq_true.mp hrest c (List.mem_of_mem_head? hc)
    simp only [isSpace, Bool.or_eq_true, beq_iff_eq] at hspace
    rcases hspace with ((rfl | rfl) | rfl) | rfl <;> simp [isDigit]
  obtain ⟨fuel, hread⟩ := h.readsBack depth [] rest rfl hends
  refine parse_of_parseValue hread ?_
  have := skipSpace_append hrest []
  rwa [List.append_nil] at this

end Json

end CybexOS
