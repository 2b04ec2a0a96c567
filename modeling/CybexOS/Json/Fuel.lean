/-
Reading a JSON value needs fuel for twice what it consumes, so the fuel that
`parse` gives never decides the result.
-/
import CybexOS.Json.Term

namespace CybexOS

namespace Json

/-! ### One step of reading -/

section

attribute [local simp] parseValue parseItems parseFields

theorem parseValue_null {fuel : Nat} {s rest : Text}
    (h : skipSpace s = 110 :: 117 :: 108 :: 108 :: rest) :
    parseValue (fuel + 1) s = some (.null, rest) := by
  simp only [parseValue, h]

theorem parseValue_true {fuel : Nat} {s rest : Text}
    (h : skipSpace s = 116 :: 114 :: 117 :: 101 :: rest) :
    parseValue (fuel + 1) s = some (.bool true, rest) := by
  simp only [parseValue, h]

theorem parseValue_false {fuel : Nat} {s rest : Text}
    (h : skipSpace s = 102 :: 97 :: 108 :: 115 :: 101 :: rest) :
    parseValue (fuel + 1) s = some (.bool false, rest) := by
  simp only [parseValue, h]

theorem parseValue_str {fuel : Nat} {s rest : Text}
    (h : skipSpace s = 34 :: rest) :
    parseValue (fuel + 1) s =
      (parsePieces rest).map fun r => (.str r.1, r.2) := by
  simp only [parseValue, h]

theorem parseValue_arr_nil {fuel : Nat} {s rest after : Text}
    (h : skipSpace s = 91 :: rest) (hclose : skipSpace rest = 93 :: after) :
    parseValue (fuel + 1) s = some (.arr [], after) := by
  simp only [parseValue, h, hclose]

theorem parseValue_arr {fuel : Nat} {s rest : Text}
    (h : skipSpace s = 91 :: rest)
    (hopen : ∀ after, skipSpace rest ≠ 93 :: after) :
    parseValue (fuel + 1) s =
      (parseItems fuel rest).map fun r => (.arr r.1, r.2) := by
  simp only [parseValue, h]

theorem parseValue_obj_nil {fuel : Nat} {s rest after : Text}
    (h : skipSpace s = 123 :: rest) (hclose : skipSpace rest = 125 :: after) :
    parseValue (fuel + 1) s = some (.obj [], after) := by
  simp only [parseValue, h, hclose]

theorem parseValue_obj {fuel : Nat} {s rest : Text}
    (h : skipSpace s = 123 :: rest)
    (hopen : ∀ after, skipSpace rest ≠ 125 :: after) :
    parseValue (fuel + 1) s =
      (parseFields fuel rest).map fun r => (.obj r.1, r.2) := by
  simp only [parseValue, h]

/-- Anything that begins no other value is read as a number. -/
theorem parseValue_num {fuel : Nat} {s : Text}
    (hnull : ∀ rest, skipSpace s ≠ 110 :: 117 :: 108 :: 108 :: rest)
    (htrue : ∀ rest, skipSpace s ≠ 116 :: 114 :: 117 :: 101 :: rest)
    (hfalse : ∀ rest, skipSpace s ≠ 102 :: 97 :: 108 :: 115 :: 101 :: rest)
    (hstr : ∀ rest, skipSpace s ≠ 34 :: rest)
    (harr : ∀ rest, skipSpace s ≠ 91 :: rest)
    (hobj : ∀ rest, skipSpace s ≠ 123 :: rest) :
    parseValue (fuel + 1) s =
      (parseNumeral (skipSpace s)).map fun r => (.num r.1, r.2) := by
  rw [parseValue]
  split
  · next rest heq => exact absurd heq (hnull rest)
  · next rest heq => exact absurd heq (htrue rest)
  · next rest heq => exact absurd heq (hfalse rest)
  · next rest heq => exact absurd heq (hstr rest)
  · next rest heq => exact absurd heq (harr rest)
  · next rest heq => exact absurd heq (hobj rest)
  · rfl

theorem parseItems_last {fuel : Nat} {s after rest : Text} {item : Term}
    (hitem : parseValue fuel s = some (item, after))
    (h : skipSpace after = 93 :: rest) :
    parseItems (fuel + 1) s = some ([item], rest) := by
  simp only [parseItems, hitem, Option.bind_some, h]

theorem parseItems_cons {fuel : Nat} {s after rest : Text} {item : Term}
    (hitem : parseValue fuel s = some (item, after))
    (h : skipSpace after = 44 :: rest) :
    parseItems (fuel + 1) s =
      (parseItems fuel rest).map fun r => (item :: r.1, r.2) := by
  simp only [parseItems, hitem, Option.bind_some, h]

/-- One member of an object: its key and value, and what follows the value. -/
def ReadsMember (fuel : Nat) (s : Text) (key : List Piece) (value : Term)
    (after : Text) : Prop :=
  ∃ inside afterKey start, skipSpace s = 34 :: inside ∧
    parsePieces inside = some (key, afterKey) ∧
    skipSpace afterKey = 58 :: start ∧ parseValue fuel start = some (value, after)

theorem parseFields_last {fuel : Nat} {s after rest : Text} {key : List Piece}
    {value : Term} (hmember : ReadsMember fuel s key value after)
    (h : skipSpace after = 125 :: rest) :
    parseFields (fuel + 1) s = some ([(key, value)], rest) := by
  obtain ⟨inside, afterKey, start, hquote, hkey, hcolon, hvalue⟩ := hmember
  simp only [parseFields, hquote, hkey, Option.bind_some, hcolon, hvalue, h]

theorem parseFields_cons {fuel : Nat} {s after rest : Text} {key : List Piece}
    {value : Term} (hmember : ReadsMember fuel s key value after)
    (h : skipSpace after = 44 :: rest) :
    parseFields (fuel + 1) s =
      (parseFields fuel rest).map fun r => ((key, value) :: r.1, r.2) := by
  obtain ⟨inside, afterKey, start, hquote, hkey, hcolon, hvalue⟩ := hmember
  simp only [parseFields, hquote, hkey, Option.bind_some, hcolon, hvalue, h]

end

/-! ### What reading consumes -/

theorem skipSpace_length_le (s : Text) : (skipSpace s).length ≤ s.length :=
  (List.dropWhile_suffix isSpace).length_le

theorem parsePieces_consumes {s : Text} {pieces : List Piece} {rest : Text}
    (h : parsePieces s = some (pieces, rest)) : rest.length < s.length := by
  induction s using parsePieces.induct generalizing pieces rest with
  | case1 => simp [parsePieces] at h
  | case2 tail =>
      simp only [parsePieces, Option.some.injEq, Prod.mk.injEq] at h
      simp [h.2]
  | case3 a b c d tail hhex => simp [parsePieces, hhex] at h
  | case4 a b c d tail unit hhex ih =>
      simp only [parsePieces, hhex, Option.map_eq_some_iff, Prod.mk.injEq] at h
      obtain ⟨r, hr, -, rfl⟩ := h
      have := ih hr
      simp only [List.length_cons]
      omega
  | case5 e tail hnot hshort =>
      rw [parsePieces] at h
      · simp [hshort] at h
      · exact hnot
  | case6 e tail hnot unit hshort ih =>
      rw [parsePieces] at h
      · simp only [hshort, Option.map_eq_some_iff, Prod.mk.injEq] at h
        obtain ⟨r, hr, -, rfl⟩ := h
        have := ih hr
        simp only [List.length_cons]
        omega
      · exact hnot
  | case7 c tail hquote hhex hslash hlow =>
      rw [parsePieces] at h
      · simp [hlow] at h
      · exact hquote
      · exact hhex
      · exact hslash
  | case8 c tail hquote hhex hslash hlow ih =>
      rw [parsePieces] at h
      · simp only [hlow, if_false, Option.map_eq_some_iff, Prod.mk.injEq] at h
        obtain ⟨r, hr, -, rfl⟩ := h
        have := ih hr
        simp only [List.length_cons]
        omega
      · exact hquote
      · exact hhex
      · exact hslash

theorem parseNumeral_consumes {s : Text} {numeral : Numeral} {rest : Text}
    (h : parseNumeral s = some (numeral, rest)) : rest.length < s.length := by
  simp only [parseNumeral, Option.bind_eq_some_iff, Option.map_eq_some_iff,
    Prod.mk.injEq] at h
  obtain ⟨whole, hwhole, frac, hfrac, exp, hexp, -, rfl⟩ := h
  have hminus : (parseMinus s).2.length ≤ s.length := by
    unfold parseMinus
    split <;> simp
  have hwholeLt : whole.2.length < (parseMinus s).2.length := by
    unfold parseWhole at hwhole
    dsimp only at hwhole
    split at hwhole
    · simp at hwhole
    · next hne =>
      simp only [Option.some.injEq] at hwhole
      subst hwhole
      have hlen := congrArg List.length
        (List.takeWhile_append_dropWhile (p := isDigit) (l := (parseMinus s).2))
      rw [List.length_append] at hlen
      have hpos := List.length_pos_of_ne_nil (not_or.mp hne).1
      dsimp only
      omega
  have hfracLe : frac.2.length ≤ whole.2.length := by
    unfold parseFrac at hfrac
    split at hfrac
    · next tail heq =>
      split at hfrac
      · simp at hfrac
      · simp only [Option.some.injEq] at hfrac
        subst hfrac
        have := (List.dropWhile_suffix isDigit (l := tail)).length_le
        rw [heq, List.length_cons]
        dsimp only
        omega
    · simp only [Option.some.injEq] at hfrac
      subst hfrac
      exact le_refl _
  have hexpLe : exp.2.length ≤ frac.2.length := by
    unfold parseExp at hexp
    split at hexp
    · next heq =>
      simp only [Option.some.injEq] at hexp
      subst hexp
      simp
    · next c tail heq =>
      split at hexp
      · dsimp only at hexp
        split at hexp
        · simp at hexp
        · simp only [Option.some.injEq] at hexp
          subst hexp
          have hsign : (parseExpSign tail).2.length ≤ tail.length := by
            unfold parseExpSign
            split <;> simp
          have := (List.dropWhile_suffix isDigit
            (l := (parseExpSign tail).2)).length_le
          rw [heq, List.length_cons]
          dsimp only
          omega
      · simp only [Option.some.injEq] at hexp
        subst hexp
        rw [heq]
  omega

/-- A reader that succeeds consumes something, and twice what it consumes is
fuel enough for the same result. -/
def Frugal {α : Type} (read : Nat → Text → Option (α × Text)) (fuel : Nat) :
    Prop :=
  ∀ s value rest, read fuel s = some (value, rest) →
    rest.length < s.length ∧
      ∀ m, 2 * (s.length - rest.length) ≤ m → read m s = some (value, rest)

theorem Frugal.zero {α : Type} {read : Nat → Text → Option (α × Text)}
    (h : ∀ s, read 0 s = none) : Frugal read 0 := by
  intro s value rest hread
  rw [h] at hread
  simp at hread

/-- Arrays and objects spend one step on their bracket. -/
theorem parseValue_frugal {fuel : Nat} (hitems : Frugal parseItems fuel)
    (hfields : Frugal parseFields fuel) : Frugal parseValue (fuel + 1) := by
  intro s term rest h
  have hskip := skipSpace_length_le s
  -- enough fuel is at least one step, and the step repeats the case taken
  suffices hgoal : rest.length < s.length ∧
      ∀ m, 2 * (s.length - rest.length) ≤ m + 1 →
        parseValue (m + 1) s = some (term, rest) by
    refine ⟨hgoal.1, fun m hm => ?_⟩
    obtain ⟨m', rfl⟩ : ∃ m', m = m' + 1 := ⟨m - 1, by omega⟩
    exact hgoal.2 m' hm
  rw [parseValue] at h
  split at h
  · next tail heq =>
    obtain ⟨rfl, rfl⟩ := Prod.mk.inj (Option.some.inj h)
    rw [heq] at hskip
    simp only [List.length_cons] at hskip
    exact ⟨by omega, fun m _ => parseValue_null heq⟩
  · next tail heq =>
    obtain ⟨rfl, rfl⟩ := Prod.mk.inj (Option.some.inj h)
    rw [heq] at hskip
    simp only [List.length_cons] at hskip
    exact ⟨by omega, fun m _ => parseValue_true heq⟩
  · next tail heq =>
    obtain ⟨rfl, rfl⟩ := Prod.mk.inj (Option.some.inj h)
    rw [heq] at hskip
    simp only [List.length_cons] at hskip
    exact ⟨by omega, fun m _ => parseValue_false heq⟩
  · next tail heq =>
    have hread : ∀ m, parseValue (m + 1) s = some (term, rest) := fun m =>
      (parseValue_str heq).trans h
    simp only [Option.map_eq_some_iff, Prod.mk.injEq] at h
    obtain ⟨r, hr, -, rfl⟩ := h
    have hlt := parsePieces_consumes hr
    rw [heq, List.length_cons] at hskip
    exact ⟨by omega, fun m _ => hread m⟩
  · next tail heq =>
    have hinner := skipSpace_length_le tail
    rw [heq, List.length_cons] at hskip
    split at h
    · next after hclose =>
      obtain ⟨rfl, rfl⟩ := Prod.mk.inj (Option.some.inj h)
      rw [hclose, List.length_cons] at hinner
      exact ⟨by omega, fun m _ => parseValue_arr_nil heq hclose⟩
    · next hopen =>
      simp only [Option.map_eq_some_iff, Prod.mk.injEq] at h
      obtain ⟨⟨items, after⟩, hr, rfl, rfl⟩ := h
      obtain ⟨hlt, henough⟩ := hitems _ _ _ hr
      dsimp only
      refine ⟨by omega, fun m hm => ?_⟩
      rw [parseValue_arr heq hopen, henough m (by omega)]
      rfl
  · next tail heq =>
    have hinner := skipSpace_length_le tail
    rw [heq, List.length_cons] at hskip
    split at h
    · next after hclose =>
      obtain ⟨rfl, rfl⟩ := Prod.mk.inj (Option.some.inj h)
      rw [hclose, List.length_cons] at hinner
      exact ⟨by omega, fun m _ => parseValue_obj_nil heq hclose⟩
    · next hopen =>
      simp only [Option.map_eq_some_iff, Prod.mk.injEq] at h
      obtain ⟨⟨fields, after⟩, hr, rfl, rfl⟩ := h
      obtain ⟨hlt, henough⟩ := hfields _ _ _ hr
      dsimp only
      refine ⟨by omega, fun m hm => ?_⟩
      rw [parseValue_obj heq hopen, henough m (by omega)]
      rfl
  · next hnull htrue hfalse hstr harr hobj =>
    have hread : ∀ m, parseValue (m + 1) s = some (term, rest) := fun m =>
      (parseValue_num hnull htrue hfalse hstr harr hobj).trans h
    simp only [Option.map_eq_some_iff, Prod.mk.injEq] at h
    obtain ⟨r, hr, -, rfl⟩ := h
    have hlt := parseNumeral_consumes hr
    exact ⟨by omega, fun m _ => hread m⟩

theorem parseItems_frugal {fuel : Nat} (hvalue : Frugal parseValue fuel)
    (hitems : Frugal parseItems fuel) : Frugal parseItems (fuel + 1) := by
  intro s items rest h
  rw [parseItems, Option.bind_eq_some_iff] at h
  obtain ⟨⟨item, after⟩, hitem, h⟩ := h
  obtain ⟨hlt, henough⟩ := hvalue _ _ _ hitem
  have hskip := skipSpace_length_le after
  dsimp only at h
  split at h
  · next tail heq =>
    obtain ⟨rfl, rfl⟩ := Prod.mk.inj (Option.some.inj h)
    rw [heq, List.length_cons] at hskip
    refine ⟨by omega, fun m hm => ?_⟩
    obtain ⟨m', rfl⟩ : ∃ m', m = m' + 1 := ⟨m - 1, by omega⟩
    exact parseItems_last (henough m' (by omega)) heq
  · next tail heq =>
    simp only [Option.map_eq_some_iff, Prod.mk.injEq] at h
    obtain ⟨⟨others, rest'⟩, hr, rfl, rfl⟩ := h
    obtain ⟨hlt', henough'⟩ := hitems _ _ _ hr
    dsimp only
    rw [heq, List.length_cons] at hskip
    refine ⟨by omega, fun m hm => ?_⟩
    obtain ⟨m', rfl⟩ : ∃ m', m = m' + 1 := ⟨m - 1, by omega⟩
    rw [parseItems_cons (henough m' (by omega)) heq, henough' m' (by omega)]
    rfl
  · simp at h

theorem parseFields_frugal {fuel : Nat} (hvalue : Frugal parseValue fuel)
    (hfields : Frugal parseFields fuel) : Frugal parseFields (fuel + 1) := by
  intro s fields rest h
  have hskip := skipSpace_length_le s
  rw [parseFields] at h
  split at h
  · next inside hquote =>
    rw [hquote, List.length_cons] at hskip
    rw [Option.bind_eq_some_iff] at h
    obtain ⟨⟨key, afterKey⟩, hkey, h⟩ := h
    have hkeyLt := parsePieces_consumes hkey
    have hkeySkip := skipSpace_length_le afterKey
    dsimp only at h
    split at h
    · next start hcolon =>
      rw [hcolon, List.length_cons] at hkeySkip
      rw [Option.bind_eq_some_iff] at h
      obtain ⟨⟨value, after⟩, hread, h⟩ := h
      obtain ⟨hlt, henough⟩ := hvalue _ _ _ hread
      have hafter := skipSpace_length_le after
      have hmember : ∀ m, 2 * (start.length - after.length) ≤ m →
          ReadsMember m s key value after := fun m hm =>
        ⟨inside, afterKey, start, hquote, hkey, hcolon, henough m hm⟩
      dsimp only at h
      split at h
      · next tail heq =>
        obtain ⟨rfl, rfl⟩ := Prod.mk.inj (Option.some.inj h)
        rw [heq, List.length_cons] at hafter
        refine ⟨by omega, fun m hm => ?_⟩
        obtain ⟨m', rfl⟩ : ∃ m', m = m' + 1 := ⟨m - 1, by omega⟩
        exact parseFields_last (hmember m' (by omega)) heq
      · next tail heq =>
        simp only [Option.map_eq_some_iff, Prod.mk.injEq] at h
        obtain ⟨⟨others, rest'⟩, hr, rfl, rfl⟩ := h
        obtain ⟨hlt', henough'⟩ := hfields _ _ _ hr
        dsimp only
        rw [heq, List.length_cons] at hafter
        refine ⟨by omega, fun m hm => ?_⟩
        obtain ⟨m', rfl⟩ : ∃ m', m = m' + 1 := ⟨m - 1, by omega⟩
        rw [parseFields_cons (hmember m' (by omega)) heq,
          henough' m' (by omega)]
        rfl
      · simp at h
    · simp at h
  · simp at h

/-- Every reader is frugal at every fuel. -/
theorem readers_frugal (fuel : Nat) :
    Frugal parseValue fuel ∧ Frugal parseItems fuel ∧
      Frugal parseFields fuel := by
  induction fuel with
  | zero =>
      exact ⟨.zero fun s => by rw [parseValue], .zero fun s => by rw [parseItems],
        .zero fun s => by rw [parseFields]⟩
  | succ fuel ih =>
      obtain ⟨hvalue, hitems, hfields⟩ := ih
      exact ⟨parseValue_frugal hitems hfields, parseItems_frugal hvalue hitems,
        parseFields_frugal hvalue hfields⟩

/-- Whatever fuel a value was read with, `parse` reads it too. -/
theorem parse_of_parseValue {fuel : Nat} {s rest : Text} {term : Term}
    (h : parseValue fuel s = some (term, rest)) (hrest : skipSpace rest = []) :
    parse s = some term := by
  obtain ⟨hlt, henough⟩ := (readers_frugal fuel).1 s term rest h
  rw [parse, henough (fuelFor s) (by unfold fuelFor; omega), Option.bind_some,
    if_pos hrest]

end Json

end CybexOS
