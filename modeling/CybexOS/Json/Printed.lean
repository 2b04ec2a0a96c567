/-
The units a printed JSON term consists of.
-/
import CybexOS.Json.Print

namespace CybexOS

namespace Json

/-- No control character but the line break. -/
def PrintedUnit (c : Nat) : Prop := c = 10 ∨ 32 ≤ c

instance : DecidablePred PrintedUnit := fun _ => inferInstanceAs (Decidable (_ ∨ _))

theorem newline_printedUnit (depth : Nat) : ∀ c ∈ newline depth, PrintedUnit c := by
  intro c hc
  rcases List.mem_cons.mp hc with rfl | hc
  · exact Or.inl rfl
  · rw [List.eq_of_mem_replicate hc]
    exact Or.inr (le_refl 32)

theorem digit_printedUnit {digits : Text} (h : digits.all isDigit = true) :
    ∀ c ∈ digits, PrintedUnit c := by
  intro c hc
  have hdigit := List.all_eq_true.mp h c hc
  simp only [isDigit, Bool.and_eq_true, decide_eq_true_eq] at hdigit
  exact Or.inr (by omega)

theorem hexDigit_printedUnit (n : Nat) : PrintedUnit (hexDigit n) := by
  unfold hexDigit PrintedUnit
  split <;> omega

theorem piece_printedUnit {piece : Piece} (h : piece.Printable) :
    ∀ c ∈ piece.print, PrintedUnit c := by
  intro c hc
  cases piece with
  | lit unit =>
      unfold Piece.print at hc
      dsimp only at hc
      split at hc
      all_goals try
        (simp only [List.mem_cons, List.not_mem_nil, or_false] at hc
         rcases hc with rfl | rfl <;> exact Or.inr (by omega))
      next hquote hslash h8 h9 h10 h12 h13 =>
        rw [List.mem_singleton] at hc
        subst hc
        rcases h with h | h
        · exact Or.inr h
        · simp only [List.mem_cons, List.not_mem_nil, or_false] at h
          exact absurd h (by tauto)
  | hex unit =>
      simp only [Piece.print, List.mem_cons, List.not_mem_nil, or_false] at hc
      rcases hc with rfl | rfl | rfl | rfl | rfl | rfl
      · exact Or.inr (by omega)
      · exact Or.inr (by omega)
      all_goals exact hexDigit_printedUnit _

theorem printPieces_printedUnit {pieces : List Piece}
    (h : ∀ piece ∈ pieces, piece.Printable) :
    ∀ c ∈ printPieces pieces, PrintedUnit c := by
  intro c hc
  simp only [printPieces, List.mem_cons, List.mem_append, List.mem_flatMap,
    List.not_mem_nil, or_false] at hc
  rcases hc with rfl | ⟨piece, hpiece, hc⟩ | rfl
  · exact Or.inr (by omega)
  · exact piece_printedUnit (h piece hpiece) c hc
  · exact Or.inr (by omega)

theorem numeral_printedUnit {n : Numeral} (h : n.WellFormed) :
    ∀ c ∈ n.print, PrintedUnit c := by
  intro c hc
  have hwhole := digit_printedUnit h.whole
  have hfrac := digit_printedUnit h.frac
  have hexp : ∀ c ∈ printExp n.exp, PrintedUnit c := by
    intro c hc
    cases hcase : n.exp with
    | none => simp [hcase, printExp] at hc
    | some e =>
        obtain ⟨sign, digits⟩ := e
        have hdigits := digit_printedUnit (h.exp _ hcase).2
        rcases sign with _ | _ | _ <;>
          simp only [hcase, printExp, List.mem_cons] at hc
        · rcases hc with rfl | hc
          · exact Or.inr (by omega)
          · exact hdigits c hc
        all_goals
          rcases hc with rfl | rfl | hc
          · exact Or.inr (by omega)
          · exact Or.inr (by omega)
          · exact hdigits c hc
  rw [Numeral.print, List.mem_append, List.mem_append, List.mem_append] at hc
  rcases hc with hc | hc | hc | hc
  · split at hc
    · rw [List.mem_singleton.mp hc]
      exact Or.inr (by omega)
    · simp at hc
  · exact hwhole c hc
  · unfold printFrac at hc
    split at hc
    · simp at hc
    · rcases List.mem_cons.mp hc with rfl | hc
      · exact Or.inr (by omega)
      · exact hfrac c hc
  · exact hexp c hc

theorem printItems_printedUnit {items : List Term} {depth : Nat}
    (h : ∀ item ∈ items, ∀ c ∈ item.print depth, PrintedUnit c) :
    ∀ c ∈ printItems depth items, PrintedUnit c := by
  induction items with
  | nil => simp [printItems]
  | cons item items ih =>
      rw [List.forall_mem_cons] at h
      intro c hc
      rw [printItems, List.cons_append, List.mem_cons, List.mem_append,
        List.mem_append] at hc
      rcases hc with rfl | (hc | hc) | hc
      · exact Or.inr (by omega)
      · exact newline_printedUnit depth c hc
      · exact h.1 c hc
      · exact ih h.2 c hc

theorem printField_printedUnit {field : List Piece × Term} {depth : Nat}
    (hkey : ∀ piece ∈ field.1, piece.Printable)
    (hvalue : ∀ c ∈ field.2.print depth, PrintedUnit c) :
    ∀ c ∈ printField depth field, PrintedUnit c := by
  intro c hc
  rw [printField, List.mem_append, List.mem_cons, List.mem_cons] at hc
  rcases hc with hc | rfl | rfl | hc
  · exact printPieces_printedUnit hkey c hc
  · exact Or.inr (by omega)
  · exact Or.inr (by omega)
  · exact hvalue c hc

theorem printFields_printedUnit {fields : List (List Piece × Term)} {depth : Nat}
    (h : ∀ field ∈ fields, ∀ c ∈ printField depth field, PrintedUnit c) :
    ∀ c ∈ printFields depth fields, PrintedUnit c := by
  induction fields with
  | nil => simp [printFields]
  | cons field fields ih =>
      rw [List.forall_mem_cons] at h
      intro c hc
      rw [printFields, List.cons_append, List.mem_cons, List.mem_append,
        List.mem_append] at hc
      rcases hc with rfl | (hc | hc) | hc
      · exact Or.inr (by omega)
      · exact newline_printedUnit depth c hc
      · exact h.1 c hc
      · exact ih h.2 c hc

/-- A printed term holds no carriage return, so reading the text line by line
changes nothing. -/
theorem print_printedUnit {term : Term} (h : term.Printable) :
    ∀ depth, ∀ c ∈ term.print depth, PrintedUnit c := by
  induction h with
  | null => intro depth c hc; rw [Term.print] at hc; revert c; decide
  | bool value =>
      intro depth c hc
      cases value <;> rw [Term.print] at hc <;> revert c <;> decide
  | num numeral h => intro depth; rw [Term.print]; exact numeral_printedUnit h
  | str pieces h => intro depth; rw [Term.print]; exact printPieces_printedUnit h
  | arr items h ih =>
      intro depth c hc
      cases items with
      | nil => rw [Term.print] at hc; revert c; decide
      | cons item items =>
          rw [List.forall_mem_cons] at ih
          simp only [Term.print, List.mem_cons, List.mem_append, List.not_mem_nil,
            or_false] at hc
          rcases hc with rfl | (((hc | hc) | hc) | hc) | rfl
          · exact Or.inr (by omega)
          · exact newline_printedUnit _ c hc
          · exact ih.1 _ c hc
          · exact printItems_printedUnit (fun item hitem => ih.2 item hitem _) c hc
          · exact newline_printedUnit _ c hc
          · exact Or.inr (by omega)
  | obj fields hkeys hvalues ih =>
      intro depth c hc
      cases fields with
      | nil => rw [Term.print] at hc; revert c; decide
      | cons field fields =>
          have hfield : ∀ other ∈ field :: fields, ∀ depth,
              ∀ c ∈ printField depth other, PrintedUnit c := fun other hother depth =>
            printField_printedUnit (hkeys other hother) (ih other hother depth)
          rw [List.forall_mem_cons] at hfield
          simp only [Term.print, List.mem_cons, List.mem_append, List.not_mem_nil,
            or_false] at hc
          rcases hc with rfl | (((hc | hc) | hc) | hc) | rfl
          · exact Or.inr (by omega)
          · exact newline_printedUnit _ c hc
          · exact hfield.1 _ c hc
          · exact printFields_printedUnit
              (fun other hother => hfield.2 other hother _) c hc
          · exact newline_printedUnit _ c hc
          · exact Or.inr (by omega)

end Json

end CybexOS
