/-
`str.splitlines` of Python, and the lines of it that are not empty.
-/
import CybexOS.Text

namespace CybexOS

namespace PyLines

/-- A character at which `splitlines` ends a line. -/
def isBreak (c : Nat) : Bool :=
  (10 ≤ c && c ≤ 13) || (28 ≤ c && c ≤ 30) || c == 0x85 || c == 0x2028 || c == 0x2029

/-- `text.splitlines()`; a carriage return and a line feed end one line. -/
def splitlines : Text → List Text
  | [] => []
  | 13 :: 10 :: text => [] :: splitlines text
  | c :: text =>
      if isBreak c then [] :: splitlines text
      else
        match splitlines text with
        | [] => [[c]]
        | line :: lines => (c :: line) :: lines

/-- The lines that are not empty. -/
def pieces (text : Text) : List Text := (splitlines text).filter (· ≠ [])

variable {text : Text} {c : Nat}

theorem splitlines_break (hc : isBreak c = true) (hreturn : c ≠ 13) (text : Text) :
    splitlines (c :: text) = [] :: splitlines text := by
  rw [splitlines.eq_3 _ _ (fun _ h => absurd h hreturn), if_pos hc]

theorem splitlines_cons (hc : isBreak c = false) (text : Text) :
    splitlines (c :: text) =
      match splitlines text with
      | [] => [[c]]
      | line :: lines => (c :: line) :: lines := by
  have hreturn : c ≠ 13 := by
    rintro rfl
    cases hc
  rw [splitlines.eq_3 _ _ (fun _ h => absurd h hreturn), if_neg (by simp [hc])]

/-- Up to a last empty piece the lines are those between the breaks. -/
theorem splitOnP_eq (h : 13 ∉ text) :
    text.splitOnP isBreak = splitlines text ∨ text.splitOnP isBreak = splitlines text ++ [[]] := by
  induction text with
  | nil => exact Or.inr List.splitOnP_nil
  | cons c text ih =>
      obtain ⟨hc, htext⟩ := not_or.mp (fun hmem => h (List.mem_cons.mpr hmem))
      rw [List.splitOnP_cons_eq_if_modifyHead]
      cases hbreak : isBreak c with
      | true =>
          rw [splitlines_break hbreak (Ne.symm hc), if_pos rfl]
          exact (ih htext).imp (congrArg _) (congrArg _)
      | false =>
          rw [splitlines_cons hbreak, if_neg Bool.false_ne_true]
          rcases ih htext with hsame | hmore
          · rw [hsame]
            cases hlines : splitlines text with
            | nil => exact absurd (hsame.trans hlines) (List.splitOnP_ne_nil _ _)
            | cons line lines => exact Or.inl rfl
          · rw [hmore]
            cases splitlines text with
            | nil => exact Or.inl rfl
            | cons line lines => exact Or.inr rfl

theorem pieces_eq (h : 13 ∉ text) :
    pieces text = (text.splitOnP isBreak).filter (· ≠ []) := by
  rcases splitOnP_eq h with hsame | hmore
  · rw [hsame, pieces]
  · rw [hmore, pieces, List.filter_append]
    simp

/-- A break parts the lines before it from those after it. -/
theorem pieces_append {rest : Text} (hc : isBreak c = true) (hreturn : 13 ∉ text ++ c :: rest) :
    pieces (text ++ c :: rest) = pieces text ++ pieces rest := by
  have htext : 13 ∉ text := fun h => hreturn (List.mem_append_left _ h)
  have hrest : 13 ∉ rest := fun h =>
    hreturn (List.mem_append_right _ (List.mem_cons_of_mem _ h))
  rw [pieces_eq hreturn, pieces_eq htext, pieces_eq hrest, List.splitOnP_append_cons _ _ hc,
    List.filter_append]

/-- A text without a break is one line. -/
theorem pieces_plain (hne : text ≠ []) (h : ∀ c ∈ text, isBreak c = false) :
    pieces text = [text] := by
  have hreturn : 13 ∉ text := fun hmem => absurd (h 13 hmem) (by decide)
  rw [pieces_eq hreturn, List.splitOnP_eq_singleton h, List.filter_cons_of_pos (by simpa using hne),
    List.filter_nil]

/-- Breaks at the front start no line. -/
theorem pieces_dropWhile (h : 13 ∉ text) : pieces (text.dropWhile isBreak) = pieces text := by
  induction text with
  | nil => rfl
  | cons c text ih =>
      by_cases hc : isBreak c = true
      · have htext : 13 ∉ text := fun hmem => h (List.mem_cons_of_mem _ hmem)
        rw [List.dropWhile_cons_of_pos hc, ih htext]
        exact (@pieces_append [] c text hc h).symm
      · rw [List.dropWhile_cons_of_neg hc]

/-- Breaks at the end end no line but the last. -/
theorem pieces_rdropWhile (h : 13 ∉ text) : pieces (text.rdropWhile isBreak) = pieces text := by
  induction text using List.reverseRecOn with
  | nil => rfl
  | append_singleton text c ih =>
      by_cases hc : isBreak c = true
      · have htext : 13 ∉ text := fun hmem => h (List.mem_append_left _ hmem)
        rw [List.rdropWhile_concat_pos _ _ _ hc, ih htext, pieces_append hc h]
        exact (List.append_nil _).symm
      · rw [List.rdropWhile_concat_neg _ _ _ hc]

end PyLines

end CybexOS
