/-
Texts as words between spaces, for any notion of a space.
-/
import CybexOS.Text

namespace CybexOS

namespace Words

variable (isSpace : ℕ → Bool)

/-- The text is over, or goes on with a space. -/
def breaks (text : Text) : Bool := text.head?.all isSpace

/-- A unit before the first word. -/
def extend (c : ℕ) : List Text → List Text
  | [] => [[c]]
  | word :: others => (c :: word) :: others

/-- `str.split()`, the longest runs without a space. -/
def words : Text → List Text
  | [] => []
  | c :: rest =>
      if isSpace c then words rest
      else if breaks isSpace rest then [c] :: words rest
      else extend c (words rest)

variable {isSpace}

theorem words_space {space : Text} (h : space.all isSpace = true) (rest : Text) :
    words isSpace (space ++ rest) = words isSpace rest := by
  induction space with
  | nil => rfl
  | cons c space ih =>
      rw [List.all_cons, Bool.and_eq_true] at h
      rw [List.cons_append, words, if_pos h.1, ih h.2]

theorem words_word {word : Text} (hne : word ≠ []) (h : word.all (fun c => !isSpace c) = true)
    {rest : Text} (hrest : breaks isSpace rest = true) :
    words isSpace (word ++ rest) = word :: words isSpace rest := by
  induction word with
  | nil => exact absurd rfl hne
  | cons c word ih =>
      rw [List.all_cons, Bool.and_eq_true, Bool.not_eq_true'] at h
      rw [List.cons_append, words, if_neg (by simp [h.1])]
      cases word with
      | nil => rw [List.nil_append, if_pos hrest]
      | cons next word =>
          have hnext : breaks isSpace (next :: word ++ rest) = false := by
            rw [List.all_cons, Bool.and_eq_true, Bool.not_eq_true'] at h
            simpa [breaks] using h.2.1
          rw [if_neg (Bool.eq_false_iff.mp hnext), ih (by simp) h.2]
          rfl

theorem words_eq_nil {text : Text} (h : words isSpace text = []) : text.all isSpace = true := by
  induction text with
  | nil => rfl
  | cons c text ih =>
      rw [words] at h
      split_ifs at h with hc hbreak
      · rw [List.all_cons, hc, ih h]
        rfl
      · unfold extend at h
        split at h <;> cases h

/-- The first word stands between spaces and what follows it. -/
theorem words_eq_cons {text word : Text} {others : List Text}
    (h : words isSpace text = word :: others) :
    ∃ space rest, text = space ++ word ++ rest ∧ space.all isSpace = true ∧ word ≠ [] ∧
      word.all (fun c => !isSpace c) = true ∧ breaks isSpace rest = true ∧
      words isSpace rest = others := by
  induction text generalizing word with
  | nil => cases h
  | cons c text ih =>
      rw [words] at h
      split_ifs at h with hc hbreak
      · obtain ⟨space, rest, rfl, hspace, hword⟩ := ih h
        exact ⟨c :: space, rest, rfl, by simp [hc, hspace], hword⟩
      · obtain ⟨rfl, rfl⟩ := List.cons.inj h
        exact ⟨[], text, rfl, rfl, by simp, by simp [hc], hbreak, rfl⟩
      · cases hwords : words isSpace text with
        | nil =>
            -- a text without words that does not begin with a space is empty
            have hspaces := words_eq_nil hwords
            cases text with
            | nil => simp [breaks] at hbreak
            | cons next text =>
                rw [List.all_cons, Bool.and_eq_true] at hspaces
                simp [breaks, hspaces.1] at hbreak
        | cons first rest =>
            rw [hwords] at h
            obtain ⟨rfl, rfl⟩ := List.cons.inj h
            obtain ⟨space, after, rfl, hspace, -, hall, hafter, hrest⟩ := ih hwords
            cases space with
            | nil => exact ⟨[], after, rfl, rfl, by simp, by simp [hc, hall], hafter, hrest⟩
            | cons next space =>
                rw [List.all_cons, Bool.and_eq_true] at hspace
                simp [breaks, hspace.1] at hbreak

/-- Words do not reach across a space. -/
theorem words_append {text rest : Text}
    (h : breaks isSpace rest = true ∨ text.getLast?.all isSpace = true) :
    words isSpace (text ++ rest) = words isSpace text ++ words isSpace rest := by
  induction text with
  | nil => rfl
  | cons c text ih =>
      have htail : breaks isSpace rest = true ∨ text.getLast?.all isSpace = true := by
        refine h.imp id fun hlast => ?_
        cases text with
        | nil => rfl
        | cons next text => rwa [List.getLast?_cons_cons] at hlast
      rw [List.cons_append, words, words, ih htail]
      by_cases hc : isSpace c = true
      · rw [if_pos hc, if_pos hc]
      · rw [if_neg hc, if_neg hc]
        cases text with
        | nil =>
            have hrest : breaks isSpace rest = true := h.resolve_right (by simpa using hc)
            have hnil : breaks isSpace [] = true := rfl
            rw [List.nil_append, if_pos hrest, if_pos hnil]
            rfl
        | cons next text =>
            have hsame : breaks isSpace (next :: text ++ rest) = breaks isSpace (next :: text) := rfl
            rw [hsame]
            by_cases hbreak : breaks isSpace (next :: text) = true
            · rw [if_pos hbreak, if_pos hbreak]
              rfl
            · rw [if_neg hbreak, if_neg hbreak]
              cases hwords : words isSpace (next :: text) with
              | nil =>
                  have hspaces := words_eq_nil hwords
                  rw [List.all_cons, Bool.and_eq_true] at hspaces
                  simp [breaks, hspaces.1] at hbreak
              | cons word others => rfl

end Words

end CybexOS
