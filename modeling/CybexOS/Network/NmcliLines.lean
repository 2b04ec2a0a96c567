/-
The lines that nmcli prints give back their fields, unless a field holds a
character at which `splitlines` breaks.
-/
import CybexOS.Network.Nmcli

namespace CybexOS

namespace Network

namespace Nmcli

open PyLines (isBreak pieces)

/-- No character at which `splitlines` breaks. -/
def Plain (text : Text) : Prop := ∀ c ∈ text, isBreak c = false

instance (text : Text) : Decidable (Plain text) := List.decidableBAll _ text

variable {text : Text} {fields : List Text}

/-! ### Escapes -/

theorem escape_append (a b : Text) : escape (a ++ b) = escape a ++ escape b := List.flatMap_append

theorem escape_cons_break {c : ℕ} (hc : isBreak c = true) (text : Text) :
    escape (c :: text) = c :: escape text := by
  rw [escape, List.flatMap_cons, if_neg]
  · rfl
  · rintro (rfl | rfl) <;> cases hc

theorem mem_escape {c : ℕ} (h : c ∈ escape text) : c = BACKSLASH ∨ c ∈ text := by
  obtain ⟨unit, hunit, hc⟩ := List.mem_flatMap.mp h
  split_ifs at hc
  · rcases List.mem_cons.mp hc with rfl | hc
    · exact Or.inl rfl
    · exact Or.inr (List.mem_singleton.mp hc ▸ hunit)
  · exact Or.inr (List.mem_singleton.mp hc ▸ hunit)

theorem escape_ne_nil (h : text ≠ []) : escape text ≠ [] := by
  cases text with
  | nil => exact absurd rfl h
  | cons c text =>
      rw [escape, List.flatMap_cons]
      split_ifs <;> simp

theorem plain_escape (h : Plain text) : Plain (escape text) := by
  intro c hc
  rcases mem_escape hc with rfl | hmem
  · rfl
  · exact h c hmem

theorem escape_dropWhile (text : Text) :
    (escape text).dropWhile isBreak = escape (text.dropWhile isBreak) := by
  induction text with
  | nil => rfl
  | cons c text ih =>
      by_cases hc : isBreak c = true
      · rw [escape_cons_break hc, List.dropWhile_cons_of_pos hc, List.dropWhile_cons_of_pos hc, ih]
      · rw [List.dropWhile_cons_of_neg hc, escape, List.flatMap_cons]
        split_ifs with hmark
        · exact List.dropWhile_cons_of_neg (by decide)
        · exact List.dropWhile_cons_of_neg hc

theorem escape_rdropWhile (text : Text) :
    (escape text).rdropWhile isBreak = escape (text.rdropWhile isBreak) := by
  induction text using List.reverseRecOn with
  | nil => rfl
  | append_singleton text c ih =>
      rw [escape_append]
      by_cases hc : isBreak c = true
      · rw [escape_cons_break hc, List.rdropWhile_concat_pos _ _ _ hc]
        exact (List.rdropWhile_concat_pos _ _ _ hc).trans ih
      · rw [List.rdropWhile_concat_neg _ _ _ hc, escape_append]
        have hlast : escape [c] = (escape [c]).dropLast ++ [c] := by
          simp only [escape, List.flatMap_singleton]
          split_ifs <;> rfl
        rw [hlast, ← List.append_assoc]
        exact List.rdropWhile_concat_neg _ _ _ hc

/-! ### Fields -/

theorem terse_singleton (field : Text) : terse [field] = escape field := by
  simp [terse, List.intercalate]

theorem terse_cons (field : Text) (h : fields ≠ []) :
    terse (field :: fields) = escape field ++ COLON :: terse fields := by
  obtain ⟨next, rest, rfl⟩ := List.exists_cons_of_ne_nil h
  simp [terse, List.intercalate, List.intersperse]

theorem foldl_escape (output : List Text) (current text : Text) :
    (escape text).foldl Splitting.take ⟨output, current, false⟩ =
      ⟨output, current ++ text, false⟩ := by
  induction text generalizing current with
  | nil => simp [escape]
  | cons c text ih =>
      have hstep : (escape (c :: text)).foldl Splitting.take ⟨output, current, false⟩ =
          (escape text).foldl Splitting.take ⟨output, current ++ [c], false⟩ := by
        rw [escape, List.flatMap_cons, List.foldl_append]
        by_cases hc : c = COLON ∨ c = BACKSLASH
        · rw [if_pos hc]
          rfl
        · have hnot := not_or.mp hc
          rw [if_neg hc, List.foldl_cons, List.foldl_nil, Splitting.take, if_neg Bool.false_ne_true,
            if_neg hnot.2, if_neg hnot.1]
          rfl
      rw [hstep, ih, List.append_assoc, List.singleton_append]

theorem foldl_terse (output : List Text) (current field : Text) (fields : List Text) :
    ∃ s : Splitting, (terse (field :: fields)).foldl Splitting.take ⟨output, current, false⟩ = s ∧
      s.escaped = false ∧ s.output ++ [s.current] = output ++ (current ++ field) :: fields := by
  induction fields generalizing output current field with
  | nil => exact ⟨_, by rw [terse_singleton, foldl_escape], rfl, rfl⟩
  | cons next fields ih =>
      obtain ⟨s, hs, hescaped, houtput⟩ := ih (output ++ [current ++ field]) [] next
      refine ⟨s, ?_, hescaped, by simpa using houtput⟩
      rw [terse_cons field (List.cons_ne_nil _ _), List.foldl_append, foldl_escape, List.foldl_cons]
      exact hs

/-- What was joined is split again. -/
theorem splitEscaped_terse (h : fields ≠ []) : splitEscaped (terse fields) = .ok fields := by
  obtain ⟨field, rest, rfl⟩ := List.exists_cons_of_ne_nil h
  obtain ⟨s, hs, hescaped, houtput⟩ := foldl_terse [] [] field rest
  simp only [splitEscaped, hs, hescaped, houtput, Bool.false_eq_true, if_false, List.nil_append]

theorem mem_terse {c : ℕ} (h : c ∈ terse fields) :
    c = BACKSLASH ∨ c = COLON ∨ ∃ field ∈ fields, c ∈ field := by
  induction fields with
  | nil => simp [terse, List.intercalate] at h
  | cons field fields ih =>
      by_cases hrest : fields = []
      · subst hrest
        rw [terse_singleton] at h
        exact (mem_escape h).imp id fun hc => Or.inr ⟨field, List.mem_cons_self, hc⟩
      · rw [terse_cons field hrest, List.mem_append, List.mem_cons] at h
        rcases h with h | rfl | h
        · exact (mem_escape h).imp id fun hc => Or.inr ⟨field, List.mem_cons_self, hc⟩
        · exact Or.inr (Or.inl rfl)
        · rcases ih h with hc | hc | ⟨other, hother, hc⟩
          · exact Or.inl hc
          · exact Or.inr (Or.inl hc)
          · exact Or.inr (Or.inr ⟨other, List.mem_cons_of_mem _ hother, hc⟩)

theorem plain_terse (h : ∀ field ∈ fields, Plain field) : Plain (terse fields) := by
  intro c hc
  rcases mem_terse hc with rfl | rfl | ⟨field, hfield, hmem⟩
  · rfl
  · rfl
  · exact h field hfield c hmem

theorem not_mem_terse {c : ℕ} (hmark : c ≠ BACKSLASH ∧ c ≠ COLON)
    (h : ∀ field ∈ fields, c ∉ field) : c ∉ terse fields := by
  intro hc
  rcases mem_terse hc with rfl | rfl | ⟨field, hfield, hmem⟩
  · exact hmark.1 rfl
  · exact hmark.2 rfl
  · exact h field hfield hmem

theorem replaceCrLf_eq (h : 13 ∉ text) : replaceCrLf text = text := by
  induction text with
  | nil => rfl
  | cons c text ih =>
      obtain ⟨hc, htext⟩ := not_or.mp fun hmem => h (List.mem_cons.mpr hmem)
      rw [replaceCrLf.eq_3 _ _ fun _ heq => absurd heq.symm hc, ih htext]

/-! ### Lines that are broken -/

/-- The first break of a text. -/
theorem exists_break (h : ¬Plain text) :
    ∃ before c after, text = before ++ c :: after ∧ Plain before ∧ isBreak c = true := by
  induction text with
  | nil => exact absurd (fun c hc => absurd hc List.not_mem_nil) h
  | cons c text ih =>
      by_cases hc : isBreak c = true
      · exact ⟨[], c, text, rfl, fun c hc => absurd hc List.not_mem_nil, hc⟩
      · have htext : ¬Plain text := by
          intro hplain
          refine h fun d hd => ?_
          rcases List.mem_cons.mp hd with rfl | hd
          · simpa using hc
          · exact hplain d hd
        obtain ⟨before, d, after, rfl, hbefore, hd⟩ := ih htext
        refine ⟨c :: before, d, after, rfl, ?_, hd⟩
        intro e he
        rcases List.mem_cons.mp he with rfl | he
        · simpa using hc
        · exact hbefore e he

/-- The first field with a break. -/
theorem exists_broken (h : ¬∀ field ∈ fields, Plain field) :
    ∃ before field after, fields = before ++ field :: after ∧ (∀ other ∈ before, Plain other) ∧
      ¬Plain field := by
  induction fields with
  | nil => exact absurd (fun _ hmem => absurd hmem List.not_mem_nil) h
  | cons field fields ih =>
      by_cases hfield : Plain field
      · have hrest : ¬∀ other ∈ fields, Plain other := by
          intro hall
          exact h fun other hother => by
            rcases List.mem_cons.mp hother with rfl | hother
            · exact hfield
            · exact hall other hother
        obtain ⟨before, broken, after, rfl, hbefore, hbroken⟩ := ih hrest
        refine ⟨field :: before, broken, after, rfl, ?_, hbroken⟩
        intro other hother
        rcases List.mem_cons.mp hother with rfl | hother
        · exact hfield
        · exact hbefore other hother
      · exact ⟨[], field, fields, rfl, fun _ hmem => absurd hmem List.not_mem_nil, hfield⟩

/-- A text with more than breaks makes a line of one field. -/
theorem exists_piece_escape (hreturn : 13 ∉ escape text) (h : text.dropWhile isBreak ≠ []) :
    ∃ field, escape field ∈ pieces (escape text) := by
  have hdrop : 13 ∉ escape (text.dropWhile isBreak) := by
    rw [← escape_dropWhile]
    exact fun hmem => hreturn ((List.dropWhile_suffix _).mem hmem)
  rw [← PyLines.pieces_dropWhile hreturn, escape_dropWhile]
  by_cases hplain : Plain (text.dropWhile isBreak)
  · refine ⟨text.dropWhile isBreak, ?_⟩
    rw [PyLines.pieces_plain (escape_ne_nil h) (plain_escape hplain)]
    exact List.mem_cons_self
  · obtain ⟨before, c, after, hsplit, hbefore, hc⟩ := exists_break hplain
    have hne : before ≠ [] := by
      rintro rfl
      have hhead := head_dropWhile_not (p := isBreak) text c (by rw [hsplit]; rfl)
      rw [hc] at hhead
      cases hhead
    rw [hsplit, escape_append, escape_cons_break hc] at hdrop ⊢
    rw [PyLines.pieces_append hc hdrop, PyLines.pieces_plain (escape_ne_nil hne)
      (plain_escape hbefore)]
    exact ⟨before, List.mem_append_left _ List.mem_cons_self⟩

theorem terse_append (before : List Text) (field : Text) (after : List Text) :
    terse (before ++ field :: after) =
      (before.flatMap fun other => escape other ++ [COLON]) ++ escape field ++
        after.flatMap fun other => COLON :: escape other := by
  induction before with
  | nil =>
      induction after generalizing field with
      | nil => simp [terse_singleton]
      | cons next after ih =>
          rw [List.nil_append, terse_cons field (List.cons_ne_nil _ _)]
          have hnext := ih next
          rw [List.nil_append] at hnext
          rw [hnext]
          simp
  | cons other before ih =>
      rw [List.cons_append, terse_cons other (by simp), ih]
      simp

/-- A break inside leaves a line with too few fields. -/
theorem exists_short_piece (hreturn : 13 ∉ terse fields) (hlength : 2 ≤ fields.length)
    (hhead : ∀ c ∈ (fields.headD []).head?, isBreak c = false)
    (hlast : ∀ c ∈ (fields.getLastD []).getLast?, isBreak c = false)
    (h : ¬∀ field ∈ fields, Plain field) :
    ∃ values ≠ [], terse values ∈ pieces (terse fields) ∧ values.length < fields.length := by
  obtain ⟨before, field, after, rfl, hbefore, hbroken⟩ := exists_broken h
  obtain ⟨start, c, rest, rfl, hstart, hc⟩ := exists_break hbroken
  have hvalues : terse (before ++ [start]) =
      (before.flatMap fun other => escape other ++ [COLON]) ++ escape start := by
    rw [terse_append]
    exact List.append_nil _
  have hsplit : terse (before ++ (start ++ c :: rest) :: after) = terse (before ++ [start]) ++
      c :: (escape rest ++ after.flatMap fun other => COLON :: escape other) := by
    rw [terse_append, hvalues, escape_append, escape_cons_break hc]
    simp
  have hne : terse (before ++ [start]) ≠ [] := by
    cases before with
    | nil =>
        rw [List.nil_append, terse_singleton]
        refine escape_ne_nil ?_
        rintro rfl
        have hfirst := hhead c rfl
        rw [hc] at hfirst
        cases hfirst
    | cons other before =>
        rw [List.cons_append, terse_cons other (by simp)]
        simp
  have hplain : Plain (terse (before ++ [start])) := by
    refine plain_terse fun other hother => ?_
    rcases List.mem_append.mp hother with hother | hother
    · exact hbefore other hother
    · exact List.mem_singleton.mp hother ▸ hstart
  rw [hsplit] at hreturn ⊢
  rw [PyLines.pieces_append hc hreturn, PyLines.pieces_plain hne hplain]
  cases after with
  | cons next after =>
      exact ⟨before ++ [start], by simp, List.mem_append_left _ List.mem_cons_self, by simp⟩
  | nil =>
      rw [List.flatMap_nil, List.append_nil] at hreturn ⊢
      have hrest : 13 ∉ escape rest := fun hmem =>
        hreturn (List.mem_append_right _ (List.mem_cons_of_mem _ hmem))
      have hmore : rest.dropWhile isBreak ≠ [] := by
        intro hempty
        have hall := List.dropWhile_eq_nil_iff.mp hempty
        have hend : ∃ last, (start ++ c :: rest).getLast? = some last ∧ isBreak last = true := by
          rcases List.eq_nil_or_concat rest with rfl | ⟨front, last, rfl⟩
          · exact ⟨c, by simp, hc⟩
          · refine ⟨last, ?_, hall last (by simp)⟩
            rw [List.concat_eq_append, ← List.cons_append, ← List.append_assoc]
            exact List.getLast?_concat
        obtain ⟨last, hget, hbreak⟩ := hend
        have hnot := hlast last (by simpa using hget)
        rw [hbreak] at hnot
        cases hnot
      obtain ⟨value, hvalue⟩ := exists_piece_escape hrest hmore
      refine ⟨[value], by simp, ?_, hlength⟩
      rw [terse_singleton]
      exact List.mem_append_right _ hvalue

/-! ### Ends of a line -/

theorem dropWhile_append_of_not {p : ℕ → Bool} {c : ℕ} (hc : p c = false) (a b : Text) :
    (a ++ c :: b).dropWhile p = a.dropWhile p ++ c :: b := by
  induction a with
  | nil => exact List.dropWhile_cons_of_neg (by simp [hc])
  | cons d a ih =>
      by_cases hd : p d = true
      · rw [List.cons_append, List.dropWhile_cons_of_pos hd, List.dropWhile_cons_of_pos hd, ih]
      · rw [List.cons_append, List.dropWhile_cons_of_neg hd, List.dropWhile_cons_of_neg hd,
          List.cons_append]

theorem rdropWhile_append_of_not {p : ℕ → Bool} {c : ℕ} (hc : p c = false) (a b : Text) :
    (a ++ c :: b).rdropWhile p = a ++ c :: b.rdropWhile p := by
  simp only [List.rdropWhile, List.reverse_append, List.reverse_cons, List.append_assoc,
    List.singleton_append]
  rw [dropWhile_append_of_not hc]
  simp

theorem terse_concat (field : Text) (h : fields ≠ []) :
    terse (fields ++ [field]) = terse fields ++ COLON :: escape field := by
  induction fields with
  | nil => exact absurd rfl h
  | cons first fields ih =>
      rw [List.cons_append, terse_cons first (by simp)]
      by_cases hrest : fields = []
      · rw [hrest, List.nil_append, terse_singleton, terse_singleton]
      · rw [ih hrest, terse_cons first hrest, List.append_assoc, List.cons_append]

/-- Breaks before the first field and after the last are no part of a line. -/
theorem pieces_terse_ends (first : Text) (middle : List Text) (last : Text)
    (hreturn : 13 ∉ terse (first :: middle ++ [last])) :
    pieces (terse (first :: middle ++ [last])) =
      pieces (terse (first.dropWhile isBreak :: middle ++ [last.rdropWhile isBreak])) := by
  have hcolon : isBreak COLON = false := rfl
  have hdrop : (terse (first :: middle ++ [last])).dropWhile isBreak =
      terse (first.dropWhile isBreak :: middle ++ [last]) := by
    rw [List.cons_append, terse_cons first (by simp), dropWhile_append_of_not hcolon,
      escape_dropWhile, List.cons_append, terse_cons _ (by simp)]
  have hrdrop : (terse (first.dropWhile isBreak :: middle ++ [last])).rdropWhile isBreak =
      terse (first.dropWhile isBreak :: middle ++ [last.rdropWhile isBreak]) := by
    rw [terse_concat _ (List.cons_ne_nil _ _), rdropWhile_append_of_not hcolon, escape_rdropWhile,
      terse_concat _ (List.cons_ne_nil _ _)]
  have hreturns : 13 ∉ terse (first.dropWhile isBreak :: middle ++ [last]) := by
    rw [← hdrop]
    exact fun hmem => hreturn ((List.dropWhile_suffix _).mem hmem)
  rw [← PyLines.pieces_dropWhile hreturn, hdrop, ← PyLines.pieces_rdropWhile hreturns, hrdrop]

end Nmcli

end Network

end CybexOS
