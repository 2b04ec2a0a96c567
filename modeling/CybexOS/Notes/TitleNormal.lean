/-
A normalized title is its own normal form: one line, single spaces, trimmed,
at most fifty characters.
-/
import CybexOS.Notes.Title

namespace CybexOS

namespace Notes

open Json (isHighSurrogate isLowSurrogate)

/-- One line whose white space is single spaces. -/
structure Compact (s : Text) : Prop where
  plain : ∀ c ∈ s, 32 ≤ c ∧ c ≠ 127 ∧ (isJsSpace c = true → c = 32)
  single : s.IsChain fun c d => isJsSpace c = true → isJsSpace d = false

theorem Compact.of_infix {part s : Text} (h : Compact s) (hpart : part <:+: s) :
    Compact part where
  plain := fun c hc => h.plain c (hpart.subset hc)
  single := h.single.infix hpart

theorem blankControls_plain (s : Text) :
    ∀ c ∈ blankControls s, 32 ≤ c ∧ c ≠ 127 := by
  intro c hc
  obtain ⟨d, -, rfl⟩ := List.mem_map.mp hc
  split <;> omega

theorem blankControls_of_plain {s : Text} (h : ∀ c ∈ s, 32 ≤ c ∧ c ≠ 127) :
    blankControls s = s := by
  have hid : ∀ c ∈ s, (if c < 32 ∨ c = 127 then 32 else c) = c := by
    intro c hc
    have := h c hc
    rw [if_neg (by omega)]
  exact (List.map_congr_left hid).trans (List.map_id s)

/-- After a run has been written no white space comes first. -/
theorem collapseSpaces_compact {s : Text} (h : ∀ c ∈ s, 32 ≤ c ∧ c ≠ 127)
    (inRun : Bool) :
    Compact (collapseSpaces inRun s) ∧
      (inRun = true → ∀ c ∈ (collapseSpaces inRun s).head?, isJsSpace c = false) := by
  induction s generalizing inRun with
  | nil =>
      refine ⟨⟨by simp [collapseSpaces], by simp [collapseSpaces]⟩, ?_⟩
      simp [collapseSpaces]
  | cons c rest ih =>
      have hrest := ih (fun d hd => h d (List.mem_cons_of_mem c hd))
      have hc := h c List.mem_cons_self
      rw [collapseSpaces]
      by_cases hspace : isJsSpace c = true
      · rw [if_pos hspace]
        cases inRun with
        | true => exact hrest true
        | false =>
            obtain ⟨hcompact, hhead⟩ := hrest true
            refine ⟨⟨?_, ?_⟩, by simp⟩
            · rw [if_neg (by simp), List.forall_mem_cons]
              exact ⟨⟨le_refl 32, by omega, fun _ => rfl⟩, hcompact.plain⟩
            · rw [if_neg (by simp), List.isChain_cons]
              exact ⟨fun d hd _ => hhead rfl d hd, hcompact.single⟩
      · rw [if_neg hspace]
        obtain ⟨hcompact, -⟩ := hrest false
        refine ⟨⟨?_, ?_⟩, ?_⟩
        · rw [List.forall_mem_cons]
          exact ⟨⟨hc.1, hc.2, fun h => absurd h hspace⟩, hcompact.plain⟩
        · rw [List.isChain_cons]
          exact ⟨fun d _ h => absurd h hspace, hcompact.single⟩
        · intro _ d hd
          rw [List.head?_cons, Option.mem_def, Option.some.injEq] at hd
          rw [← hd]
          simpa using hspace

theorem collapseSpaces_of_compact {s : Text} (h : Compact s) (inRun : Bool)
    (hhead : inRun = true → ∀ c ∈ s.head?, isJsSpace c = false) :
    collapseSpaces inRun s = s := by
  induction s generalizing inRun with
  | nil => rfl
  | cons c rest ih =>
      have hrest : Compact rest := h.of_infix (List.suffix_cons c rest).isInfix
      have hchain := List.isChain_cons.mp h.single
      rw [collapseSpaces]
      by_cases hspace : isJsSpace c = true
      · have hrun : inRun = false := by
          by_contra hne
          have := hhead (by simpa using hne) c (by simp)
          rw [this] at hspace
          exact absurd hspace (by simp)
        rw [if_pos hspace, hrun, if_neg (by simp),
          ih hrest true fun _ d hd => hchain.1 d hd hspace]
        rw [(h.plain c List.mem_cons_self).2.2 hspace]
      · rw [if_neg hspace, ih hrest false (by simp)]

/-! ### Characters -/

theorem takeCharacters_prefix (n : Nat) (s : Text) : takeCharacters n s <+: s := by
  induction n, s using takeCharacters.induct with
  | case1 s => exact List.nil_prefix
  | case2 n => exact List.nil_prefix
  | case3 n c => exact List.prefix_refl [c]
  | case4 n c d rest hpair ih =>
      rw [takeCharacters, if_pos hpair]
      exact (List.prefix_cons_inj c).mpr ((List.prefix_cons_inj d).mpr ih)
  | case5 n c d rest hpair ih =>
      rw [takeCharacters, if_neg hpair]
      exact (List.prefix_cons_inj c).mpr ih

theorem titleLength_low {d : Nat} (hlow : isLowSurrogate d = true) (rest : Text) :
    titleLength (d :: rest) = titleLength rest + 1 := by
  have hhigh : isHighSurrogate d = false := by
    simp only [isLowSurrogate, Bool.and_eq_true, decide_eq_true_eq] at hlow
    simp only [isHighSurrogate, Bool.and_eq_false_iff, decide_eq_false_iff_not]
    omega
  cases rest with
  | nil => rfl
  | cons e rest => simp [titleLength, hhigh]

theorem titleLength_cons_le (c : Nat) (s : Text) :
    titleLength (c :: s) ≤ titleLength s + 1 := by
  cases s with
  | nil => exact le_refl 1
  | cons d rest =>
      rw [titleLength]
      split
      · next hpair =>
        have hlow : isLowSurrogate d = true := (Bool.and_eq_true_iff.mp hpair).2
        rw [titleLength_low hlow]
        omega
      · exact le_refl _

theorem titleLength_prefix_le {part s : Text} (h : part <+: s) :
    titleLength part ≤ titleLength s := by
  induction s using titleLength.induct generalizing part with
  | case1 => rw [List.prefix_nil.mp h]
  | case2 c =>
      rcases part with _ | ⟨d, rest⟩
      · exact Nat.zero_le _
      · obtain ⟨rfl, hrest⟩ := List.cons_prefix_cons.mp h
        rw [List.prefix_nil.mp hrest]
  | case3 c d rest hpair ih =>
      rcases part with _ | ⟨c', _ | ⟨d', part⟩⟩
      · exact Nat.zero_le _
      · rw [titleLength, titleLength.eq_3, if_pos hpair]
        omega
      · obtain ⟨rfl, htail⟩ := List.cons_prefix_cons.mp h
        obtain ⟨rfl, hrest⟩ := List.cons_prefix_cons.mp htail
        have := ih hrest
        rw [titleLength, if_pos hpair, titleLength, if_pos hpair]
        omega
  | case4 c d rest hpair ih =>
      rcases part with _ | ⟨c', part⟩
      · exact Nat.zero_le _
      · obtain ⟨rfl, htail⟩ := List.cons_prefix_cons.mp h
        have hle := titleLength_cons_le c' part
        have := ih htail
        rw [titleLength.eq_3, if_neg hpair]
        omega

theorem titleLength_takeCharacters_le (n : Nat) (s : Text) :
    titleLength (takeCharacters n s) ≤ n := by
  induction n, s using takeCharacters.induct with
  | case1 s => exact Nat.zero_le _
  | case2 n => exact Nat.zero_le _
  | case3 n c => exact Nat.succ_le_succ (Nat.zero_le n)
  | case4 n c d rest hpair ih =>
      rw [takeCharacters, if_pos hpair, titleLength, if_pos hpair]
      omega
  | case5 n c d rest hpair ih =>
      rw [takeCharacters, if_neg hpair]
      exact (titleLength_cons_le c _).trans (Nat.succ_le_succ ih)

theorem takeCharacters_of_titleLength_le {n : Nat} {s : Text}
    (h : titleLength s ≤ n) : takeCharacters n s = s := by
  induction n, s using takeCharacters.induct with
  | case1 s =>
      cases s with
      | nil => rfl
      | cons c rest =>
          cases rest with
          | nil => simp [titleLength] at h
          | cons d rest => rw [titleLength] at h; split at h <;> omega
  | case2 n => rfl
  | case3 n c => rfl
  | case4 n c d rest hpair ih =>
      rw [titleLength, if_pos hpair] at h
      rw [takeCharacters, if_pos hpair, ih (by omega)]
  | case5 n c d rest hpair ih =>
      rw [titleLength, if_neg hpair] at h
      rw [takeCharacters, if_neg hpair, ih (by omega)]

/-! ### Normal titles -/

theorem trimWith_isInfix (p : Nat → Bool) (s : Text) : trimWith p s <:+: s :=
  (List.rdropWhile_prefix p _).isInfix.trans (List.dropWhile_suffix p).isInfix

/-- What `normalizeTitle` makes of any text. -/
structure NormalTitle (title : Text) : Prop where
  compact : Compact title
  trimmed : jsTrim title = title
  short : titleLength title ≤ MAX_TITLE_LENGTH

theorem normalizeTitle_normal (value : Text) :
    NormalTitle (normalizeTitle value) := by
  have hcompact := (collapseSpaces_compact (blankControls_plain value) false).1
  set line := jsTrim (collapseSpaces false (blankControls value)) with hline
  have hlineCompact : Compact line := hcompact.of_infix (trimWith_isInfix _ _)
  set part := takeCharacters MAX_TITLE_LENGTH line with hpart
  have hprefix : part <+: line := takeCharacters_prefix _ _
  have hhead : ∀ c ∈ part.head?, isJsSpace c = false := by
    intro c hc
    have hlineHead : c ∈ line.head? := by
      obtain ⟨tail, htail⟩ := hprefix
      rw [← htail]
      exact List.mem_head?_append_of_mem_head? hc
    exact head_trimWith _ c hlineHead
  have htitle : normalizeTitle value = part.rdropWhile isJsSpace := by
    rw [normalizeTitle, jsTrim, trimWith, ← hline, ← hpart,
      dropWhile_eq_self_of_head hhead]
  refine ⟨?_, trimWith_trimWith _, ?_⟩
  · rw [htitle]
    exact hlineCompact.of_infix
      ((List.rdropWhile_prefix _ _).trans hprefix).isInfix
  · rw [htitle]
    exact (titleLength_prefix_le (List.rdropWhile_prefix _ _)).trans
      (titleLength_takeCharacters_le _ _)

/-- Normalizing leaves a normal title as it is. -/
theorem normalizeTitle_of_normal {title : Text} (h : NormalTitle title) :
    normalizeTitle title = title := by
  have hplain : blankControls title = title := blankControls_of_plain fun c hc =>
    ⟨(h.compact.plain c hc).1, (h.compact.plain c hc).2.1⟩
  have hspaces : collapseSpaces false title = title :=
    collapseSpaces_of_compact h.compact false (by simp)
  rw [normalizeTitle, hplain, hspaces, h.trimmed,
    takeCharacters_of_titleLength_le h.short, h.trimmed]

theorem validTitle_of_normal {title : Text} (h : NormalTitle title)
    (hne : title ≠ []) : validTitle title = true := by
  simp [validTitle, hne, h.short, normalizeTitle_of_normal h]

/-- A normalized title is valid unless nothing is left of it. -/
theorem validTitle_normalizeTitle {value : Text} (h : normalizeTitle value ≠ []) :
    validTitle (normalizeTitle value) = true :=
  validTitle_of_normal (normalizeTitle_normal value) h

theorem validTitle_untitled : validTitle UNTITLED_TITLE = true := by decide

theorem validTitle_fallbackTitle (body : Text) :
    validTitle (fallbackTitle body) = true := by
  unfold fallbackTitle
  induction splitLines body with
  | nil => exact validTitle_untitled
  | cons line lines ih =>
      rw [fallbackTitleFrom]
      dsimp only
      split
      · exact ih
      · split
        · exact ih
        · next hne => exact validTitle_normalizeTitle hne

end Notes

end CybexOS
