/-
A greedy pick over a list of candidates: one is taken while a supporter of it
is still live, and taking it removes what it kills.
-/
import Mathlib.Data.List.Basic

namespace CybexOS

variable {E M : Type}

/-- Take each candidate that still has a live supporter, removing what it
kills. -/
def greedyPick (supports kills : E → M → Bool) : List M → List E → List E
  | _, [] => []
  | live, e :: rest =>
      if live.any (supports e) then
        e :: greedyPick supports kills (live.filter fun m => !kills e m) rest
      else greedyPick supports kills live rest

variable {supports kills : E → M → Bool}

theorem mem_of_mem_greedyPick {live : List M} {candidates : List E} {e : E}
    (he : e ∈ greedyPick supports kills live candidates) : e ∈ candidates := by
  induction candidates generalizing live with
  | nil => simp [greedyPick] at he
  | cons head tail ih =>
      rw [greedyPick] at he
      split at he
      · rcases List.mem_cons.mp he with rfl | he
        · exact List.mem_cons_self
        · exact List.mem_cons_of_mem head (ih he)
      · exact List.mem_cons_of_mem head (ih he)

/-- A supporter is never killed by the candidate it supports, so something
stays live. -/
theorem greedyPick_survivor
    (hsupport : ∀ e m, supports e m = true → kills e m = false)
    {live : List M} (hlive : live ≠ []) (candidates : List E) :
    ∃ m ∈ live, ∀ e ∈ greedyPick supports kills live candidates,
      kills e m = false := by
  induction candidates generalizing live with
  | nil =>
      obtain ⟨m, hm⟩ := List.exists_mem_of_ne_nil live hlive
      exact ⟨m, hm, by simp [greedyPick]⟩
  | cons head tail ih =>
      by_cases htake : live.any (supports head) = true
      · obtain ⟨m, hm, hsupports⟩ := List.any_eq_true.mp htake
        have hkept : m ∈ live.filter fun m => !kills head m := by
          simp [hm, hsupport head m hsupports]
        obtain ⟨survivor, hmem, hrest⟩ := ih (List.ne_nil_of_mem hkept)
        rw [List.mem_filter] at hmem
        refine ⟨survivor, hmem.1, ?_⟩
        rw [greedyPick, if_pos htake]
        intro e he
        rcases List.mem_cons.mp he with rfl | he
        · simpa using hmem.2
        · exact hrest e he
      · rw [greedyPick, if_neg htake]
        exact ih hlive

/-- Every taken candidate keeps a live supporter to the end. -/
def PickSupported (supports kills : E → M → Bool) (live : List M)
    (candidates : List E) : Prop :=
  ∀ e ∈ greedyPick supports kills live candidates,
    ∃ m ∈ live, supports e m = true ∧
      ∀ d ∈ greedyPick supports kills live candidates, kills d m = false

/-- A choice of candidates that needs no correction: each chosen one has a
supporter that no chosen one kills, and each other one has every supporter
killed by a chosen one before it. -/
def SettledChoice (supports kills : E → M → Bool) (live : List M)
    (candidates : List E) (chosen : E → Prop) : Prop :=
  (∀ e ∈ candidates, chosen e →
    ∃ m ∈ live, supports e m = true ∧
      ∀ d ∈ candidates, chosen d → kills d m = false) ∧
  ∀ before e after, candidates = before ++ e :: after → ¬ chosen e →
    ∀ m ∈ live, supports e m = true →
      ∃ d ∈ before, chosen d ∧ kills d m = true

/-- A settled choice is what the greedy pick takes.  The induction is over
the candidates still to come, with the live list already filtered by the
chosen ones before them. -/
theorem mem_greedyPick_iff_of_settled {live : List M} {candidates : List E}
    {chosen : E → Prop}
    (hsettled : SettledChoice supports kills live candidates chosen)
    {before after : List E} (hsplit : candidates = before ++ after)
    {current : List M}
    (hcurrent : ∀ m, m ∈ current ↔
      m ∈ live ∧ ∀ d ∈ before, chosen d → kills d m = false) (e : E) :
    e ∈ greedyPick supports kills current after ↔ e ∈ after ∧ chosen e := by
  induction after generalizing before current with
  | nil => simp [greedyPick]
  | cons head tail ih =>
      have hnext : candidates = (before ++ [head]) ++ tail := by simp [hsplit]
      by_cases hchosen : chosen head
      · have htake : current.any (supports head) = true := by
          obtain ⟨m, hm, hsupports, hkept⟩ :=
            hsettled.1 head (by simp [hsplit]) hchosen
          refine List.any_eq_true.mpr ⟨m, ?_, hsupports⟩
          exact (hcurrent m).mpr
            ⟨hm, fun d hd => hkept d (by simp [hsplit, hd])⟩
        have hfilter : ∀ m, m ∈ current.filter (fun m => !kills head m) ↔
            m ∈ live ∧
              ∀ d ∈ before ++ [head], chosen d → kills d m = false := by
          intro m
          simp only [List.mem_filter, hcurrent, List.mem_append,
            List.mem_singleton, Bool.not_eq_true']
          constructor
          · rintro ⟨⟨hm, hbefore⟩, hhead⟩
            refine ⟨hm, ?_⟩
            rintro d (hd | rfl) hchosenD
            · exact hbefore d hd hchosenD
            · exact hhead
          · rintro ⟨hm, hall⟩
            exact ⟨⟨hm, fun d hd => hall d (Or.inl hd)⟩,
              hall head (Or.inr rfl) hchosen⟩
        rw [greedyPick, if_pos htake, List.mem_cons, ih hnext hfilter,
          List.mem_cons]
        constructor
        · rintro (rfl | ⟨hmem, hc⟩)
          · exact ⟨Or.inl rfl, hchosen⟩
          · exact ⟨Or.inr hmem, hc⟩
        · rintro ⟨rfl | hmem, hc⟩
          · exact Or.inl rfl
          · exact Or.inr ⟨hmem, hc⟩
      · have hskip : ¬ current.any (supports head) = true := by
          intro hany
          obtain ⟨m, hm, hsupports⟩ := List.any_eq_true.mp hany
          obtain ⟨hlive, hkept⟩ := (hcurrent m).mp hm
          obtain ⟨d, hd, hchosenD, hkills⟩ :=
            hsettled.2 before head tail hsplit hchosen m hlive hsupports
          simp [hkept d hd hchosenD] at hkills
        have hsame : ∀ m, m ∈ current ↔ m ∈ live ∧
            ∀ d ∈ before ++ [head], chosen d → kills d m = false := by
          intro m
          rw [hcurrent]
          constructor
          · rintro ⟨hm, hbefore⟩
            refine ⟨hm, fun d hd hc => ?_⟩
            rcases List.mem_append.mp hd with hd | hd
            · exact hbefore d hd hc
            · rw [List.mem_singleton.mp hd] at hc
              exact absurd hc hchosen
          · rintro ⟨hm, hall⟩
            exact ⟨hm, fun d hd => hall d (List.mem_append_left _ hd)⟩
        rw [greedyPick, if_neg hskip, ih hnext hsame, List.mem_cons]
        constructor
        · rintro ⟨hmem, hc⟩
          exact ⟨Or.inr hmem, hc⟩
        · rintro ⟨rfl | hmem, hc⟩
          · exact absurd hc hchosen
          · exact ⟨hmem, hc⟩

/-- A candidate the pick leaves out had every supporter killed before its
turn. -/
theorem killed_before_of_not_mem_greedyPick {live : List M}
    {before after : List E} {e : E}
    (hout : e ∉ greedyPick supports kills live (before ++ e :: after))
    {m : M} (hm : m ∈ live) (hsupports : supports e m = true) :
    ∃ d ∈ before,
      d ∈ greedyPick supports kills live (before ++ e :: after) ∧
        kills d m = true := by
  induction before generalizing live with
  | nil =>
      exfalso
      apply hout
      have htake : live.any (supports e) = true :=
        List.any_eq_true.mpr ⟨m, hm, hsupports⟩
      rw [List.nil_append, greedyPick, if_pos htake]
      exact List.mem_cons_self
  | cons head tail ih =>
      rw [List.cons_append, greedyPick] at hout ⊢
      by_cases htake : live.any (supports head) = true
      · rw [if_pos htake] at hout ⊢
        cases hkills : kills head m with
        | true => exact ⟨head, List.mem_cons_self, List.mem_cons_self, hkills⟩
        | false =>
            have hkept : m ∈ live.filter fun m => !kills head m := by
              simp [hm, hkills]
            obtain ⟨d, hd, hpicked, hkd⟩ :=
              ih (fun h => hout (List.mem_cons_of_mem head h)) hkept
            exact ⟨d, List.mem_cons_of_mem head hd,
              List.mem_cons_of_mem head hpicked, hkd⟩
      · rw [if_neg htake] at hout ⊢
        obtain ⟨d, hd, hpicked, hkd⟩ := ih hout hm
        exact ⟨d, List.mem_cons_of_mem head hd, hpicked, hkd⟩

/-- The pick keeps a supporter of everything it takes exactly when some
settled choice exists. -/
theorem pickSupported_iff_exists_settled (live : List M)
    (candidates : List E) :
    PickSupported supports kills live candidates ↔
      ∃ chosen, SettledChoice supports kills live candidates chosen := by
  constructor
  · intro hsupported
    refine ⟨fun e => e ∈ greedyPick supports kills live candidates, ?_, ?_⟩
    · intro e _ hpicked
      obtain ⟨m, hm, hsupports, hkept⟩ := hsupported e hpicked
      exact ⟨m, hm, hsupports, fun d _ hd => hkept d hd⟩
    · rintro before e after rfl hout m hm hsupports
      exact killed_before_of_not_mem_greedyPick hout hm hsupports
  · rintro ⟨chosen, hsettled⟩ e he
    have hpick : ∀ d, d ∈ greedyPick supports kills live candidates ↔
        d ∈ candidates ∧ chosen d :=
      mem_greedyPick_iff_of_settled hsettled (List.nil_append _).symm (by simp)
    obtain ⟨hmem, hchosen⟩ := (hpick e).mp he
    obtain ⟨m, hm, hsupports, hkept⟩ := hsettled.1 e hmem hchosen
    exact ⟨m, hm, hsupports, fun d hd =>
      hkept d ((hpick d).mp hd).1 ((hpick d).mp hd).2⟩

end CybexOS
