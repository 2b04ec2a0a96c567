/-
Which kernel arguments a recovery point gets, and when quoting them ends the
whole menu.
-/
import CybexOS.Lines
import CybexOS.Snapshot.RecoveryMenu

namespace CybexOS

namespace Snapshot

variable {options point token : Text}

/-! ### Tokens -/

/-- A token of the options that may become an argument. -/
def accepted (token : Text) : Bool :=
  !dropped token && !startsWith token (ascii "rootflags=") && matchesLine isSafe token

/-- The tokens that give the flags of the root file system. -/
def rootflagsTokens (options : Text) : List Text :=
  (Words.words isSpace options).filter fun token =>
    !dropped token && startsWith token (ascii "rootflags=")

/-- The flags that are kept: those of the last such token. -/
def keptFlags (options : Text) : List Text := ((rootflagsTokens options).getLast?.map flagsOf).getD []

theorem take_eq (kept : Kept) (token : Text) : kept.take token =
    { arguments := kept.arguments ++ if accepted token then [token] else []
      flags := if !dropped token && startsWith token (ascii "rootflags=") then flagsOf token
        else kept.flags } := by
  unfold Kept.take accepted
  by_cases hdropped : dropped token = true
  · simp [hdropped]
  · by_cases hroot : startsWith token (ascii "rootflags=") = true
    · simp [hdropped, hroot]
    · by_cases hsafe : matchesLine isSafe token = true <;> simp [hdropped, hroot, hsafe]

theorem kept_eq (options : Text) :
    kept options = ⟨(Words.words isSpace options).filter accepted, keptFlags options⟩ := by
  unfold kept keptFlags rootflagsTokens
  induction Words.words isSpace options using List.reverseRecOn with
  | nil => rfl
  | append_singleton tokens token ih =>
      rw [List.foldl_append, ih, List.foldl_cons, List.foldl_nil, take_eq, List.filter_append,
        List.filter_append]
      congr 1
      · by_cases h : accepted token = true <;> simp [h]
      · split_ifs with h
        · simp [h]
        · simp [h]

/-- Words are not empty and hold no space. -/
theorem words_plain {text word : Text} (h : word ∈ Words.words isSpace text) :
    word ≠ [] ∧ ∀ c ∈ word, isSpace c = false := by
  induction hlength : text.length using Nat.strong_induction_on generalizing text with
  | _ length ih =>
      cases hwords : Words.words isSpace text with
      | nil =>
          rw [hwords] at h
          cases h
      | cons first others =>
          obtain ⟨space, rest, rfl, -, hne, hall, -, hrest⟩ := Words.words_eq_cons hwords
          rw [hwords] at h
          rcases List.mem_cons.mp h with rfl | h
          · refine ⟨hne, fun c hc => ?_⟩
            have hc := List.all_eq_true.mp hall c hc
            simpa using hc
          · rw [← hrest] at h
            refine ih rest.length ?_ h rfl
            have hpos := List.length_pos_iff.mpr hne
            rw [← hlength]
            simp only [List.length_append]
            omega

theorem matchesLine_of_plain {allowed : ℕ → Bool} {text : Text} (h : 10 ∉ text) :
    matchesLine allowed text = (!text.isEmpty && text.all allowed) := by
  have hlast : text.getLast? ≠ some 10 := fun hlast => h (List.mem_of_getLast? hlast)
  rw [matchesLine, if_neg hlast]

theorem newline_notMem_word {text word : Text} (h : word ∈ Words.words isSpace text) :
    10 ∉ word := fun hmem => by
  have hspace := (words_plain h).2 10 hmem
  cases hspace

theorem accepted_safe (htoken : token ∈ Words.words isSpace options)
    (h : accepted token = true) : token.all isSafe = true := by
  unfold accepted at h
  rw [matchesLine_of_plain (newline_notMem_word htoken)] at h
  simp only [Bool.and_eq_true] at h
  exact h.2.2

/-! ### Identifiers -/

/-- The units of an identifier. -/
def isPointUnit (c : ℕ) : Bool := isDigit c || c == 84 || c == 90 || c == 45

theorem PointId.units (point : PointId) : point.text.all isPointUnit = true := by
  have hshape := point.shape
  unfold isPoint at hshape
  simp only [Bool.and_eq_true, beq_iff_eq] at hshape
  obtain ⟨⟨⟨⟨⟨hday, htee⟩, htime⟩, hzulu⟩, -⟩, hpid⟩ := hshape
  have hparts : point.text = point.text.take 8 ++ ((point.text.drop 8).take 1 ++
      ((point.text.drop 9).take 6 ++ ((point.text.drop 15).take 2 ++ point.text.drop 17))) := by
    have hlast : (point.text.drop 15).take 2 ++ point.text.drop 17 = point.text.drop 15 := by
      rw [← List.drop_drop (i := 2) (j := 15), List.take_append_drop]
    have hmiddle : (point.text.drop 9).take 6 ++ point.text.drop 15 = point.text.drop 9 := by
      rw [← List.drop_drop (i := 6) (j := 9), List.take_append_drop]
    have hfirst : (point.text.drop 8).take 1 ++ point.text.drop 9 = point.text.drop 8 := by
      rw [← List.drop_drop (i := 1) (j := 8), List.take_append_drop]
    rw [hlast, hmiddle, hfirst, List.take_append_drop]
  have hdigits : ∀ piece : Text, piece.all isDigit = true → piece.all isPointUnit = true := by
    intro piece hpiece
    refine List.all_eq_true.mpr fun c hc => ?_
    rw [isPointUnit, List.all_eq_true.mp hpiece c hc]
    rfl
  rw [hparts, List.all_append, List.all_append, List.all_append, List.all_append,
    hdigits _ hday, hdigits _ htime, hdigits _ hpid, htee, hzulu]
  decide

theorem isSafe_of_isPointUnit {c : ℕ} (h : isPointUnit c = true) : isSafe c = true := by
  simp only [isPointUnit, Bool.or_eq_true, beq_iff_eq] at h
  rcases h with ((h | rfl) | rfl) | rfl
  · simp [isSafe, isAlnum, h]
  · decide
  · decide
  · decide

theorem PointId.safe (point : PointId) : point.text.all isSafe = true :=
  List.all_eq_true.mpr fun c hc =>
    isSafe_of_isPointUnit (List.all_eq_true.mp point.units c hc)

theorem PointId.no_comma (point : PointId) : 44 ∉ point.text := fun h => by
  have hunit := List.all_eq_true.mp point.units 44 h
  cases hunit

/-! ### The arguments -/

/-- An accepted token names the root. -/
def NamesRoot (options : Text) : Prop :=
  ∃ token ∈ Words.words isSpace options, accepted token = true ∧
    startsWith token (ascii "root=") = true

/-- Every flag that is kept could itself be an argument. -/
def SafeFlags (options : Text) : Prop := ∀ flag ∈ keptFlags options, flag.all isSafe = true

/-- What the arguments of a recovery point should be. -/
structure SoundArguments (point : Text) (arguments : List Text) : Prop where
  safe : ∀ argument ∈ arguments, argument ≠ [] ∧ argument.all isSafe = true
  rootflags : ∃ flags, arguments.filter (startsWith · (ascii "rootflags=")) =
      [ascii "rootflags=" ++ flags] ∧
    (flags.splitOn 44).filter namesSubvolume = [subvolFlag point]
  ro : ascii "ro" ∈ arguments
  rw : ascii "rw" ∉ arguments
  recovery : arguments.filter (startsWith · (ascii "cybexos.recovery=")) =
    [ascii "cybexos.recovery=" ++ point]

/-- The flags as they are written. -/
def flagsText (options point : Text) : Text :=
  List.intercalate [44] (keptFlags options ++ [subvolFlag point])

theorem recoveryArguments_eq_none : recoveryArguments options point = none ↔ ¬ NamesRoot options := by
  unfold recoveryArguments NamesRoot
  rw [kept_eq]
  simp [List.any_filter]

theorem recoveryArguments_eq_some {arguments : List Text}
    (h : recoveryArguments options point = some arguments) :
    arguments = (Words.words isSpace options).filter accepted ++
      [ascii "ro", ascii "rootflags=" ++ flagsText options point,
        ascii "cybexos.recovery=" ++ point] := by
  unfold recoveryArguments at h
  rw [kept_eq] at h
  dsimp only at h
  split_ifs at h
  exact (Option.some.inj h).symm

theorem accepted_ne (h : accepted token = true) : token ≠ ascii "ro" ∧ token ≠ ascii "rw" ∧
    startsWith token (ascii "cybexos.recovery=") = false ∧
    startsWith token (ascii "rootflags=") = false := by
  unfold accepted dropped at h
  simp only [Bool.and_eq_true, Bool.not_eq_true', Bool.or_eq_false_iff, beq_eq_false_iff_ne] at h
  obtain ⟨⟨⟨⟨⟨⟨-, hro⟩, hrw⟩, -⟩, hrecovery⟩, hroot⟩, -⟩ := h
  exact ⟨hro, hrw, hrecovery, hroot⟩

theorem keptFlags_plain {flag : Text} (h : flag ∈ keptFlags options) :
    44 ∉ flag ∧ namesSubvolume flag = false := by
  unfold keptFlags at h
  cases hlast : (rootflagsTokens options).getLast? with
  | none =>
      rw [hlast] at h
      cases h
  | some last =>
      rw [hlast] at h
      obtain ⟨hpiece, hkeep⟩ := List.mem_filter.mp h
      simp only [Bool.and_eq_true, Bool.not_eq_true'] at hkeep
      exact ⟨Lines.not_mem_of_mem_splitOn hpiece, hkeep.2⟩

theorem subvolFlag_no_comma (point : PointId) : 44 ∉ subvolFlag point.text := by
  unfold subvolFlag
  rw [List.mem_append, not_or]
  exact ⟨by decide, point.no_comma⟩

theorem splitOn_flagsText (options : Text) (point : PointId) :
    (flagsText options point.text).splitOn 44 = keptFlags options ++ [subvolFlag point.text] := by
  refine List.splitOn_intercalate 44 (fun flag hflag => ?_) (by simp)
  rcases List.mem_append.mp hflag with hflag | hflag
  · exact (keptFlags_plain hflag).1
  · rw [List.mem_singleton.mp hflag]
    exact subvolFlag_no_comma point

theorem intercalate_all {allowed : ℕ → Bool} {mark : ℕ} (hmark : allowed mark = true)
    (pieces : List Text) : (List.intercalate [mark] pieces).all allowed = true ↔
      ∀ piece ∈ pieces, piece.all allowed = true := by
  induction pieces with
  | nil => simp
  | cons piece pieces ih =>
      cases pieces with
      | nil => simp
      | cons next pieces =>
          rw [List.intercalate_cons_cons, List.all_append, List.all_append, Bool.and_eq_true,
            Bool.and_eq_true, ih, List.forall_mem_cons]
          simp [hmark]

theorem flagsText_all {allowed : ℕ → Bool} (hcomma : allowed 44 = true) (options : Text)
    {point : Text} (hpoint : (subvolFlag point).all allowed = true) :
    (flagsText options point).all allowed = true ↔
      ∀ flag ∈ keptFlags options, flag.all allowed = true := by
  rw [flagsText, intercalate_all hcomma]
  constructor
  · exact fun h flag hflag => h flag (List.mem_append_left _ hflag)
  · intro h flag hflag
    rcases List.mem_append.mp hflag with hflag | hflag
    · exact h flag hflag
    · rw [List.mem_singleton.mp hflag]
      exact hpoint

theorem subvolFlag_safe (point : PointId) : (subvolFlag point.text).all isSafe = true := by
  rw [subvolFlag, List.all_append, point.safe]
  decide

/-- The arguments are as they should be exactly when all flags are safe. -/
theorem sound_iff {arguments : List Text} {point : PointId}
    (h : recoveryArguments options point.text = some arguments) :
    SoundArguments point.text arguments ↔ SafeFlags options := by
  have hshape := recoveryArguments_eq_some h
  have hflags := @flagsText_all isSafe (by decide) options point.text (subvolFlag_safe point)
  have htokens : ∀ start : Text, (∀ token, accepted token = true →
      startsWith token start = false) →
      ((Words.words isSpace options).filter accepted).filter (startsWith · start) = [] := by
    intro start hnone
    refine List.filter_eq_nil_iff.mpr fun token htoken hstarts => ?_
    rw [hnone token (List.mem_filter.mp htoken).2] at hstarts
    cases hstarts
  constructor
  · intro hsound
    have hroot := (hsound.safe (ascii "rootflags=" ++ flagsText options point.text)
      (by rw [hshape]; simp)).2
    rw [List.all_append, Bool.and_eq_true] at hroot
    exact hflags.mp hroot.2
  · intro hsafe
    have hall := hflags.mpr hsafe
    refine ⟨?_, ⟨flagsText options point.text, ?_, ?_⟩, ?_, ?_, ?_⟩
    · intro argument hargument
      rw [hshape] at hargument
      rcases List.mem_append.mp hargument with hargument | hargument
      · obtain ⟨hword, haccepted⟩ := List.mem_filter.mp hargument
        exact ⟨(words_plain hword).1, accepted_safe hword haccepted⟩
      · simp only [List.mem_cons, List.not_mem_nil, or_false] at hargument
        rcases hargument with rfl | rfl | rfl
        · exact ⟨by decide, by decide⟩
        · refine ⟨List.append_ne_nil_of_left_ne_nil (by decide) _, ?_⟩
          rw [List.all_append, hall]
          decide
        · refine ⟨List.append_ne_nil_of_left_ne_nil (by decide) _, ?_⟩
          rw [List.all_append, point.safe]
          decide
    · rw [hshape, List.filter_append, htokens _ fun token htoken => (accepted_ne htoken).2.2.2]
      rfl
    · rw [splitOn_flagsText, List.filter_append]
      have hnone : (keptFlags options).filter namesSubvolume = [] :=
        List.filter_eq_nil_iff.mpr fun flag hflag hnames => by
          rw [(keptFlags_plain hflag).2] at hnames
          cases hnames
      rw [hnone]
      rfl
    · rw [hshape]
      simp
    · rw [hshape, List.mem_append, not_or]
      refine ⟨fun hmem => (accepted_ne (List.mem_filter.mp hmem).2).2.1 rfl, fun hmem => ?_⟩
      simp only [List.mem_cons, List.not_mem_nil, or_false] at hmem
      rcases hmem with heq | heq | heq
      · exact absurd heq (by decide)
      · cases (List.cons.inj (List.cons.inj heq).2).1
      · cases (List.cons.inj heq).1
    · rw [hshape, List.filter_append, htokens _ fun token htoken => (accepted_ne htoken).2.2.1]
      rfl

/-! ### Quoting -/

/-- A unit that can stand between quotes. -/
def isPlain (c : ℕ) : Bool := c != 39 && c != 10

theorem quote_ok {value : Text} : (∃ quoted, quote value = .ok quoted) ↔
    value.all isPlain = true := by
  have hplain : value.all isPlain = true ↔ ¬ (value.contains 39 || value.contains 10) = true := by
    simp only [isPlain, List.all_eq_true, Bool.and_eq_true, bne_iff_ne, Bool.or_eq_true,
      List.contains_iff_mem, not_or]
    exact ⟨fun h => ⟨fun hmem => (h 39 hmem).1 rfl, fun hmem => (h 10 hmem).2 rfl⟩,
      fun h c hc => ⟨fun heq => h.1 (heq ▸ hc), fun heq => h.2 (heq ▸ hc)⟩⟩
  rw [hplain]
  unfold quote
  split_ifs with h
  · exact ⟨(fun ⟨_, hquoted⟩ => nomatch hquoted), fun hnot => absurd h hnot⟩
  · exact ⟨fun _ => h, fun _ => ⟨_, rfl⟩⟩

theorem mapM_ok {α β ε : Type} {step : α → Except ε β} {items : List α} :
    (∃ results, items.mapM step = .ok results) ↔ ∀ item ∈ items, ∃ result, step item = .ok result := by
  induction items with
  | nil =>
      constructor
      · exact fun _ item h => nomatch h
      · exact fun _ => ⟨[], rfl⟩
  | cons item items ih =>
      rw [List.forall_mem_cons, ← ih]
      simp only [List.mapM_cons, bind_eq_ok, pure_eq_ok]
      constructor
      · rintro ⟨_, first, hfirst, rest, hrest, -⟩
        exact ⟨⟨first, hfirst⟩, rest, hrest⟩
      · rintro ⟨⟨first, hfirst⟩, rest, hrest⟩
        exact ⟨_, first, hfirst, rest, hrest, rfl⟩

theorem quoteAll_ok {values : List Text} : (∃ quoted, quoteAll values = .ok quoted) ↔
    ∀ value ∈ values, value.all isPlain = true := by
  have hall : (∃ quoted, quoteAll values = .ok quoted) ↔
      ∃ quoted, values.mapM quote = .ok quoted := by
    unfold quoteAll
    simp only [bind_eq_ok, pure_eq_ok]
    exact ⟨fun ⟨_, quoted, h, _⟩ => ⟨quoted, h⟩, fun ⟨quoted, h⟩ => ⟨_, quoted, h, rfl⟩⟩
  rw [hall, mapM_ok]
  exact forall₂_congr fun value _ => quote_ok

theorem all_mono {allowed other : ℕ → Bool} {text : Text}
    (hmono : ∀ c, allowed c = true → other c = true) (h : text.all allowed = true) :
    text.all other = true :=
  List.all_eq_true.mpr fun c hc => hmono c (List.all_eq_true.mp h c hc)

theorem all_sublist {allowed : ℕ → Bool} {text piece : Text} (hsub : piece.Sublist text)
    (h : text.all allowed = true) : piece.all allowed = true :=
  List.all_eq_true.mpr fun c hc => List.all_eq_true.mp h c (hsub.subset hc)

theorem isPlain_of_isAlnum {c : ℕ} (h : isAlnum c = true) : isPlain c = true := by
  simp only [isAlnum, isDigit, isUpper, isLower, isPlain, Bool.or_eq_true, Bool.and_eq_true,
    decide_eq_true_eq, bne_iff_ne] at h ⊢
  omega

/-- Letters, digits and some marks that are no quotes. -/
theorem isPlain_of_class {marks : Text} (hmarks : marks.all isPlain = true) {c : ℕ}
    (h : (isAlnum c || decide (c ∈ marks)) = true) : isPlain c = true := by
  rcases Bool.or_eq_true _ _ |>.mp h with h | h
  · exact isPlain_of_isAlnum h
  · exact List.all_eq_true.mp hmarks c (of_decide_eq_true h)

theorem isSafe_plain : ∀ c, isSafe c = true → isPlain c = true :=
  fun _ h => isPlain_of_class (by decide) h

theorem PointId.plain (point : PointId) : point.text.all isPlain = true :=
  all_mono isSafe_plain point.safe

theorem slice_plain {text : Text} (h : text.all isPlain = true) (first last : ℕ) :
    (slice text first last).all isPlain = true :=
  all_sublist ((List.drop_sublist _ _).trans (List.take_sublist _ _)) h

theorem words_all {allowed : ℕ → Bool} {text word : Text} (h : text.all allowed = true)
    (hword : word ∈ Words.words isSpace text) : word.all allowed = true := by
  induction hlength : text.length using Nat.strong_induction_on generalizing text with
  | _ length ih =>
      cases hwords : Words.words isSpace text with
      | nil =>
          rw [hwords] at hword
          cases hword
      | cons first others =>
          obtain ⟨space, rest, rfl, -, hne, -, -, hrest⟩ := Words.words_eq_cons hwords
          rw [List.all_append, List.all_append, Bool.and_eq_true, Bool.and_eq_true] at h
          rw [hwords] at hword
          rcases List.mem_cons.mp hword with rfl | hword
          · exact h.1.2
          · rw [← hrest] at hword
            refine ih rest.length ?_ h.2 hword rfl
            have hpos := List.length_pos_iff.mpr hne
            rw [← hlength]
            simp only [List.length_append]
            omega

theorem trimWith_sublist (p : ℕ → Bool) (text : Text) : (trimWith p text).Sublist text :=
  (List.rdropWhile_prefix p _).sublist.trans (List.dropWhile_sublist _)

theorem menuTitle_plain (point : PointId) (description : Text) :
    (menuTitle point.text description).all isPlain = true := by
  have hplain : (description.map fun c => if isTitle c then c else 32).all isPlain = true := by
    refine List.all_eq_true.mpr fun c hc => ?_
    obtain ⟨d, -, rfl⟩ := List.mem_map.mp hc
    split_ifs with htitle
    · exact isPlain_of_class (by decide) htitle
    · rfl
  have hwords := (@intercalate_all isPlain 32 rfl _).mpr fun word hword => words_all hplain hword
  have hclean := all_sublist ((trimWith_sublist isSpace _).trans (List.take_sublist 60 _)) hwords
  have hslice := slice_plain point.plain
  have hmarks : (ascii "-").all isPlain = true ∧ (ascii " ").all isPlain = true ∧
      (ascii ":").all isPlain = true ∧ (ascii " UTC").all isPlain = true ∧
      (ascii " - ").all isPlain = true := by decide
  unfold menuTitle
  dsimp only
  split_ifs
  · simp only [List.all_append, hslice, hmarks, Bool.and_self]
  · simp only [List.all_append, hslice, hmarks, hclean, Bool.and_self]

theorem safePath_plain {path : Text} (hline : 10 ∉ path) (h : isSafePath path = true) :
    path.all isPlain = true := by
  unfold isSafePath startsWith at h
  rw [matchesLine_of_plain fun hmem => hline (List.mem_of_mem_drop hmem)] at h
  simp only [Bool.and_eq_true] at h
  obtain ⟨rest, rfl⟩ := List.isPrefixOf_iff_prefix.mp h.1
  have hrest : ((ascii "/" ++ rest).drop 1).all isPathUnit = true := h.2.2
  rw [List.all_append]
  have hplain : rest.all isPlain = true :=
    all_mono (fun c hc => isPlain_of_class (by decide) hc) hrest
  rw [hplain]
  decide

theorem safeUuid_plain {uuid : Text} (hline : 10 ∉ uuid) (h : isSafeUuid uuid = true) :
    uuid.all isPlain = true := by
  have hlast : uuid.getLast? ≠ some 10 := fun hlast => hline (List.mem_of_getLast? hlast)
  unfold isSafeUuid at h
  rw [if_neg hlast] at h
  simp only [Bool.and_eq_true] at h
  refine all_mono (fun c hc => ?_) h.2
  rcases Bool.or_eq_true _ _ |>.mp hc with hc | hc
  · exact isPlain_of_isAlnum hc
  · rw [beq_iff_eq.mp hc]
    rfl

/-! ### When the menu is written -/

/-- No flag that is kept holds a quote. -/
def Unquoted (options : Text) : Prop := ∀ flag ∈ keptFlags options, 39 ∉ flag

theorem keptFlags_no_newline {flag : Text} (h : flag ∈ keptFlags options) :
    flag.all (· != 10) = true := by
  unfold keptFlags at h
  cases hlast : (rootflagsTokens options).getLast? with
  | none =>
      rw [hlast] at h
      cases h
  | some last =>
      rw [hlast] at h
      have hword := (List.mem_filter.mp (List.mem_of_getLast? hlast)).1
      have hline : (last.drop 10).all (· != 10) = true := by
        refine List.all_eq_true.mpr fun c hc => bne_iff_ne.mpr ?_
        rintro rfl
        exact newline_notMem_word hword (List.mem_of_mem_drop hc)
      have hpieces := (@intercalate_all (· != 10) 44 rfl
        ((last.drop 10).splitOn 44)).mp (by rwa [List.intercalate_splitOn])
      exact hpieces flag (List.mem_filter.mp h).1

theorem unquoted_iff : Unquoted options ↔ ∀ flag ∈ keptFlags options, flag.all isPlain = true := by
  refine forall₂_congr fun flag hflag => ?_
  have hline := List.all_eq_true.mp (keptFlags_no_newline hflag)
  simp only [isPlain, List.all_eq_true, Bool.and_eq_true, bne_iff_ne]
  constructor
  · intro hquote c hc
    exact ⟨fun heq => hquote (heq ▸ hc), bne_iff_ne.mp (hline c hc)⟩
  · intro h hmem
    exact (h 39 hmem).1 rfl

theorem arguments_plain {arguments : List Text} {point : PointId}
    (h : recoveryArguments options point.text = some arguments) :
    (∀ argument ∈ arguments, argument.all isPlain = true) ↔ Unquoted options := by
  have hshape := recoveryArguments_eq_some h
  have hsubvol : (subvolFlag point.text).all isPlain = true :=
    all_mono isSafe_plain (subvolFlag_safe point)
  have hflags := @flagsText_all isPlain (by decide) options point.text hsubvol
  rw [unquoted_iff, ← hflags]
  constructor
  · intro hall
    have hroot := hall (ascii "rootflags=" ++ flagsText options point.text) (by rw [hshape]; simp)
    rw [List.all_append, Bool.and_eq_true] at hroot
    exact hroot.2
  · intro hall argument hargument
    rw [hshape] at hargument
    rcases List.mem_append.mp hargument with hargument | hargument
    · obtain ⟨hword, haccepted⟩ := List.mem_filter.mp hargument
      exact all_mono isSafe_plain (accepted_safe hword haccepted)
    · simp only [List.mem_cons, List.not_mem_nil, or_false] at hargument
      rcases hargument with rfl | rfl | rfl
      · decide
      · rw [List.all_append, hall]
        decide
      · rw [List.all_append, point.plain]
        decide

variable {machine : Machine} {point : PointId}

/-- The options that an entry of the menu is made from. -/
def usedOptions (machine : Machine) (entry : BootEntry) : Text :=
  if (recoveryArguments entry.options []).isSome then entry.options else machine.kernelopts

/-- The entry that a point would be booted with, its files being there. -/
def Offers (machine : Machine) (point : PointId) (entry : BootEntry) : Prop :=
  menuPossible machine = true ∧ (machine.pointKernel point).isEmpty = false ∧
    machine.entries (machine.pointKernel point) = some entry ∧
    unbootable machine (machine.pointKernel point) entry = none

/-- Options whose arguments can be quoted. -/
def Quotable (options : Text) : Prop := NamesRoot options → Unquoted options

theorem recoveryArguments_isSome : (recoveryArguments options token).isSome = true ↔
    NamesRoot options := by
  rw [Option.isSome_iff_ne_none, ne_eq, recoveryArguments_eq_none, not_not]

theorem chosenArguments_eq (machine : Machine) (entry : BootEntry) (point : Text) :
    chosenArguments machine entry point = recoveryArguments (usedOptions machine entry) point := by
  unfold chosenArguments usedOptions
  by_cases hroot : NamesRoot entry.options
  · rw [if_pos (recoveryArguments_isSome.mpr hroot)]
    obtain ⟨arguments, harguments⟩ :=
      Option.isSome_iff_exists.mp ((@recoveryArguments_isSome _ point).mpr hroot)
    rw [harguments, Option.some_or]
  · rw [if_neg fun hsome => hroot (recoveryArguments_isSome.mp hsome),
      recoveryArguments_eq_none.mpr hroot, Option.none_or]

theorem menuLines_ok {description : Text} {entry : BootEntry} {arguments : List Text}
    (huuid : machine.bootUuid.all isPlain = true) (hlinux : entry.linux.all isPlain = true)
    (hinitrd : ∀ path ∈ initrds entry, path.all isPlain = true) :
    (∃ lines, menuLines machine point.text description entry arguments = .ok lines) ↔
      ∀ argument ∈ arguments, argument.all isPlain = true := by
  have hid : (ascii "cybexos-recovery-" ++ point.text).all isPlain = true := by
    rw [List.all_append, point.plain]
    decide
  have hstarting : (ascii "Starting CybexOS recovery point " ++ point.text ++
      ascii ". Changes are kept in memory only.").all isPlain = true := by
    rw [List.all_append, List.all_append, point.plain]
    decide
  obtain ⟨title, htitle⟩ := quote_ok.mpr (menuTitle_plain point description)
  obtain ⟨id, hid⟩ := quote_ok.mpr hid
  obtain ⟨uuid, huuid⟩ := quote_ok.mpr huuid
  obtain ⟨starting, hstarting⟩ := quote_ok.mpr hstarting
  obtain ⟨disks, hdisks⟩ := quoteAll_ok.mpr hinitrd
  have harguments : (∃ quoted, quoteAll (entry.linux :: arguments) = .ok quoted) ↔
      ∀ argument ∈ arguments, argument.all isPlain = true := by
    rw [quoteAll_ok, List.forall_mem_cons]
    exact ⟨fun h => h.2, fun h => ⟨hlinux, h⟩⟩
  rw [← harguments]
  unfold menuLines
  simp only [htitle, hid, huuid, hstarting, hdisks, bind_eq_ok, pure_eq_ok, Except.ok.injEq,
    exists_eq_left']
  constructor
  · rintro ⟨lines, quoted, hquoted, -⟩
    exact ⟨quoted, hquoted⟩
  · rintro ⟨quoted, hquoted⟩
    exact ⟨_, quoted, hquoted, rfl⟩

/-- A point is described exactly when the arguments of its entry can be quoted. -/
theorem describePoint_ok : (∃ described, describePoint machine point = .ok described) ↔
    ∀ entry, Offers machine point entry → Quotable (usedOptions machine entry) := by
  have hdone : (∃ described, describePoint machine point = .ok described) ↔
      ∃ menu, pointMenu machine point = .ok menu := by
    unfold describePoint
    simp only [bind_eq_ok, pure_eq_ok]
    exact ⟨fun ⟨_, menu, h, _⟩ => ⟨menu, h⟩, fun ⟨menu, h⟩ => ⟨_, menu, h, rfl⟩⟩
  rw [hdone]
  unfold pointMenu Offers
  split_ifs with hmenu
  · unfold menuEntry
    split_ifs with hkernel
    · simp [hkernel]
    · cases hentry : machine.entries (machine.pointKernel point) with
      | none => simp
      | some entry =>
          dsimp only
          cases hreason : unbootable machine (machine.pointKernel point) entry with
          | some reason =>
              constructor
              · rintro - other ⟨-, -, hother, hnone⟩
                rw [Option.some.inj hother, hnone] at hreason
                cases hreason
              · exact fun _ => ⟨_, rfl⟩
          | none =>
              dsimp only
              have honly : (∀ other, (menuPossible machine = true ∧
                  (machine.pointKernel point).isEmpty = false ∧ some entry = some other ∧
                  unbootable machine (machine.pointKernel point) other = none) →
                  Quotable (usedOptions machine other)) ↔
                  Quotable (usedOptions machine entry) := by
                constructor
                · exact fun h => h entry ⟨hmenu, Bool.eq_false_iff.mpr hkernel, rfl, hreason⟩
                · rintro h other ⟨-, -, hother, -⟩
                  rwa [← Option.some.inj hother]
              rw [honly, chosenArguments_eq]
              cases harguments : recoveryArguments (usedOptions machine entry) point.text with
              | none =>
                  have hroot := recoveryArguments_eq_none.mp harguments
                  exact ⟨fun _ hrooted => absurd hrooted hroot, fun _ => ⟨_, rfl⟩⟩
              | some arguments =>
                  have hroot : NamesRoot (usedOptions machine entry) :=
                    recoveryArguments_isSome.mp (Option.isSome_iff_exists.mpr ⟨_, harguments⟩)
                  have hquotable : Quotable (usedOptions machine entry) ↔
                      Unquoted (usedOptions machine entry) :=
                    ⟨fun h => h hroot, fun h _ => h⟩
                  have huuid : machine.bootUuid.all isPlain = true := by
                    simp only [menuPossible, Bool.and_eq_true] at hmenu
                    exact safeUuid_plain machine.uuid_line hmenu.1.2
                  have hpaths : isSafePath entry.linux = true ∧
                      (initrds entry).all isSafePath = true := by
                    unfold unbootable at hreason
                    split_ifs at hreason with hpath
                    simp only [Bool.or_eq_true, Bool.not_eq_true', not_or,
                      Bool.not_eq_false] at hpath
                    exact ⟨hpath.1.1, hpath.2⟩
                  have hinitrd : ∀ path ∈ initrds entry, path.all isPlain = true :=
                    fun path hpath => safePath_plain
                      (entry.initrd_line path (List.mem_filter.mp hpath).1)
                      (List.all_eq_true.mp hpaths.2 path hpath)
                  have hlines := @menuLines_ok machine point (machine.description point) entry
                    arguments huuid (safePath_plain entry.linux_line hpaths.1) hinitrd
                  rw [hquotable, ← arguments_plain harguments, ← hlines]
                  dsimp only
                  simp only [bind_eq_ok, pure_eq_ok]
                  exact ⟨fun ⟨_, lines, h, _⟩ => ⟨lines, h⟩, fun ⟨lines, h⟩ => ⟨_, lines, h, rfl⟩⟩
  · simp [hmenu]

/-- The arguments are what they should be exactly when there is no root or all
flags are safe, and one quote in the flags of one point ends the whole menu. -/
theorem recoveryArguments_sound (options : Text) (point : PointId) (machine : Machine)
    (points : List PointId) :
    ((recoveryArguments options point.text = none ↔ ¬ NamesRoot options) ∧
      ((∀ arguments, recoveryArguments options point.text = some arguments →
          SoundArguments point.text arguments) ↔ (NamesRoot options → SafeFlags options))) ∧
    ((∃ described, describePoints machine points = .ok described) ↔
      ∀ point ∈ points, ∀ entry, Offers machine point entry →
        Quotable (usedOptions machine entry)) := by
  refine ⟨⟨recoveryArguments_eq_none, ?_⟩, ?_⟩
  · constructor
    · intro h hroot
      obtain ⟨arguments, harguments⟩ :=
        Option.isSome_iff_exists.mp ((@recoveryArguments_isSome _ point.text).mpr hroot)
      exact (sound_iff harguments).mp (h arguments harguments)
    · intro h arguments harguments
      have hroot : NamesRoot options :=
        recoveryArguments_isSome.mp (Option.isSome_iff_exists.mpr ⟨_, harguments⟩)
      exact (sound_iff harguments).mpr (h hroot)
  · have hall : (∃ described, describePoints machine points = .ok described) ↔
        ∃ described, points.reverse.mapM (describePoint machine) = .ok described := by
      unfold describePoints
      simp only [bind_eq_ok, pure_eq_ok]
      exact ⟨fun ⟨_, described, h, _⟩ => ⟨described, h⟩, fun ⟨described, h⟩ => ⟨_, described, h, rfl⟩⟩
    rw [hall, mapM_ok]
    simp only [List.mem_reverse]
    exact forall₂_congr fun point _ => describePoint_ok

/-- A point that boots with an entry of these options. -/
def machineOf (options : Text) : Machine where
  entries := fun _ => some ⟨ascii "/vmlinuz-6.20.1", [ascii "/initramfs-6.20.1.img"], options,
    by decide, by decide⟩
  isFile := fun _ => true
  supportsRecovery := fun _ => true
  kernelopts := []
  bootUuid := ascii "0b1c-22"
  bootModule := ascii "ext2"
  withMenu := true
  description := fun _ => []
  pointKernel := fun _ => ascii "6.20.1"
  hasArchive := fun _ => true
  uuid_line := by decide

def firstPoint : PointId := ⟨ascii "20260901T120000Z-1", by decide⟩

/-- A quote in the flags is kept, is no safe unit, and leaves no menu at all. -/
theorem rootflags_quote_kept :
    recoveryArguments (ascii "root=UUID=1 rootflags=compress='zstd'") firstPoint.text =
      some [ascii "root=UUID=1", ascii "ro",
        ascii "rootflags=compress='zstd',subvol=cybexos-snapshots/root/20260901T120000Z-1",
        ascii "cybexos.recovery=20260901T120000Z-1"] ∧
    isSafe 39 = false ∧
    (match describePoints (machineOf (ascii "root=UUID=1 rootflags=compress='zstd'"))
        [firstPoint] with
      | .ok _ => false
      | .error refusal => refusal = .unsafeText
          (ascii "rootflags=compress='zstd',subvol=cybexos-snapshots/root/20260901T120000Z-1")) =
      true := by
  refine ⟨?_, ?_, ?_⟩ <;> decide +kernel

end Snapshot

end CybexOS
