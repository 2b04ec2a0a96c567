/-
The grammar and the precedence of Semantic Versions 2.0.0, and that
`scripts/semver` accepts the one and computes the other.
-/
import CybexOS.Release.Semver
import Mathlib.Data.Sum.Order
import Mathlib.Order.WithBot

namespace CybexOS

namespace Semver

/-! ### The grammar -/

/-- Zero, or digits that begin with a positive one. -/
def NumericIdentifier (id : Text) : Prop :=
  id = [48] ∨ ∃ c rest, id = c :: rest ∧ isPositive c = true ∧ rest.all isDigit = true

/-- Digits, letters and hyphens, not all of them digits. -/
def AlphanumericIdentifier (id : Text) : Prop :=
  id.all isWord = true ∧ ∃ c ∈ id, isLetter c = true

/-- Digits, letters and hyphens. -/
def BuildIdentifier (id : Text) : Prop := id ≠ [] ∧ id.all isWord = true

def PrereleaseIdentifier (id : Text) : Prop := NumericIdentifier id ∨ AlphanumericIdentifier id

/-- A version as the grammar composes it. -/
@[ext]
structure Version where
  major : Text
  minor : Text
  patch : Text
  prerelease : Option (List Text)
  build : Option (List Text)
  major_numeric : NumericIdentifier major
  minor_numeric : NumericIdentifier minor
  patch_numeric : NumericIdentifier patch
  prerelease_ne_nil : ∀ ids ∈ prerelease, ids ≠ []
  prerelease_identifiers : ∀ ids ∈ prerelease, ∀ id ∈ ids, PrereleaseIdentifier id
  build_ne_nil : ∀ ids ∈ build, ids ≠ []
  build_identifiers : ∀ ids ∈ build, ∀ id ∈ ids, BuildIdentifier id

/-- Identifiers with dots between them. -/
def dotted (ids : List Text) : Text := List.intercalate [46] ids

/-- A mark and what follows it, or nothing. -/
def marked (mark : ℕ) : Option (List Text) → Text
  | none => []
  | some ids => mark :: dotted ids

namespace Version

/-- How a version is written. -/
def text (v : Version) : Text :=
  v.major ++ 46 :: (v.minor ++ 46 :: (v.patch ++ (marked 45 v.prerelease ++ marked 43 v.build)))

/-- The version without its build metadata. -/
def released (v : Version) : Version where
  major := v.major
  minor := v.minor
  patch := v.patch
  prerelease := v.prerelease
  build := none
  major_numeric := v.major_numeric
  minor_numeric := v.minor_numeric
  patch_numeric := v.patch_numeric
  prerelease_ne_nil := v.prerelease_ne_nil
  prerelease_identifiers := v.prerelease_identifiers
  build_ne_nil := fun _ h => nomatch h
  build_identifiers := fun _ h => nomatch h

end Version

/-! ### The precedence -/

/-- Numeric identifiers by value, below the others, which are in the order of their
units. -/
def identifierRank (id : Text) : ℕ ⊕ₗ Text :=
  if id.all isDigit then toLex (Sum.inl (decimal id)) else toLex (Sum.inr id)

/-- The lists in lexicographic order, all below the release itself. -/
def prereleaseRank : Option (List Text) → WithTop (List (ℕ ⊕ₗ Text))
  | none => ⊤
  | some ids => ((ids.map identifierRank : List (ℕ ⊕ₗ Text)) : WithTop (List (ℕ ⊕ₗ Text)))

namespace Version

def core (v : Version) : Core :=
  toLex (decimal v.major, toLex (decimal v.minor, decimal v.patch))

/-- The place of a version in the linear order of precedences. -/
def precedence (v : Version) : Core ×ₗ WithTop (List (ℕ ⊕ₗ Text)) :=
  toLex (v.core, prereleaseRank v.prerelease)

end Version

/-! ### The expression reads the grammar -/

theorem isDigit_of_isPositive {c : ℕ} (h : isPositive c = true) : isDigit c = true := by
  simp only [isPositive, isDigit, Bool.and_eq_true, decide_eq_true_eq] at h ⊢
  omega

theorem NumericIdentifier.digits {id : Text} (h : NumericIdentifier id) :
    id.all isDigit = true := by
  rcases h with rfl | ⟨c, rest, rfl, hc, hrest⟩
  · rfl
  · rw [List.all_cons, isDigit_of_isPositive hc, hrest]
    rfl

theorem NumericIdentifier.ne_nil {id : Text} (h : NumericIdentifier id) : id ≠ [] := by
  rcases h with rfl | ⟨c, rest, rfl, -, -⟩ <;> simp

theorem isWord_of_isDigit {c : ℕ} (h : isDigit c = true) : isWord c = true := by
  rw [isWord, h]
  rfl

theorem PrereleaseIdentifier.words {id : Text} (h : PrereleaseIdentifier id) :
    id.all isWord = true := by
  rcases h with h | h
  · exact List.all_eq_true.mpr fun c hc => isWord_of_isDigit (List.all_eq_true.mp h.digits c hc)
  · exact h.1

open Pattern (Reads)

theorem reads_positive {text : Text} {captures : Pattern.Captures} :
    Reads (.seq (.unit isPositive) (.star (.unit isDigit))) text captures ↔
      (∃ c rest, text = c :: rest ∧ isPositive c = true ∧ rest.all isDigit = true) ∧
        captures = [] := by
  constructor
  · rintro ⟨_, rest, _, _, rfl, rfl, ⟨c, hc, rfl, rfl⟩, hrest⟩
    obtain ⟨hdigits, rfl⟩ := Pattern.reads_star_unit.mp hrest
    exact ⟨⟨c, rest, rfl, hc, hdigits⟩, rfl⟩
  · rintro ⟨⟨c, rest, rfl, hc, hdigits⟩, rfl⟩
    exact ⟨[c], rest, [], [], rfl, rfl, ⟨c, hc, rfl, rfl⟩,
      Pattern.reads_star_unit.mpr ⟨hdigits, rfl⟩⟩

theorem reads_number {text : Text} {captures : Pattern.Captures} :
    Reads number text captures ↔ NumericIdentifier text ∧ captures = [] := by
  have heither : Reads number text captures ↔
      Reads (.char 48) text captures ∨
        Reads (.seq (.unit isPositive) (.star (.unit isDigit))) text captures := Iff.rfl
  rw [heither, Pattern.reads_char, reads_positive, ← or_and_right]
  rfl

theorem reads_alphanumeric {text : Text} {captures : Pattern.Captures} :
    Reads (.seq (.star (.unit isWord)) (.seq (.unit isLetter) (.star (.unit isWord))))
      text captures ↔ AlphanumericIdentifier text ∧ captures = [] := by
  constructor
  · rintro ⟨before, _, _, _, rfl, rfl, hfirst, _, after, _, _, rfl, rfl, ⟨c, hc, rfl, rfl⟩, hlast⟩
    obtain ⟨hbefore, rfl⟩ := Pattern.reads_star_unit.mp hfirst
    obtain ⟨hafter, rfl⟩ := Pattern.reads_star_unit.mp hlast
    have hword : isWord c = true := by rw [isWord, hc, Bool.or_true]
    refine ⟨⟨?_, c, by simp, hc⟩, rfl⟩
    rw [List.all_append, hbefore, List.singleton_append, List.all_cons, hword, hafter]
    rfl
  · rintro ⟨⟨hall, c, hmem, hc⟩, rfl⟩
    obtain ⟨before, after, rfl⟩ := List.append_of_mem hmem
    rw [List.all_append, List.all_cons, Bool.and_eq_true, Bool.and_eq_true] at hall
    exact ⟨before, c :: after, [], [], rfl, rfl, Pattern.reads_star_unit.mpr ⟨hall.1, rfl⟩,
      [c], after, [], [], rfl, rfl, ⟨c, hc, rfl, rfl⟩,
      Pattern.reads_star_unit.mpr ⟨hall.2.2, rfl⟩⟩

theorem reads_identifier (text : Text) (captures : Pattern.Captures) :
    Reads identifier text captures ↔ PrereleaseIdentifier text ∧ captures = [] := by
  have heither : Reads identifier text captures ↔ Reads (.char 48) text captures ∨
      Reads (.seq (.unit isPositive) (.star (.unit isDigit))) text captures ∨
        Reads (.seq (.star (.unit isWord)) (.seq (.unit isLetter) (.star (.unit isWord))))
          text captures := Iff.rfl
  rw [heither, Pattern.reads_char, reads_positive, reads_alphanumeric, ← or_and_right,
    ← or_and_right, ← or_assoc]
  rfl

theorem reads_build (text : Text) (captures : Pattern.Captures) :
    Reads (.plus (.unit isWord)) text captures ↔ BuildIdentifier text ∧ captures = [] := by
  rw [Pattern.reads_plus_unit, ← and_assoc]
  rfl

/-- An optional group behind a mark. -/
theorem reads_marked {mark index : ℕ} {item : Pattern} {good : Text → Prop}
    (hitem : ∀ text captures, Reads item text captures ↔ good text ∧ captures = [])
    {text : Text} {captures : Pattern.Captures} :
    Reads (.optional (.seq (.char mark) (.group index (.separated 46 item)))) text captures ↔
      ∃ ids : Option (List Text), (∀ some ∈ ids, some ≠ []) ∧
        (∀ some ∈ ids, ∀ id ∈ some, good id) ∧ text = marked mark ids ∧
        captures = (ids.map fun some => (index, dotted some)).toList := by
  rw [Pattern.reads_optional]
  constructor
  · rintro (⟨_, inner, _, _, rfl, rfl, hmark, cs, rfl, hinner⟩ | ⟨rfl, rfl⟩)
    · obtain ⟨rfl, rfl⟩ := Pattern.reads_char.mp hmark
      obtain ⟨rfl, ids, hne, hgood, rfl⟩ := (Pattern.reads_separated hitem).mp hinner
      refine ⟨some ids, ?_, ?_, rfl, rfl⟩
      · rintro _ ⟨rfl⟩
        exact hne
      · rintro _ ⟨rfl⟩
        exact hgood
    · exact ⟨none, (fun _ h => nomatch h), (fun _ h => nomatch h), rfl, rfl⟩
  · rintro ⟨ids, hne, hgood, rfl, rfl⟩
    cases ids with
    | none => exact Or.inr ⟨rfl, rfl⟩
    | some ids =>
        refine Or.inl ⟨[mark], dotted ids, [], [(index, dotted ids)], rfl, rfl,
          Pattern.reads_char.mpr ⟨rfl, rfl⟩, [], rfl, ?_⟩
        exact (Pattern.reads_separated hitem).mpr
          ⟨rfl, ids, hne ids rfl, hgood ids rfl, rfl⟩

/-- What the groups take of a version. -/
def Version.captures (v : Version) : Pattern.Captures :=
  (1, v.major) :: (2, v.minor) :: (3, v.patch) ::
    ((v.prerelease.map fun ids => (4, dotted ids)).toList ++
      (v.build.map fun ids => (5, dotted ids)).toList)

theorem reads_semver {text : Text} {captures : Pattern.Captures} :
    Reads semver text captures ↔ ∃ v : Version, v.text = text ∧ v.captures = captures := by
  constructor
  · rintro ⟨major, _, _, _, rfl, rfl, ⟨_, rfl, hfirst⟩, _, _, _, _, rfl, rfl, hdot, minor, _, _, _,
      rfl, rfl, ⟨_, rfl, hsecond⟩, _, _, _, _, rfl, rfl, hdot', patch, _, _, _, rfl, rfl,
      ⟨_, rfl, hthird⟩, _, _, _, _, rfl, rfl, hpre, hbuild⟩
    obtain ⟨hmajor, rfl⟩ := reads_number.mp hfirst
    obtain ⟨hminor, rfl⟩ := reads_number.mp hsecond
    obtain ⟨hpatch, rfl⟩ := reads_number.mp hthird
    obtain ⟨rfl, rfl⟩ := Pattern.reads_char.mp hdot
    obtain ⟨rfl, rfl⟩ := Pattern.reads_char.mp hdot'
    obtain ⟨prerelease, hprene, hpreids, rfl, rfl⟩ := (reads_marked reads_identifier).mp hpre
    obtain ⟨build, hbuildne, hbuildids, rfl, rfl⟩ := (reads_marked reads_build).mp hbuild
    exact ⟨⟨major, minor, patch, prerelease, build, hmajor, hminor, hpatch, hprene, hpreids,
      hbuildne, hbuildids⟩, rfl, rfl⟩
  · rintro ⟨v, rfl, rfl⟩
    have hdot : Reads (.char 46) [46] [] := Pattern.reads_char.mpr ⟨rfl, rfl⟩
    have hnumber : ∀ {id : Text} (index : ℕ), NumericIdentifier id →
        Reads (.group index number) id [(index, id)] :=
      fun index h => ⟨[], rfl, reads_number.mpr ⟨h, rfl⟩⟩
    exact ⟨v.major, _, [(1, v.major)], _, rfl, rfl, hnumber 1 v.major_numeric,
      [46], _, [], _, rfl, rfl, hdot,
      v.minor, _, [(2, v.minor)], _, rfl, rfl, hnumber 2 v.minor_numeric,
      [46], _, [], _, rfl, rfl, hdot,
      v.patch, _, [(3, v.patch)], _, rfl, rfl, hnumber 3 v.patch_numeric,
      marked 45 v.prerelease, marked 43 v.build, _, _, rfl, rfl,
      (reads_marked reads_identifier).mpr
        ⟨v.prerelease, v.prerelease_ne_nil, v.prerelease_identifiers, rfl, rfl⟩,
      (reads_marked reads_build).mpr ⟨v.build, v.build_ne_nil, v.build_identifiers, rfl, rfl⟩⟩

/-! ### A text is written by one version -/

/-- Units of one kind end where another kind begins. -/
theorem append_inj_of_break {allowed : ℕ → Bool} {a b x y : Text} (ha : a.all allowed = true)
    (hb : b.all allowed = true) (hx : ∀ c ∈ x.head?, allowed c = false)
    (hy : ∀ c ∈ y.head?, allowed c = false) (h : a ++ x = b ++ y) : a = b ∧ x = y := by
  induction a generalizing b with
  | nil =>
      cases b with
      | nil => exact ⟨rfl, h⟩
      | cons c b =>
          rw [List.all_cons, Bool.and_eq_true] at hb
          have hc := hx c (by rw [List.nil_append] at h; rw [h]; rfl)
          rw [hb.1] at hc
          cases hc
  | cons c a ih =>
      rw [List.all_cons, Bool.and_eq_true] at ha
      cases b with
      | nil =>
          have hc := hy c (by rw [List.nil_append] at h; rw [← h]; rfl)
          rw [ha.1] at hc
          cases hc
      | cons d b =>
          rw [List.all_cons, Bool.and_eq_true] at hb
          rw [List.cons_append, List.cons_append] at h
          obtain ⟨rfl, hrest⟩ := List.cons.inj h
          obtain ⟨rfl, rfl⟩ := ih ha.2 hb.2 hrest
          exact ⟨rfl, rfl⟩

/-- Words with dots between them. -/
theorem splitOn_dotted {ids : List Text} (hne : ids ≠ []) (hids : ∀ id ∈ ids, id.all isWord = true) :
    (dotted ids).splitOn 46 = ids := by
  refine List.splitOn_intercalate 46 (fun id hid hdot => ?_) hne
  have hword := List.all_eq_true.mp (hids id hid) 46 hdot
  cases hword

theorem dotted_all {ids : List Text} (hids : ∀ id ∈ ids, id.all isWord = true) :
    (dotted ids).all (fun c => isWord c || c == 46) = true := by
  induction ids with
  | nil => rfl
  | cons id ids ih =>
      have hid : id.all (fun c => isWord c || c == 46) = true := by
        refine List.all_eq_true.mpr fun c hc => ?_
        have hword := List.all_eq_true.mp (hids id List.mem_cons_self) c hc
        rw [hword, Bool.true_or]
      have hothers := ih fun other h => hids other (List.mem_cons_of_mem _ h)
      cases ids with
      | nil => simpa [dotted] using hid
      | cons next others =>
          unfold dotted at hothers ⊢
          rw [List.intercalate_cons_cons, List.all_append, List.all_append, hid, hothers]
          rfl

theorem marked_injective {mark : ℕ} {ids others : Option (List Text)}
    (hne : ∀ some ∈ ids, some ≠ []) (hids : ∀ some ∈ ids, ∀ id ∈ some, id.all isWord = true)
    (hne' : ∀ some ∈ others, some ≠ [])
    (hids' : ∀ some ∈ others, ∀ id ∈ some, id.all isWord = true)
    (h : marked mark ids = marked mark others) : ids = others := by
  cases ids with
  | none =>
      cases others with
      | none => rfl
      | some others => cases h
  | some ids =>
      cases others with
      | none => cases h
      | some others =>
          have hdotted : dotted ids = dotted others := (List.cons.inj h).2
          rw [← splitOn_dotted (hne ids rfl) (hids ids rfl), hdotted,
            splitOn_dotted (hne' others rfl) (hids' others rfl)]

namespace Version

variable (v : Version)

theorem prerelease_words : ∀ ids ∈ v.prerelease, ∀ id ∈ ids, id.all isWord = true :=
  fun ids h id hid => (v.prerelease_identifiers ids h id hid).words

theorem build_words : ∀ ids ∈ v.build, ∀ id ∈ ids, id.all isWord = true :=
  fun ids h id hid => (v.build_identifiers ids h id hid).2

theorem head_build : ∀ c ∈ (marked 43 v.build).head?, c = 43 := by
  intro c hc
  cases hbuild : v.build with
  | none =>
      rw [hbuild] at hc
      cases hc
  | some ids =>
      rw [hbuild] at hc
      cases hc
      rfl

/-- What follows the numbers begins with neither a digit nor a dot. -/
theorem head_labels :
    ∀ c ∈ (marked 45 v.prerelease ++ marked 43 v.build).head?, c = 45 ∨ c = 43 := by
  intro c hc
  cases hpre : v.prerelease with
  | none =>
      rw [hpre] at hc
      exact Or.inr (v.head_build c hc)
  | some ids =>
      rw [hpre] at hc
      cases hc
      exact Or.inl rfl

theorem prerelease_all :
    (marked 45 v.prerelease).all (fun c => isWord c || c == 46) = true := by
  cases hpre : v.prerelease with
  | none => rfl
  | some ids =>
      have hids := dotted_all (v.prerelease_words ids hpre)
      rw [marked, List.all_cons, hids]
      rfl

theorem text_injective {v w : Version} (h : v.text = w.text) : v = w := by
  have hdot : ∀ rest : Text, ∀ c ∈ (46 :: rest).head?, isDigit c = false := by
    rintro rest c ⟨⟩
    rfl
  have hlabels : ∀ u : Version,
      ∀ c ∈ (marked 45 u.prerelease ++ marked 43 u.build).head?, isDigit c = false := by
    intro u c hc
    rcases u.head_labels c hc with rfl | rfl <;> rfl
  have hplus : ∀ u : Version,
      ∀ c ∈ (marked 43 u.build).head?, (isWord c || c == 46) = false := by
    intro u c hc
    rw [u.head_build c hc]
    rfl
  obtain ⟨hmajor, h⟩ := append_inj_of_break v.major_numeric.digits w.major_numeric.digits
    (hdot _) (hdot _) h
  obtain ⟨hminor, h⟩ := append_inj_of_break v.minor_numeric.digits w.minor_numeric.digits
    (hdot _) (hdot _) (List.cons.inj h).2
  obtain ⟨hpatch, h⟩ := append_inj_of_break v.patch_numeric.digits w.patch_numeric.digits
    (hlabels v) (hlabels w) (List.cons.inj h).2
  obtain ⟨hpre, hbuild⟩ := append_inj_of_break v.prerelease_all w.prerelease_all
    (hplus v) (hplus w) h
  exact Version.ext hmajor hminor hpatch
    (marked_injective v.prerelease_ne_nil v.prerelease_words w.prerelease_ne_nil
      w.prerelease_words hpre)
    (marked_injective v.build_ne_nil v.build_words w.build_ne_nil w.build_words hbuild)

/-! ### Reading a version -/

theorem fullmatch_text : semver.fullmatch v.text = some v.captures := by
  obtain ⟨found, hfound⟩ := Pattern.fullmatch_of_reads (reads_semver.mpr ⟨v, rfl, rfl⟩)
  obtain ⟨w, htext, hcaptures⟩ := reads_semver.mp (Pattern.reads_of_fullmatch hfound)
  rw [hfound, ← hcaptures, text_injective htext]

theorem captured_prerelease :
    (Pattern.captured 4 v.captures).map (·.splitOn 46) = v.prerelease := by
  have hgroup : Pattern.captured 4 v.captures = v.prerelease.map dotted := by
    unfold Pattern.captured captures
    cases v.prerelease <;> cases v.build <;> rfl
  rw [hgroup]
  cases hpre : v.prerelease with
  | none => rfl
  | some ids =>
      rw [Option.map_some, Option.map_some,
        splitOn_dotted (v.prerelease_ne_nil ids hpre) (v.prerelease_words ids hpre)]

theorem captured_numbers :
    Pattern.captured 1 v.captures = some v.major ∧
      Pattern.captured 2 v.captures = some v.minor ∧
        Pattern.captured 3 v.captures = some v.patch := by
  unfold Pattern.captured captures
  cases v.prerelease <;> cases v.build <;> exact ⟨rfl, rfl, rfl⟩

@[simp]
theorem parse_text : parse v.text = .ok (v.core, v.prerelease) := by
  unfold parse
  rw [v.fullmatch_text]
  dsimp only
  unfold int
  obtain ⟨hmajor, hminor, hpatch⟩ := v.captured_numbers
  rw [hmajor, hminor, hpatch, captured_prerelease]
  rfl

end Version

theorem parse_eq_ok {value : Text} {result : Core × Option (List Text)}
    (h : parse value = .ok result) : ∃ v : Version, v.text = value := by
  unfold parse at h
  split at h
  · cases h
  · next captures hmatch =>
      obtain ⟨v, hv, -⟩ := reads_semver.mp (Pattern.reads_of_fullmatch hmatch)
      exact ⟨v, hv⟩

/-! ### Numbers without leading zeros -/

theorem digitsOf_decimal {digits : Text} (hne : digits ≠ []) (hall : digits.all isDigit = true)
    (hhead : digits.head? ≠ some 48) : digitsOf (decimal digits) = digits := by
  have hrange : ∀ c ∈ digits, 48 ≤ c ∧ c ≤ 57 := by
    intro c hc
    have hdigit := List.all_eq_true.mp hall c hc
    simpa [isDigit] using hdigit
  have hback : (digits.map (· - 48)).reverse.reverse.map (· + 48) = digits := by
    rw [List.reverse_reverse, List.map_map]
    calc digits.map ((· + 48) ∘ (· - 48)) = digits.map id := by
          refine List.map_congr_left fun c hc => ?_
          have hc := hrange c hc
          simp only [Function.comp_apply, id_eq]
          omega
      _ = digits := List.map_id digits
  have hdigits : Nat.digits 10 (decimal digits) = (digits.map (· - 48)).reverse := by
    rw [← hback, decimal_reverse_digits, hback]
    refine Nat.digits_ofDigits 10 (by norm_num) _ (fun d hd => ?_) (fun hsome => ?_)
    · obtain ⟨c, hc, rfl⟩ := List.mem_map.mp (List.mem_reverse.mp hd)
      have hc := hrange c hc
      omega
    · obtain ⟨c, rest, rfl⟩ := List.exists_cons_of_ne_nil hne
      have hc := hrange c List.mem_cons_self
      have hzero : c ≠ 48 := fun h => hhead (by rw [h]; rfl)
      simp only [List.map_cons, List.getLast_reverse, List.head_cons]
      omega
  have hpos : decimal digits ≠ 0 := by
    intro hzero
    rw [hzero, Nat.digits_zero] at hdigits
    have hnil : digits = [] := by simpa using hdigits.symm
    exact hne hnil
  rw [digitsOf, if_neg hpos, hdigits, hback]

theorem NumericIdentifier.rebuilt {id : Text} (h : NumericIdentifier id) :
    digitsOf (decimal id) = id := by
  have hall := h.digits
  rcases h with rfl | ⟨c, rest, rfl, hc, -⟩
  · rfl
  · refine digitsOf_decimal (by simp) hall ?_
    rintro ⟨⟩
    cases hc

theorem NumericIdentifier.eq_of_decimal {a b : Text} (ha : NumericIdentifier a)
    (hb : NumericIdentifier b) (h : decimal a = decimal b) : a = b := by
  rw [← ha.rebuilt, h, hb.rebuilt]

/-- Only numeric identifiers are all digits. -/
theorem PrereleaseIdentifier.numeric {id : Text} (h : PrereleaseIdentifier id)
    (hdigits : id.all isDigit = true) : NumericIdentifier id := by
  rcases h with h | ⟨-, c, hc, hletter⟩
  · exact h
  · have hdigit := List.all_eq_true.mp hdigits c hc
    simp only [isDigit, isLetter, isUpper, isLower, Bool.or_eq_true, Bool.and_eq_true,
      decide_eq_true_eq, beq_iff_eq] at hdigit hletter
    omega

theorem PrereleaseIdentifier.isNumeric {id : Text} (h : PrereleaseIdentifier id) :
    isNumeric id = id.all isDigit := by
  have hne : id ≠ [] := by
    rcases h with h | ⟨-, c, hc, -⟩
    · exact h.ne_nil
    · exact List.ne_nil_of_mem hc
  rw [Semver.isNumeric, List.isEmpty_eq_false_iff.mpr hne]
  rfl

theorem identifierRank_injective {a b : Text} (ha : PrereleaseIdentifier a)
    (hb : PrereleaseIdentifier b) (h : identifierRank a = identifierRank b) : a = b := by
  unfold identifierRank at h
  split_ifs at h with hda hdb hdb
  · have hvalue : decimal a = decimal b := Sum.inl.inj (toLex.injective h)
    exact (ha.numeric hda).eq_of_decimal (hb.numeric hdb) hvalue
  · cases toLex.injective h
  · cases toLex.injective h
  · exact Sum.inr.inj (toLex.injective h)

theorem prereleaseRank_injective {a b : Option (List Text)}
    (ha : ∀ ids ∈ a, ∀ id ∈ ids, PrereleaseIdentifier id)
    (hb : ∀ ids ∈ b, ∀ id ∈ ids, PrereleaseIdentifier id)
    (h : prereleaseRank a = prereleaseRank b) : a = b := by
  cases a with
  | none =>
      cases b with
      | none => rfl
      | some b => cases h
  | some a =>
      cases b with
      | none => cases h
      | some b =>
          have hmap : a.map identifierRank = b.map identifierRank := WithTop.coe_inj.mp h
          have hidsA := ha a rfl
          have hidsB := hb b rfl
          clear h ha hb
          congr 1
          induction a generalizing b with
          | nil => exact (List.map_eq_nil_iff.mp hmap.symm).symm
          | cons id a ih =>
              cases b with
              | nil => cases hmap
              | cons other b =>
                  rw [List.map_cons, List.map_cons] at hmap
                  obtain ⟨hid, hrest⟩ := List.cons.inj hmap
                  rw [identifierRank_injective (hidsA id List.mem_cons_self)
                    (hidsB other List.mem_cons_self) hid,
                    ih b hrest (fun x hx => hidsA x (List.mem_cons_of_mem _ hx))
                      fun x hx => hidsB x (List.mem_cons_of_mem _ hx)]

/-! ### Three-way comparisons -/

section ThreeWay

variable {α β : Type} [LinearOrder α] [LinearOrder β]

theorem threeWay_congr {a b : α} {c d : β} (hlt : a < b ↔ c < d) (hgt : b < a ↔ d < c) :
    threeWay a b = threeWay c d := by
  simp only [threeWay, hlt, hgt]

theorem threeWay_of_lt {a b : α} (h : a < b) : threeWay a b = -1 := by
  rw [threeWay, if_neg h.not_gt, if_pos h]
  rfl

theorem threeWay_of_gt {a b : α} (h : b < a) : threeWay a b = 1 := by
  rw [threeWay, if_pos h, if_neg h.not_gt]
  rfl

theorem threeWay_self (a : α) : threeWay a a = 0 := by
  rw [threeWay, if_neg (lt_irrefl a)]
  rfl

theorem threeWay_eq_zero {a b : α} : threeWay a b = 0 ↔ a = b := by
  rcases lt_trichotomy a b with h | rfl | h
  · rw [threeWay_of_lt h]
    exact ⟨fun hzero => (by cases hzero), fun heq => absurd heq h.ne⟩
  · exact ⟨fun _ => rfl, fun _ => threeWay_self a⟩
  · rw [threeWay_of_gt h]
    exact ⟨fun hzero => (by cases hzero), fun heq => absurd heq.symm h.ne⟩

theorem threeWay_pos {a b : α} : 0 < threeWay a b ↔ b < a := by
  rcases lt_trichotomy a b with h | rfl | h
  · rw [threeWay_of_lt h]
    exact ⟨fun hpos => by omega, fun hgt => absurd hgt h.not_gt⟩
  · rw [threeWay_self]
    exact ⟨fun hpos => absurd hpos (lt_irrefl 0), fun hgt => absurd hgt (lt_irrefl a)⟩
  · rw [threeWay_of_gt h]
    exact ⟨fun _ => h, fun _ => one_pos⟩

theorem threeWay_nonpos {a b : α} : threeWay a b ≤ 0 ↔ a ≤ b := by
  rw [← not_lt, threeWay_pos, not_lt]

theorem threeWay_swap (a b : α) : threeWay b a = -threeWay a b := by
  unfold threeWay
  ring

theorem threeWay_prod (a c : α) (b d : β) :
    threeWay (toLex (a, b)) (toLex (c, d)) = if a ≠ c then threeWay a c else threeWay b d := by
  split_ifs with h
  · refine threeWay_congr ?_ ?_
    · rw [Prod.Lex.toLex_lt_toLex]
      exact ⟨fun hor => hor.resolve_right fun heq => h heq.1, Or.inl⟩
    · rw [Prod.Lex.toLex_lt_toLex]
      exact ⟨fun hor => hor.resolve_right fun heq => h heq.1.symm, Or.inl⟩
  · rw [not_not] at h
    rw [h]
    refine threeWay_congr ?_ ?_ <;> simp [Prod.Lex.toLex_lt_toLex]

theorem threeWay_cons (a b : α) (l m : List α) :
    threeWay (a :: l) (b :: m) = if a = b then threeWay l m else threeWay a b := by
  split_ifs with h
  · rw [h]
    refine threeWay_congr ?_ ?_ <;> simp [List.cons_lt_cons_iff]
  · refine threeWay_congr ?_ ?_
    · rw [List.cons_lt_cons_iff]
      exact ⟨fun hor => hor.resolve_right fun heq => h heq.1, Or.inl⟩
    · rw [List.cons_lt_cons_iff]
      exact ⟨fun hor => hor.resolve_right fun heq => h heq.1.symm, Or.inl⟩

end ThreeWay

/-! ### The comparison is the precedence -/

theorem compareIds_eq {left right : Text} (hleft : PrereleaseIdentifier left)
    (hright : PrereleaseIdentifier right) (hne : left ≠ right) :
    compareIds left right = some (threeWay (identifierRank left) (identifierRank right)) := by
  rw [compareIds, if_neg hne, hleft.isNumeric, hright.isNumeric]
  unfold identifierRank
  cases hl : left.all isDigit with
  | true =>
      cases hr : right.all isDigit with
      | true =>
          simp only [and_self, if_true]
          exact congrArg some (threeWay_congr Sum.Lex.inl_lt_inl_iff.symm
            Sum.Lex.inl_lt_inl_iff.symm)
      | false =>
          exact congrArg some (threeWay_of_lt (Sum.Lex.inl_lt_inr _ _)).symm
  | false =>
      cases hr : right.all isDigit with
      | true =>
          exact congrArg some (threeWay_of_gt (Sum.Lex.inl_lt_inr _ _)).symm
      | false =>
          exact congrArg some (threeWay_congr Sum.Lex.inr_lt_inr_iff.symm
            Sum.Lex.inr_lt_inr_iff.symm)

/-- The loop over the pairs, and the lengths behind it, are the lexicographic order. -/
theorem comparePre_eq {left right : List Text}
    (hleft : ∀ id ∈ left, PrereleaseIdentifier id)
    (hright : ∀ id ∈ right, PrereleaseIdentifier id) :
    comparePre left right =
      threeWay (left.map identifierRank) (right.map identifierRank) := by
  induction left generalizing right with
  | nil =>
      cases right with
      | nil => exact (threeWay_self _).trans (threeWay_self _).symm
      | cons other right =>
          have hlength : threeWay ([] : List Text).length (other :: right).length = -1 :=
            threeWay_of_lt (Nat.succ_pos _)
          have hlists : threeWay [] ((other :: right).map identifierRank) = -1 :=
            threeWay_of_lt (List.nil_lt_cons _ _)
          exact hlength.trans hlists.symm
  | cons id left ih =>
      cases right with
      | nil =>
          have hlength : threeWay (id :: left).length ([] : List Text).length = 1 :=
            threeWay_of_gt (Nat.succ_pos _)
          have hlists : threeWay ((id :: left).map identifierRank) [] = 1 :=
            threeWay_of_gt (List.nil_lt_cons _ _)
          exact hlength.trans hlists.symm
      | cons other right =>
          have hid := hleft id List.mem_cons_self
          have hother := hright other List.mem_cons_self
          have hrest := ih (fun x hx => hleft x (List.mem_cons_of_mem _ hx))
            (fun x hx => hright x (List.mem_cons_of_mem _ hx))
          rw [List.map_cons, List.map_cons, threeWay_cons]
          unfold comparePre at hrest ⊢
          rw [List.zip_cons_cons, List.findSome?_cons]
          by_cases heq : id = other
          · rw [if_pos (congrArg identifierRank heq), ← hrest, compareIds, if_pos heq]
            dsimp only
            congr 1
            refine threeWay_congr ?_ ?_ <;> simp
          · rw [if_neg (fun h => heq (identifierRank_injective hid hother h)),
              compareIds_eq hid hother heq]
            rfl

theorem compare_text (left right : Version) :
    compare left.text right.text = .ok (threeWay left.precedence right.precedence) := by
  have hbelow : ∀ ids : List Text, prereleaseRank (some ids) < prereleaseRank none :=
    fun ids => WithTop.coe_lt_top _
  unfold compare
  rw [left.parse_text, right.parse_text, Version.precedence, Version.precedence, threeWay_prod]
  dsimp only [bind, Except.bind, pure, Except.pure]
  by_cases hcore : left.core ≠ right.core
  · rw [if_pos hcore, if_pos hcore]
  · rw [if_neg hcore, if_neg hcore]
    cases hl : left.prerelease with
    | none =>
        cases hr : right.prerelease with
        | none => exact congrArg _ (threeWay_self (prereleaseRank none)).symm
        | some rightPre => exact congrArg _ (threeWay_of_gt (hbelow rightPre)).symm
    | some leftPre =>
        cases hr : right.prerelease with
        | none => exact congrArg _ (threeWay_of_lt (hbelow leftPre)).symm
        | some rightPre =>
            dsimp only
            rw [comparePre_eq (left.prerelease_identifiers leftPre hl)
              (right.prerelease_identifiers rightPre hr)]
            exact congrArg _ (threeWay_congr WithTop.coe_lt_coe.symm WithTop.coe_lt_coe.symm)

theorem Version.precedence_injective {v w : Version} (h : v.precedence = w.precedence) :
    v.released = w.released := by
  have hparts := toLex.injective h
  have hcore := toLex.injective (Prod.ext_iff.mp hparts).1
  have hmajor := (Prod.ext_iff.mp hcore).1
  have hminors := toLex.injective (Prod.ext_iff.mp hcore).2
  refine Version.ext ?_ ?_ ?_ ?_ rfl
  · exact v.major_numeric.eq_of_decimal w.major_numeric hmajor
  · exact v.minor_numeric.eq_of_decimal w.minor_numeric (Prod.ext_iff.mp hminors).1
  · exact v.patch_numeric.eq_of_decimal w.patch_numeric (Prod.ext_iff.mp hminors).2
  · exact prereleaseRank_injective v.prerelease_identifiers w.prerelease_identifiers
      (Prod.ext_iff.mp hparts).2

theorem Version.precedence_released (v : Version) : v.released.precedence = v.precedence := rfl

/-- What a comparison was about and what it says. -/
theorem compare_eq_ok {left right : Text} {order : ℤ} (h : compare left right = .ok order) :
    ∃ v w : Version, v.text = left ∧ w.text = right ∧
      order = threeWay v.precedence w.precedence := by
  obtain ⟨v, rfl⟩ : ∃ v : Version, v.text = left := by
    unfold compare at h
    cases hleft : parse left with
    | error failure => rw [hleft] at h; cases h
    | ok result => exact parse_eq_ok hleft
  obtain ⟨w, rfl⟩ : ∃ w : Version, w.text = right := by
    unfold compare at h
    rw [v.parse_text] at h
    cases hright : parse right with
    | error failure => rw [hright] at h; cases h
    | ok result => exact parse_eq_ok hright
  rw [compare_text] at h
  exact ⟨v, w, rfl, rfl, (Except.ok.inj h).symm⟩

theorem validate_eq_zero {value : Text} : validate value = 0 ↔ ∃ v : Version, v.text = value := by
  unfold validate
  constructor
  · intro h
    split at h
    · next result hparse => exact parse_eq_ok hparse
    · cases h
  · rintro ⟨v, rfl⟩
    rw [v.parse_text]

theorem newer_eq_zero {candidate current : Text} : newer candidate current = 0 ↔
    ∃ v w : Version, v.text = candidate ∧ w.text = current ∧ w.precedence < v.precedence := by
  unfold newer
  constructor
  · intro h
    split at h
    · next order hcompare =>
        obtain ⟨v, w, hv, hw, rfl⟩ := compare_eq_ok hcompare
        split_ifs at h with hpos
        exact ⟨v, w, hv, hw, threeWay_pos.mp hpos⟩
    · cases h
  · rintro ⟨v, w, rfl, rfl, hlt⟩
    rw [compare_text]
    exact if_pos (threeWay_pos.mpr hlt)

/-- An update from one version to a newer one. -/
def Update (current candidate : Text) : Prop := newer candidate current = 0

theorem precedence_lt_of_updates {current candidate : Text}
    (h : Relation.TransGen Update current candidate) :
    ∃ v w : Version, v.text = current ∧ w.text = candidate ∧ v.precedence < w.precedence := by
  induction h with
  | single hstep =>
      obtain ⟨w, v, hw, hv, hlt⟩ := newer_eq_zero.mp hstep
      exact ⟨v, w, hv, hw, hlt⟩
  | tail hchain hstep ih =>
      obtain ⟨v, w, hv, hw, hlt⟩ := ih
      obtain ⟨x, w', hx, hw', hlt'⟩ := newer_eq_zero.mp hstep
      obtain rfl : w = w' := Version.text_injective (hw.trans hw'.symm)
      exact ⟨v, x, hv, hx, hlt.trans hlt'⟩

/-- `validate` accepts what the grammar writes, `compare` is the precedence of what it
accepts, a total preorder whose ties differ in build metadata only, and updates
never lead back. -/
theorem compare_is_precedence :
    (∀ value, validate value = 0 ↔ ∃ v : Version, v.text = value) ∧
    (∀ left right : Version,
      compare left.text right.text = .ok (threeWay left.precedence right.precedence)) ∧
    (∀ left right : Version,
      compare left.text right.text = .ok 0 ↔ left.released = right.released) ∧
    (∀ left right order, compare left right = .ok order → compare right left = .ok (-order)) ∧
    (∀ a b c x y, compare a b = .ok x → compare b c = .ok y → x ≤ 0 → y ≤ 0 →
      ∃ z ≤ 0, compare a c = .ok z) ∧
    (∀ a b c, newer a b = 0 → newer b c = 0 → newer a c = 0) ∧
    ∀ value, ¬ Relation.TransGen Update value value := by
  refine ⟨fun value => validate_eq_zero, compare_text, ?_, ?_, ?_, ?_, ?_⟩
  · intro left right
    rw [compare_text, Except.ok.injEq, threeWay_eq_zero]
    refine ⟨Version.precedence_injective, fun h => ?_⟩
    rw [← left.precedence_released, h, right.precedence_released]
  · intro left right order h
    obtain ⟨v, w, rfl, rfl, rfl⟩ := compare_eq_ok h
    rw [compare_text, threeWay_swap]
  · intro a b c x y hx hy hxle hyle
    obtain ⟨u, v, rfl, rfl, rfl⟩ := compare_eq_ok hx
    obtain ⟨v', w, hv, rfl, rfl⟩ := compare_eq_ok hy
    obtain rfl : v' = v := Version.text_injective hv
    have hle := (threeWay_nonpos.mp hxle).trans (threeWay_nonpos.mp hyle)
    exact ⟨_, threeWay_nonpos.mpr hle, compare_text u w⟩
  · intro a b c hab hbc
    obtain ⟨u, v, rfl, rfl, hlt⟩ := newer_eq_zero.mp hab
    obtain ⟨v', w, hv, rfl, hlt'⟩ := newer_eq_zero.mp hbc
    obtain rfl : v' = v := Version.text_injective hv
    exact newer_eq_zero.mpr ⟨u, w, rfl, rfl, hlt'.trans hlt⟩
  · intro value h
    obtain ⟨v, w, hv, hw, hlt⟩ := precedence_lt_of_updates h
    obtain rfl : v = w := Version.text_injective (hv.trans hw.symm)
    exact lt_irrefl _ hlt

example : newer (ascii "1.0.0") (ascii "1.0.0-rc.10") = 0 := by decide +kernel

example : newer (ascii "1.0.0-rc.2") (ascii "1.0.0-rc.10+7") = 1 := by decide +kernel

end Semver

end CybexOS
