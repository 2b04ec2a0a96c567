/-
Regular expressions with alternatives, repetition and groups: all the ways in
which a backtracking matcher reads a text, and the readings they stand for.
-/
import CybexOS.Text

namespace CybexOS

/-- A regular expression over code units. -/
inductive Pattern where
  | unit (allowed : ℕ → Bool)
  | nothing
  | seq (first second : Pattern)
  | alt (first second : Pattern)
  | star (repeated : Pattern)
  | group (index : ℕ) (inner : Pattern)

namespace Pattern

/-- What the groups took, in the order in which they were closed. -/
abbrev Captures := List (ℕ × Text)

/-- Further rounds before none, each of which takes something. -/
def again (step : Text → List (Captures × Text)) : ℕ → Text → List (Captures × Text)
  | 0, text => [([], text)]
  | fuel + 1, text =>
      (((step text).filter (·.2.length < text.length)).flatMap fun way =>
        (again step fuel way.2).map fun more => (way.1 ++ more.1, more.2)) ++ [([], text)]

/-- The ways to read a beginning of the text, in the order of the attempts, each
with what it leaves. -/
def ways : Pattern → Text → List (Captures × Text)
  | unit _, [] => []
  | unit allowed, c :: rest => if allowed c then [([], rest)] else []
  | nothing, text => [([], text)]
  | seq first second, text =>
      (ways first text).flatMap fun way =>
        (ways second way.2).map fun more => (way.1 ++ more.1, more.2)
  | alt first second, text => ways first text ++ ways second text
  | star repeated, text => again (ways repeated) text.length text
  | group index inner, text =>
      (ways inner text).map fun way =>
        (way.1 ++ [(index, text.take (text.length - way.2.length))], way.2)

/-- `fullmatch`. -/
def fullmatch (pattern : Pattern) (text : Text) : Option Captures :=
  ((ways pattern text).find? (·.2.isEmpty)).map (·.1)

/-- `match.group(index)`, the last text that the group took. -/
def captured (index : ℕ) (captures : Captures) : Option Text := captures.reverse.lookup index

/-- `pattern+` -/
def plus (repeated : Pattern) : Pattern := seq repeated (star repeated)

/-- `(?:pattern)?` -/
def optional (inner : Pattern) : Pattern := alt inner nothing

/-- One unit of a text. -/
def char (c : ℕ) : Pattern := unit (· == c)

/-- The expression reads the whole text with these groups. -/
def Reads : Pattern → Text → Captures → Prop
  | unit allowed, text, captures => ∃ c, allowed c = true ∧ text = [c] ∧ captures = []
  | nothing, text, captures => text = [] ∧ captures = []
  | seq first second, text, captures =>
      ∃ s t cs ds, text = s ++ t ∧ captures = cs ++ ds ∧ Reads first s cs ∧ Reads second t ds
  | alt first second, text, captures => Reads first text captures ∨ Reads second text captures
  | star repeated, text, captures =>
      ∃ rounds : List (Text × Captures), text = (rounds.map (·.1)).flatten ∧
        captures = (rounds.map (·.2)).flatten ∧
        ∀ round ∈ rounds, round.1 ≠ [] ∧ Reads repeated round.1 round.2
  | group index inner, text, captures =>
      ∃ cs, captures = cs ++ [(index, text)] ∧ Reads inner text cs

/-! ### The ways are the readings of beginnings -/

/-- Each way of a step is a reading of what it takes. -/
def Step (step : Text → List (Captures × Text)) (reads : Text → Captures → Prop) : Prop :=
  ∀ text captures rest, (captures, rest) ∈ step text ↔ ∃ s, text = s ++ rest ∧ reads s captures

theorem mem_again {step : Text → List (Captures × Text)} {reads : Text → Captures → Prop}
    (hstep : Step step reads) {fuel : ℕ} {text rest : Text} {captures : Captures}
    (hfuel : text.length ≤ fuel) :
    (captures, rest) ∈ again step fuel text ↔
      ∃ rounds : List (Text × Captures), text = (rounds.map (·.1)).flatten ++ rest ∧
        captures = (rounds.map (·.2)).flatten ∧
        ∀ round ∈ rounds, round.1 ≠ [] ∧ reads round.1 round.2 := by
  induction fuel generalizing text captures with
  | zero =>
      obtain rfl : text = [] := List.length_eq_zero_iff.mp (Nat.le_zero.mp hfuel)
      constructor
      · intro h
        cases List.mem_singleton.mp h
        exact ⟨[], rfl, rfl, by simp⟩
      · rintro ⟨rounds, htext, rfl, hrounds⟩
        cases rounds with
        | nil =>
            cases htext
            exact List.mem_singleton_self _
        | cons round rounds =>
            have hne := (hrounds round List.mem_cons_self).1
            simp [hne] at htext
  | succ fuel ih =>
      rw [again, List.mem_append, List.mem_flatMap]
      constructor
      · rintro (⟨way, hway, hrest⟩ | hnone)
        · obtain ⟨hway, hshort⟩ := List.mem_filter.mp hway
          obtain ⟨more, hmore, heq⟩ := List.mem_map.mp hrest
          obtain ⟨s, htext, hreads⟩ := (hstep text way.1 way.2).mp hway
          have hshort : way.2.length < text.length := of_decide_eq_true hshort
          have hless : way.2.length ≤ fuel := by omega
          cases heq
          obtain ⟨rounds, hrest, hcaptures, hrounds⟩ := (ih hless).mp hmore
          refine ⟨(s, way.1) :: rounds, ?_, ?_, ?_⟩
          · rw [htext, hrest, List.map_cons, List.flatten_cons, List.append_assoc]
          · rw [hcaptures, List.map_cons, List.flatten_cons]
          · intro round hround
            rcases List.mem_cons.mp hround with rfl | hround
            · refine ⟨?_, hreads⟩
              rintro rfl
              rw [htext] at hshort
              exact Nat.lt_irrefl _ hshort
            · exact hrounds round hround
        · cases List.mem_singleton.mp hnone
          exact ⟨[], rfl, rfl, by simp⟩
      · rintro ⟨rounds, htext, rfl, hrounds⟩
        cases rounds with
        | nil =>
            cases htext
            exact Or.inr (List.mem_singleton_self _)
        | cons round rounds =>
            obtain ⟨hne, hreads⟩ := hrounds round List.mem_cons_self
            rw [List.map_cons, List.flatten_cons, List.append_assoc] at htext
            have hpos : 0 < round.1.length := List.length_pos_iff.mpr hne
            have hlength := congrArg List.length htext
            rw [List.length_append] at hlength
            have hshort : ((rounds.map (·.1)).flatten ++ rest).length < text.length := by omega
            have hless : ((rounds.map (·.1)).flatten ++ rest).length ≤ fuel := by omega
            refine Or.inl ⟨(round.2, (rounds.map (·.1)).flatten ++ rest), ?_, ?_⟩
            · exact List.mem_filter.mpr
                ⟨(hstep _ _ _).mpr ⟨round.1, htext, hreads⟩, decide_eq_true hshort⟩
            · refine List.mem_map.mpr ⟨((rounds.map (·.2)).flatten, rest), ?_, rfl⟩
              rw [ih hless]
              exact ⟨rounds, rfl, rfl, fun other h => hrounds other (List.mem_cons_of_mem _ h)⟩

theorem mem_ways (pattern : Pattern) : Step (ways pattern) (Reads pattern) := by
  intro text captures rest
  induction pattern generalizing text captures rest with
  | unit allowed =>
      cases text with
      | nil => simp [ways, Reads]
      | cons c text =>
          rw [ways]
          constructor
          · intro h
            split_ifs at h with hc
            · cases List.mem_singleton.mp h
              exact ⟨[c], rfl, c, hc, rfl, rfl⟩
            · cases h
          · rintro ⟨s, htext, d, hd, rfl, rfl⟩
            cases htext
            rw [if_pos hd]
            exact List.mem_singleton_self _
  | nothing =>
      constructor
      · intro h
        cases List.mem_singleton.mp h
        exact ⟨[], rfl, rfl, rfl⟩
      · rintro ⟨s, rfl, rfl, rfl⟩
        exact List.mem_singleton_self _
  | seq first second ihFirst ihSecond =>
      rw [ways, List.mem_flatMap]
      constructor
      · rintro ⟨way, hway, hmore⟩
        obtain ⟨more, hmore, heq⟩ := List.mem_map.mp hmore
        obtain ⟨s, hs, hfirst⟩ := (ihFirst text way.1 way.2).mp hway
        obtain ⟨t, ht, hsecond⟩ := (ihSecond way.2 more.1 more.2).mp hmore
        cases heq
        refine ⟨s ++ t, ?_, s, t, _, _, rfl, rfl, hfirst, hsecond⟩
        rw [hs, ht, List.append_assoc]
      · rintro ⟨_, htext, s, t, cs, ds, rfl, rfl, hfirst, hsecond⟩
        rw [List.append_assoc] at htext
        refine ⟨(cs, t ++ rest), (ihFirst _ _ _).mpr ⟨s, htext, hfirst⟩, ?_⟩
        exact List.mem_map.mpr ⟨(ds, rest), (ihSecond _ _ _).mpr ⟨t, rfl, hsecond⟩, rfl⟩
  | alt first second ihFirst ihSecond =>
      rw [ways, List.mem_append, ihFirst, ihSecond, ← exists_or]
      simp only [Reads, and_or_left]
  | star repeated ih =>
      rw [ways, mem_again (fun t c r => ih t c r) le_rfl]
      constructor
      · rintro ⟨rounds, htext, hrounds⟩
        exact ⟨_, htext, rounds, rfl, hrounds⟩
      · rintro ⟨_, htext, rounds, rfl, hrounds⟩
        exact ⟨rounds, htext, hrounds⟩
  | group index inner ih =>
      have htake : ∀ s : Text, (s ++ rest).take ((s ++ rest).length - rest.length) = s := by
        intro s
        rw [List.length_append, Nat.add_sub_cancel, List.take_left]
      rw [ways, List.mem_map]
      constructor
      · rintro ⟨way, hway, heq⟩
        obtain ⟨s, rfl, hreads⟩ := (ih text way.1 way.2).mp hway
        cases heq
        exact ⟨s, rfl, way.1, by rw [htake], hreads⟩
      · rintro ⟨s, rfl, cs, rfl, hreads⟩
        refine ⟨(cs, rest), (ih _ _ _).mpr ⟨s, rfl, hreads⟩, ?_⟩
        rw [htake]

theorem reads_of_fullmatch {pattern : Pattern} {text : Text} {captures : Captures}
    (h : fullmatch pattern text = some captures) : Reads pattern text captures := by
  obtain ⟨way, hfind, rfl⟩ := Option.map_eq_some_iff.mp h
  obtain ⟨s, htext, hreads⟩ :=
    (mem_ways pattern text way.1 way.2).mp (List.mem_of_find?_eq_some hfind)
  have hempty : way.2.isEmpty = true :=
    @List.find?_some _ (fun way : Captures × Text => way.2.isEmpty) _ _ hfind
  rw [List.isEmpty_iff.mp hempty, List.append_nil] at htext
  rwa [htext]

/-- What can be read is matched, perhaps with other groups. -/
theorem fullmatch_of_reads {pattern : Pattern} {text : Text} {captures : Captures}
    (h : Reads pattern text captures) : ∃ found, fullmatch pattern text = some found := by
  have hway := (mem_ways pattern text captures []).mpr ⟨text, (List.append_nil _).symm, h⟩
  have hsome : ((ways pattern text).find? (·.2.isEmpty)).isSome = true :=
    List.find?_isSome.mpr ⟨_, hway, rfl⟩
  obtain ⟨way, hfind⟩ := Option.isSome_iff_exists.mp hsome
  exact ⟨way.1, by rw [fullmatch, hfind]; rfl⟩

/-! ### Readings of the common forms -/

theorem reads_char {c : ℕ} {text : Text} {captures : Captures} :
    Reads (char c) text captures ↔ text = [c] ∧ captures = [] := by
  simp [char, Reads]

theorem reads_optional {inner : Pattern} {text : Text} {captures : Captures} :
    Reads (optional inner) text captures ↔
      Reads inner text captures ∨ text = [] ∧ captures = [] := Iff.rfl

/-- Units of one kind, as many as there are. -/
theorem reads_star_unit {allowed : ℕ → Bool} {text : Text} {captures : Captures} :
    Reads (star (unit allowed)) text captures ↔ text.all allowed = true ∧ captures = [] := by
  constructor
  · rintro ⟨rounds, rfl, rfl, hrounds⟩
    induction rounds with
    | nil => exact ⟨rfl, rfl⟩
    | cons round rounds ih =>
        obtain ⟨-, c, hc, hunit, hnone⟩ := hrounds round List.mem_cons_self
        obtain ⟨hall, hcaptures⟩ := ih fun other h => hrounds other (List.mem_cons_of_mem _ h)
        rw [List.map_cons, List.flatten_cons, List.map_cons, List.flatten_cons, hcaptures, hunit,
          hnone]
        exact ⟨by simp [hc, hall], rfl⟩
  · rintro ⟨hall, rfl⟩
    refine ⟨text.map fun c => ([c], []), ?_, ?_, ?_⟩
    · rw [List.map_map, ← List.flatMap_def]
      exact List.flatMap_singleton' text |>.symm
    · simp [List.map_map, Function.comp_def]
    · intro round hround
      obtain ⟨c, hc, rfl⟩ := List.mem_map.mp hround
      exact ⟨by simp, c, List.all_eq_true.mp hall c hc, rfl, rfl⟩

theorem reads_plus_unit {allowed : ℕ → Bool} {text : Text} {captures : Captures} :
    Reads (plus (unit allowed)) text captures ↔
      text ≠ [] ∧ text.all allowed = true ∧ captures = [] := by
  constructor
  · rintro ⟨s, t, cs, ds, rfl, rfl, ⟨c, hc, rfl, rfl⟩, hrest⟩
    obtain ⟨hall, rfl⟩ := reads_star_unit.mp hrest
    exact ⟨by simp, by simp [hc, hall], rfl⟩
  · rintro ⟨hne, hall, rfl⟩
    obtain ⟨c, text, rfl⟩ := List.exists_cons_of_ne_nil hne
    rw [List.all_cons, Bool.and_eq_true] at hall
    exact ⟨[c], text, [], [], rfl, rfl, ⟨c, hall.1, rfl, rfl⟩, reads_star_unit.mpr ⟨hall.2, rfl⟩⟩

/-- Items with separators between them. -/
def separated (mark : ℕ) (item : Pattern) : Pattern := seq item (star (seq (char mark) item))

theorem reads_separated {mark : ℕ} {item : Pattern} {good : Text → Prop}
    (hitem : ∀ text captures, Reads item text captures ↔ good text ∧ captures = [])
    {text : Text} {captures : Captures} :
    Reads (separated mark item) text captures ↔
      captures = [] ∧ ∃ pieces : List Text, pieces ≠ [] ∧ (∀ piece ∈ pieces, good piece) ∧
        text = List.intercalate [mark] pieces := by
  constructor
  · rintro ⟨s, _, _, _, rfl, rfl, hfirst, rounds, rfl, rfl, hrounds⟩
    obtain ⟨hgood, rfl⟩ := (hitem _ _).mp hfirst
    rw [List.nil_append]
    induction rounds generalizing s with
    | nil => exact ⟨rfl, [s], by simp, by simpa using hgood, by simp⟩
    | cons round rounds ih =>
        obtain ⟨-, u, v, us, vs, hround, hcaptures, hmark, hnext⟩ := hrounds round List.mem_cons_self
        obtain ⟨rfl, rfl⟩ := reads_char.mp hmark
        obtain ⟨hv, rfl⟩ := (hitem _ _).mp hnext
        obtain ⟨hnone, pieces, hne, hpieces, htext⟩ :=
          ih v (fun other h => hrounds other (List.mem_cons_of_mem _ h)) hv hnext
        refine ⟨?_, s :: pieces, by simp, ?_, ?_⟩
        · rw [List.map_cons, List.flatten_cons, hnone, hcaptures]
          rfl
        · intro piece hpiece
          rcases List.mem_cons.mp hpiece with rfl | hpiece
          · exact hgood
          · exact hpieces piece hpiece
        · obtain ⟨next, others, rfl⟩ := List.exists_cons_of_ne_nil hne
          rw [List.intercalate_cons_cons, ← htext, List.map_cons, List.flatten_cons, hround]
          simp
  · rintro ⟨rfl, pieces, hne, hpieces, rfl⟩
    obtain ⟨first, others, rfl⟩ := List.exists_cons_of_ne_nil hne
    have hfirst := (hitem first []).mpr ⟨hpieces first List.mem_cons_self, rfl⟩
    refine ⟨first, (others.map (mark :: ·)).flatten, [], [], ?_, rfl, hfirst,
      others.map fun piece => (mark :: piece, []), ?_, ?_, ?_⟩
    · clear hfirst hpieces hne
      induction others generalizing first with
      | nil => simp
      | cons next others ih =>
          rw [List.intercalate_cons_cons, ih, List.map_cons, List.flatten_cons]
          simp
    · simp [List.map_map, Function.comp_def]
    · simp [List.map_map, Function.comp_def]
    · intro round hround
      obtain ⟨piece, hpiece, rfl⟩ := List.mem_map.mp hround
      have hgood := hpieces piece (List.mem_cons_of_mem _ hpiece)
      exact ⟨by simp, [mark], piece, [], [], rfl, rfl, reads_char.mpr ⟨rfl, rfl⟩,
        (hitem _ _).mpr ⟨hgood, rfl⟩⟩

end Pattern

end CybexOS
