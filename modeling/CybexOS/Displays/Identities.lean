/-
Whether a display's key finds the display again: `monitorKey` against
`keyMatches`.
-/
import CybexOS.Displays.SavedDocument

namespace CybexOS

namespace Displays

/-! ### Prefixes by code units -/

theorem unitsOf_append (s t : Text) : unitsOf (s ++ t) = unitsOf s ++ unitsOf t :=
  List.flatMap_append

/-- The units of white space are its code points. -/
theorem unitsOf_spaces {s : Text} (h : ∀ c ∈ s, isJsSpace c = true) : unitsOf s = s := by
  induction s with
  | nil => rfl
  | cons c s ih =>
      have hc : c < 0x10000 := by
        have hspace := h c List.mem_cons_self
        simp only [isJsSpace, Bool.or_eq_true, Bool.and_eq_true, decide_eq_true_eq,
          beq_iff_eq] at hspace
        omega
      rw [← List.singleton_append, unitsOf_append, ih fun d hd => h d (List.mem_cons_of_mem _ hd)]
      simp [unitsOf, hc]

theorem surrogate_not_space {unit : Nat} (hlow : 0xd800 ≤ unit) (hhigh : unit < 0xe000) :
    isJsSpace unit = false := by
  rw [← Bool.not_eq_true]
  simp only [isJsSpace, Bool.or_eq_true, Bool.and_eq_true, decide_eq_true_eq, beq_iff_eq]
  omega

/-- A text of code points that does not start with white space starts with no
unit of white space. -/
theorem head_unitsOf {s : Text} (hpoints : ∀ c ∈ s, c < 0x110000)
    (hhead : ∀ c ∈ s.head?, isJsSpace c = false) :
    ∀ unit ∈ (unitsOf s).head?, isJsSpace unit = false := by
  cases s with
  | nil => exact fun _ h => (by cases h)
  | cons c s =>
      have hc : c < 0x110000 := hpoints c List.mem_cons_self
      intro unit hunit
      rw [← List.singleton_append, unitsOf_append] at hunit
      by_cases hplane : c < 0x10000
      · have heq : unit = c := by simpa [unitsOf, hplane, eq_comm] using hunit
        exact heq ▸ hhead c rfl
      · have heq : unit = 0xd800 + (c - 0x10000) / 1024 := by
          simpa [unitsOf, hplane, eq_comm] using hunit
        exact surrogate_not_space (by omega) (by omega)

theorem getLast_unitsOf {s : Text} (hlast : ∀ c ∈ s.getLast?, isJsSpace c = false) :
    ∀ unit ∈ (unitsOf s).getLast?, isJsSpace unit = false := by
  rcases List.eq_nil_or_concat s with rfl | ⟨before, c, rfl⟩
  · exact fun _ h => (by cases h)
  · intro unit hunit
    rw [List.concat_eq_append] at hlast hunit
    rw [unitsOf_append] at hunit
    by_cases hplane : c < 0x10000
    · have heq : unit = c := by simpa [unitsOf, hplane, eq_comm] using hunit
      exact heq ▸ hlast c (by simp)
    · have heq : unit = 0xdc00 + (c - 0x10000) % 1024 := by
        simpa [unitsOf, hplane, eq_comm] using hunit
      exact surrogate_not_space (by omega) (by omega)

theorem unitsOf_ne_nil {s : Text} (h : s ≠ []) : unitsOf s ≠ [] := by
  cases s with
  | nil => exact absurd rfl h
  | cons c s =>
      unfold unitsOf
      rw [List.flatMap_cons]
      split_ifs <;> simp

theorem startsWith_iff {text start : Text} :
    startsWith text start = true ↔ unitsOf start <+: unitsOf text := List.isPrefixOf_iff_prefix

/-- White space at the start of a text. -/
def isPadded (text : Text) : Bool := text.head?.any isJsSpace

theorem isPadded_eq_false {text : Text} :
    isPadded text = false ↔ ∀ c ∈ text.head?, isJsSpace c = false := by
  cases text with
  | nil => simp [isPadded]
  | cons c text => simp [isPadded]

theorem startsWith_trimmed {text : Text} (h : isPadded text = false) :
    startsWith text (jsTrim text) = true := by
  rw [startsWith_iff, jsTrim, trimWith, dropWhile_eq_self_of_head (isPadded_eq_false.mp h)]
  obtain ⟨rest, hrest⟩ := List.rdropWhile_prefix isJsSpace text
  exact ⟨unitsOf rest, by rw [← unitsOf_append, hrest]⟩

/-- A padded text starts with no unpadded one. -/
theorem not_startsWith_of_padded {text start : Text} (hpadded : isPadded text = true)
    (hpoints : ∀ c ∈ start, c < 0x110000) (hstart : isPadded start = false) (hne : start ≠ []) :
    startsWith text start = false := by
  rw [← Bool.not_eq_true, startsWith_iff]
  intro hfirstUnit
  cases text with
  | nil => cases hpadded
  | cons c text =>
      have hspace : isJsSpace c = true := by simpa [isPadded] using hpadded
      have hfirst : unitsOf (c :: text) = c :: unitsOf text := by
        rw [← List.singleton_append, unitsOf_append,
          unitsOf_spaces fun d hd => List.mem_singleton.mp hd ▸ hspace, List.singleton_append]
      obtain ⟨unit, units, hunits⟩ := List.exists_cons_of_ne_nil (unitsOf_ne_nil hne)
      have hunit := head_unitsOf hpoints (isPadded_eq_false.mp hstart) unit (by rw [hunits]; rfl)
      rw [hunits, hfirst, List.cons_prefix_cons] at hfirstUnit
      rw [hfirstUnit.1, hspace] at hunit
      cases hunit

/-- What a text starts with, its trimmed form starts with, as long as that is
not padded itself. -/
theorem startsWith_jsTrim {text start : Text} (hpoints : ∀ c ∈ start, c < 0x110000)
    (hstart : isPadded start = false) (hlast : ∀ c ∈ start.getLast?, isJsSpace c = false)
    (hne : start ≠ []) (h : startsWith text start = true) :
    startsWith (jsTrim text) start = true := by
  have hunpadded : isPadded text = false := by
    by_contra hpadded
    rw [Bool.not_eq_false] at hpadded
    rw [not_startsWith_of_padded hpadded hpoints hstart hne] at h
    cases h
  rw [startsWith_iff] at h ⊢
  rw [jsTrim, trimWith, dropWhile_eq_self_of_head (isPadded_eq_false.mp hunpadded)]
  have hsplit : unitsOf text = unitsOf (text.rdropWhile isJsSpace) ++ text.rtakeWhile isJsSpace := by
    rw [← unitsOf_spaces fun c hc => List.mem_rtakeWhile_imp hc, ← unitsOf_append,
      List.rdropWhile_append_rtakeWhile]
  rw [hsplit] at h
  have hwhole : unitsOf (text.rdropWhile isJsSpace) <+:
      unitsOf (text.rdropWhile isJsSpace) ++ text.rtakeWhile isJsSpace :=
    ( List.prefix_append _ _)
  rcases List.prefix_or_prefix_of_prefix h hwhole with hshort | ⟨rest, hrest⟩
  · exact hshort
  · rw [← hrest] at h ⊢
    have hspaces : rest <+: text.rtakeWhile isJsSpace := (List.prefix_append_right_inj _).mp h
    rcases List.eq_nil_or_concat rest with rfl | ⟨before, unit, rfl⟩
    · rw [List.append_nil]
    · have hspace : isJsSpace unit = true :=
        List.mem_rtakeWhile_imp (hspaces.subset (by simp))
      have hunit := getLast_unitsOf hlast unit (by rw [← hrest]; simp)
      rw [hspace] at hunit
      cases hunit

/-! ### Keys -/

/-- `keyMatches` -/
def keyMatches (key : Text) (monitor : Monitor) : Bool :=
  if startsWith key (ascii "desc:") then
    let start := jsTrim (key.drop 5)
    start ≠ [] && startsWith monitor.description start
  else key == monitor.name

/-- The description is the key. -/
def isDescribed (monitor : Monitor) (monitors : List Monitor) : Bool :=
  jsTrim monitor.description ≠ [] && !hasControl (jsTrim monitor.description) &&
    (unitsOf (jsTrim monitor.description)).length ≤ 256 && !clashes monitor monitors

/-- Every key finds its display and no other one, and no two displays share
one. -/
structure KeysIdentify (monitors : List Monitor) : Prop where
  own : ∀ monitor ∈ monitors, keyMatches (monitorKey monitor monitors) monitor = true
  others : ∀ monitor ∈ monitors, ∀ other ∈ monitors, other ≠ monitor →
    keyMatches (monitorKey monitor monitors) other = false
  distinct : ∀ monitor ∈ monitors, ∀ other ∈ monitors, other ≠ monitor →
    monitorKey other monitors ≠ monitorKey monitor monitors

section

variable {monitors : List Monitor} {monitor other : Monitor}

theorem monitorKey_described (h : isDescribed monitor monitors = true) :
    monitorKey monitor monitors = ascii "desc:" ++ jsTrim monitor.description := by
  simp only [isDescribed, Bool.and_eq_true, decide_eq_true_eq] at h
  exact if_pos ⟨h.1.1.1, h.1.1.2, h.1.2, h.2⟩

theorem monitorKey_named (h : isDescribed monitor monitors = false) :
    monitorKey monitor monitors = monitor.name := by
  refine if_neg fun hdescribed => ?_
  obtain ⟨hne, hcontrol, hlength, hclash⟩ := hdescribed
  rw [isDescribed, decide_eq_true hne, hcontrol, decide_eq_true hlength, hclash] at h
  cases h

theorem trimmed_ends (text : Text) :
    isPadded (jsTrim text) = false ∧ ∀ c ∈ (jsTrim text).getLast?, isJsSpace c = false :=
  ⟨isPadded_eq_false.mpr (head_trimWith text), getLast_trimWith text⟩

theorem keyMatches_described (h : jsTrim monitor.description ≠ []) :
    keyMatches (ascii "desc:" ++ jsTrim monitor.description) other =
      startsWith other.description (jsTrim monitor.description) := by
  have hdesc : startsWith (ascii "desc:" ++ jsTrim monitor.description) (ascii "desc:") = true := by
    rw [startsWith_iff, unitsOf_append]
    exact ( List.prefix_append _ _)
  have hdrop : (ascii "desc:" ++ jsTrim monitor.description).drop 5 = jsTrim monitor.description :=
    List.drop_left' rfl
  have htrim : jsTrim (jsTrim monitor.description) = jsTrim monitor.description :=
    trimWith_eq_self (head_trimWith _) (getLast_trimWith _)
  rw [keyMatches, if_pos hdesc, hdrop, htrim]
  simp [h]

theorem points_jsTrim {text : Text} (h : ∀ c ∈ text, c < 0x110000) :
    ∀ c ∈ jsTrim text, c < 0x110000 := by
  intro c hc
  have hsub : jsTrim text ⊆ text :=
    fun d hd => List.dropWhile_subset _ (( List.rdropWhile_prefix _ _).subset hd)
  exact h c (hsub hc)

/-- A key that is a description matches no other display. -/
theorem not_matches_other (hpoints : ∀ c ∈ monitor.description, c < 0x110000)
    (hdescribed : isDescribed monitor monitors = true) (hother : other ∈ monitors)
    (hname : other.name ≠ monitor.name) :
    startsWith other.description (jsTrim monitor.description) = false := by
  simp only [isDescribed, Bool.and_eq_true, decide_eq_true_eq] at hdescribed
  by_contra hstarts
  rw [Bool.not_eq_false] at hstarts
  obtain ⟨hstart, hlast⟩ := trimmed_ends monitor.description
  have hclash : clashes monitor monitors = true := List.any_eq_true.mpr ⟨other, hother, by
    rw [Bool.and_eq_true, bne_iff_ne]
    exact ⟨hname, startsWith_jsTrim (points_jsTrim hpoints) hstart hlast hdescribed.1.1.1 hstarts⟩⟩
  rw [hclash] at hdescribed
  cases hdescribed.2

end

/-- The keys identify the displays exactly where no display stored under its
description has white space in front of it. -/
theorem monitorKey_identifies_iff (monitors : List Monitor)
    (hnames : (monitors.map Monitor.name).Nodup)
    (hplain : ∀ monitor ∈ monitors, startsWith monitor.name (ascii "desc:") = false)
    (hpoints : ∀ monitor ∈ monitors, ∀ c ∈ monitor.description, c < 0x110000) :
    KeysIdentify monitors ↔ ∀ monitor ∈ monitors,
      ¬ (isPadded monitor.description = true ∧ isDescribed monitor monitors = true) := by
  have hname : ∀ monitor ∈ monitors, ∀ other ∈ monitors, other ≠ monitor →
      other.name ≠ monitor.name := fun monitor hmonitor other hother hne heq =>
    hne (List.inj_on_of_nodup_map hnames hother hmonitor heq)
  have hkey : ∀ monitor ∈ monitors, isDescribed monitor monitors = false → ∀ other,
      keyMatches (monitorKey monitor monitors) other = (monitor.name == other.name) := by
    intro monitor hmonitor hdescribed other
    rw [monitorKey_named hdescribed, keyMatches, if_neg (by simp [hplain monitor hmonitor])]
  have htrimmed : ∀ monitor, isDescribed monitor monitors = true →
      jsTrim monitor.description ≠ [] := by
    intro monitor hdescribed
    simp only [isDescribed, Bool.and_eq_true, decide_eq_true_eq] at hdescribed
    exact hdescribed.1.1.1
  have hothers : ∀ monitor ∈ monitors, ∀ other ∈ monitors, other ≠ monitor →
      keyMatches (monitorKey monitor monitors) other = false := by
    intro monitor hmonitor other hother hne
    cases hdescribed : isDescribed monitor monitors with
    | true =>
        rw [monitorKey_described hdescribed, keyMatches_described (htrimmed monitor hdescribed)]
        exact not_matches_other (hpoints monitor hmonitor) hdescribed hother
          (hname monitor hmonitor other hother hne)
    | false =>
        rw [hkey monitor hmonitor hdescribed, beq_eq_false_iff_ne]
        exact (hname monitor hmonitor other hother hne).symm
  constructor
  · intro h monitor hmonitor hpadded
    have hown := h.own monitor hmonitor
    rw [monitorKey_described hpadded.2, keyMatches_described (htrimmed monitor hpadded.2),
      not_startsWith_of_padded hpadded.1 (points_jsTrim (hpoints monitor hmonitor))
        (trimmed_ends monitor.description).1 (htrimmed monitor hpadded.2)] at hown
    cases hown
  · intro h
    have hown : ∀ monitor ∈ monitors, keyMatches (monitorKey monitor monitors) monitor = true := by
      intro monitor hmonitor
      cases hdescribed : isDescribed monitor monitors with
      | true =>
          rw [monitorKey_described hdescribed, keyMatches_described (htrimmed monitor hdescribed)]
          refine startsWith_trimmed ?_
          by_contra hpadded
          rw [Bool.not_eq_false] at hpadded
          exact h monitor hmonitor ⟨hpadded, hdescribed⟩
      | false => rw [hkey monitor hmonitor hdescribed, beq_self_eq_true]
    refine ⟨hown, hothers, fun monitor hmonitor other hother hne heq => ?_⟩
    have hmatches := hown other hother
    rw [heq, hothers monitor hmonitor other hother hne] at hmatches
    cases hmatches

/-- Two displays, one of them with a description. -/
def twoDisplays (description : Text) : List Monitor :=
  [⟨ascii "eDP-1", []⟩, ⟨ascii "DP-1", description⟩]

theorem monitorKey_identifies_two : KeysIdentify (twoDisplays (ascii "Dell U2720Q")) :=
  (monitorKey_identifies_iff _ (by decide) (by decide) (by decide)).mpr (by decide +kernel)

/-- The key of a description with a space in front does not find its display. -/
theorem padded_not_found :
    keyMatches (monitorKey ⟨ascii "DP-1", ascii " Dell U2720Q"⟩ (twoDisplays (ascii " Dell U2720Q")))
        ⟨ascii "DP-1", ascii " Dell U2720Q"⟩ = false ∧
      ¬ KeysIdentify (twoDisplays (ascii " Dell U2720Q")) := by
  refine ⟨by decide +kernel, fun h => ?_⟩
  have hown := h.own ⟨ascii "DP-1", ascii " Dell U2720Q"⟩ (by simp [twoDisplays])
  revert hown
  decide +kernel

end Displays

end CybexOS
