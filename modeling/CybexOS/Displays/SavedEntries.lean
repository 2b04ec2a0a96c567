/-
What saving the drafts leaves in the document: each draft's entry is found
again and says what the draft says, other entries and unknown fields stay, and
saving once more changes nothing.
-/
import CybexOS.Dict
import CybexOS.Displays.SavedChoice

namespace CybexOS

namespace Displays

open Json

/-- The own properties of `document.monitors`, of an array its items and its
length. -/
def openMonitors (document : JsValue) : Fields :=
  match document.field? (ascii "monitors") with
  | some (.obj fields) => fields
  | some (.arr items) =>
      ownProps (.arr items) ++ [(ascii "length", numberValue items.length)]
  | _ => []

/-- `storedEntry` -/
def storedEntry (document : JsValue) (name description key : Text) : Option JsValue :=
  let monitors := openMonitors document
  (monitors.lookup key).or (connectorEntry monitors name description)

/-- A draft whose display lies at a position that need not be whole. -/
structure Dragged where
  draft : Draft
  x : ℚ
  y : ℚ
deriving DecidableEq, Repr

/-- The position is written as whole pixels. -/
def Dragged.rounded : Dragged → Draft
  | ⟨draft, x, y⟩ => { draft with x := mathRound x, y := mathRound y }

/-- `buildDocument` of drafts at any position. -/
def buildDragged (previous : JsValue) (drafts : List Dragged) : JsValue :=
  buildDocument previous (drafts.map Dragged.rounded)

/-! ### Numbers -/

/-- A finite binary64 number. -/
def IsDouble (q : ℚ) : Prop := ∃ d : Double, d.val = q

theorem IsDouble.numberValue {q : ℚ} (h : IsDouble q) :
    ∃ d : Double, d.val = q ∧ numberValue q = .num (.fin d) := by
  obtain ⟨d, rfl⟩ := h
  exact ⟨d, rfl, congrArg Value.num (Number.ofRat_double d)⟩

theorem IsDouble.storable {q : ℚ} (h : IsDouble q) : Storable (Displays.numberValue q) := by
  obtain ⟨d, -, heq⟩ := h.numberValue
  rw [heq]
  exact .num d

theorem isDouble_intCast {n : ℤ} (hn : |n| ≤ 2 ^ 53) : IsDouble n :=
  ⟨Double.ofInt n hn, rfl⟩

theorem overflowBound_eq : Binary64.overflowBound = 2 ^ 1023 * 2 := pow_succ 2 1023

theorem isDouble_nearest {q : ℚ} (hq : |q| ≤ 2 ^ 1023) : IsDouble (Binary64.nearest q) := by
  refine ⟨⟨Binary64.nearest q, Binary64.nearest_nearest q, ?_⟩, rfl⟩
  by_cases hsmall : |q| < 2 ^ (-1022 : ℤ)
  · have herr := Binary64.abs_nearest_sub_le q
    have hexp : Binary64.ulpExp q ≤ 0 := by
      by_cases hzero : q = 0
      · rw [hzero]
        decide +kernel
      · exact Binary64.ulpExp_le hzero (by norm_num) (hsmall.trans_le
          (zpow_le_zpow_right₀ (by norm_num) (by norm_num)))
    have hunit : (2 : ℚ) ^ Binary64.ulpExp q ≤ 1 :=
      zpow_le_one_of_nonpos₀ (by norm_num) hexp
    have htriangle := abs_sub_abs_le_abs_sub (Binary64.nearest q) q
    have hone : |q| < 1 :=
      hsmall.trans_le (zpow_le_one_of_nonpos₀ (by norm_num) (by norm_num))
    have hbound : (1 : ℚ) ≤ 2 ^ 1023 := one_le_pow₀ (by norm_num)
    rw [overflowBound_eq]
    generalize (2 : ℚ) ^ 1023 = top at *
    linarith only [herr, hunit, htriangle, hone, hbound]
  · have herr := Binary64.abs_nearest_sub_le_mul (not_lt.mp hsmall)
    have htriangle := abs_sub_abs_le_abs_sub (Binary64.nearest q) q
    have hrel : |q| * 2 ^ (-53 : ℤ) ≤ 2 ^ 1023 * (1 / 2) := by
      gcongr
      norm_num
    have hpos : (0 : ℚ) < 2 ^ 1023 := by positivity
    have hsum := htriangle.trans (herr.trans hrel)
    rw [overflowBound_eq]
    generalize (2 : ℚ) ^ 1023 = top at *
    linarith only [hsum, hq, hpos]

/-- Rounding a number of thousandths or less stays a double as long as the
scaled number does. -/
theorem isDouble_roundTo {unit value : ℚ} (hunit : 8 ≤ unit)
    (h : |Binary64.nearest (value * unit)| < Binary64.overflowBound) :
    IsDouble (roundTo unit value) := by
  refine isDouble_nearest ?_
  have hpos : 0 < unit := by linarith
  rw [abs_div, abs_of_pos hpos, div_le_iff₀ hpos]
  have hround : |(mathRound (Binary64.nearest (value * unit)) : ℚ)| ≤
      |Binary64.nearest (value * unit)| + 1 := by
    have hfloor := Int.floor_le (Binary64.nearest (value * unit) + 1 / 2)
    have hceil := Int.lt_floor_add_one (Binary64.nearest (value * unit) + 1 / 2)
    unfold mathRound
    rw [abs_le]
    constructor <;> cases abs_cases (Binary64.nearest (value * unit)) <;> linarith
  have hscaled : (2 : ℚ) ^ 1023 * 8 ≤ 2 ^ 1023 * unit := by gcongr
  have hone : (1 : ℚ) ≤ 2 ^ 1023 := one_le_pow₀ (by norm_num)
  rw [overflowBound_eq] at h
  generalize (2 : ℚ) ^ 1023 = top at *
  linarith

/-- A position is a double, and so is the whole number next to it. -/
theorem isDouble_mathRound {q : ℚ} (h : IsDouble q) : IsDouble (mathRound q) := by
  by_cases hsmall : |q| < 2 ^ 52
  · refine isDouble_intCast ?_
    have hlow := Int.floor_le (q + 1 / 2)
    have hhigh := Int.lt_floor_add_one (q + 1 / 2)
    rw [abs_lt] at hsmall
    have hcast : |((mathRound q : ℤ) : ℚ)| ≤ 2 ^ 53 := by
      unfold mathRound
      rw [abs_le]
      constructor <;> linarith [hsmall.1, hsmall.2]
    exact_mod_cast hcast
  · obtain ⟨d, rfl⟩ := h
    have hexp : 0 ≤ Binary64.ulpExp d.val := by
      by_contra hneg
      have hlt := Binary64.abs_lt_zpow_ulpExp d.val
      have hle : (2 : ℚ) ^ (Binary64.ulpExp d.val + 53) ≤ 2 ^ (52 : ℤ) :=
        zpow_le_zpow_right₀ (by norm_num) (by omega)
      exact hsmall (hlt.trans_le (by exact_mod_cast hle))
    obtain ⟨n, hn⟩ := Int.eq_ofNat_of_zero_le hexp
    have hwhole : ∃ z : ℤ, d.val = z := by
      refine ⟨Binary64.roundEven (d.val / 2 ^ Binary64.ulpExp d.val) * 2 ^ n, ?_⟩
      have hexact := d.exact
      rw [Binary64.nearest, hn, zpow_natCast] at hexact
      rw [hn, zpow_natCast]
      push_cast
      exact hexact.symm
    obtain ⟨z, hz⟩ := hwhole
    have hround : mathRound d.val = z := by
      rw [mathRound, hz, Int.floor_eq_iff]
      constructor <;> norm_num
    exact ⟨d, by rw [hround, hz]⟩

/-! ### Storing the drafts -/

/-- Drafts with names and keys of their own.  Where one is stored under the
connector of another that is not, neither the entry there nor the one it stores
counts as the other's. -/
structure Apart (previous : Fields) (drafts : List Draft) : Prop where
  names : (drafts.map Draft.name).Nodup
  keys : (drafts.map Draft.key).Nodup
  proto : ∀ draft ∈ drafts, draft.key ≠ PROTO
  clear : ∀ draft ∈ drafts, ∀ other ∈ drafts, other.key = draft.name →
    draft.key ≠ draft.name → connectorEntry previous draft.name draft.description = none ∧
      other.description ≠ [] ∧ other.description ≠ draft.description

theorem Apart.init {previous : Fields} {drafts : List Draft} {draft : Draft}
    (h : Apart previous (drafts ++ [draft])) : Apart previous drafts where
  names := by
    have hnames := h.names
    rw [List.map_append] at hnames
    exact (List.nodup_append.mp hnames).1
  keys := by
    have hkeys := h.keys
    rw [List.map_append] at hkeys
    exact (List.nodup_append.mp hkeys).1
  proto := fun other hother => h.proto other (List.mem_append_left _ hother)
  clear := fun first hfirst second hsecond =>
    h.clear first (List.mem_append_left _ hfirst) second (List.mem_append_left _ hsecond)

/-- What storing the drafts leaves, entry by entry. -/
structure Holds (previous : Fields) (drafts : List Draft) (enabledKeys : List Text)
    (result : Fields) : Prop where
  nodup : (keysOf result).Nodup
  stored : ∀ draft ∈ drafts,
    result.lookup draft.key = some (.obj (draft.entry previous enabledKeys))
  kept : ∀ key, (∀ draft ∈ drafts, draft.key ≠ key) →
    (Moved previous drafts key → result.lookup key = none) ∧
      (¬ Moved previous drafts key → result.lookup key = previous.lookup key)

theorem Holds.nil {previous : Fields} (h : (keysOf previous).Nodup)
    (enabledKeys : List Text) : Holds previous [] enabledKeys previous := by
  refine ⟨h, fun draft hdraft => absurd hdraft List.not_mem_nil, fun key _ => ⟨?_, fun _ => rfl⟩⟩
  rintro ⟨draft, hdraft, -⟩
  cases hdraft

theorem connectorEntry_congr {first second : Fields} {name : Text}
    (h : first.lookup name = second.lookup name) (description : Text) :
    connectorEntry first name description = connectorEntry second name description := by
  rw [connectorEntry, h, connectorEntry]

/-- What a draft that is still to come finds is what was there at first. -/
theorem Holds.unread {previous : Fields} {drafts : List Draft} {draft : Draft}
    (hapart : Apart previous (drafts ++ [draft])) {enabledKeys : List Text} {result : Fields}
    (h : Holds previous drafts enabledKeys result) :
    result.lookup draft.key = previous.lookup draft.key ∧
      connectorEntry result draft.name draft.description =
        connectorEntry previous draft.name draft.description := by
  have hdraft : draft ∈ drafts ++ [draft] := by simp
  have hmem : ∀ other ∈ drafts, other ∈ drafts ++ [draft] :=
    fun other hother => List.mem_append_left _ hother
  have hkeys : ∀ other ∈ drafts, other.key ≠ draft.key := by
    have hnodup := hapart.keys
    rw [List.map_append, List.nodup_append] at hnodup
    exact fun other hother => hnodup.2.2 _ (List.mem_map_of_mem hother) _ (by simp)
  have hnames : ∀ other ∈ drafts, other.name ≠ draft.name := by
    have hnodup := hapart.names
    rw [List.map_append, List.nodup_append] at hnodup
    exact fun other hother => hnodup.2.2 _ (List.mem_map_of_mem hother) _ (by simp)
  constructor
  · refine (h.kept draft.key hkeys).2 ?_
    rintro ⟨other, hother, hname, hmoves, hsome⟩
    rw [← hname] at hmoves hsome
    rw [(hapart.clear other (hmem other hother) draft hdraft hname.symm hmoves).1] at hsome
    cases hsome
  · by_cases hstored : ∃ other ∈ drafts, other.key = draft.name
    · obtain ⟨other, hother, hkey⟩ := hstored
      have hmoves : draft.key ≠ draft.name := fun heq => hkeys other hother (hkey.trans heq.symm)
      obtain ⟨hnone, hsome, hne⟩ :=
        hapart.clear draft hdraft other (hmem other hother) hkey hmoves
      have hlookup := h.stored other hother
      rw [hkey] at hlookup
      rw [hnone, connectorEntry_stored hlookup hsome hne]
    · refine connectorEntry_congr ((h.kept draft.name ?_).2 ?_) draft.description
      · exact fun other hother hkey => hstored ⟨other, hother, hkey⟩
      · rintro ⟨other, hother, hname, -⟩
        exact hnames other hother hname

theorem Draft.entry_congr {draft : Draft} {first second : Fields}
    (hown : first.lookup draft.key = second.lookup draft.key)
    (hlegacy : connectorEntry first draft.name draft.description =
      connectorEntry second draft.name draft.description) (enabledKeys : List Text) :
    draft.entry first enabledKeys = draft.entry second enabledKeys := by
  rw [Draft.entry, hown, hlegacy, Draft.entry]

theorem storeDraft_nodup {monitors : Fields} (h : (keysOf monitors).Nodup)
    (enabledKeys : List Text) (draft : Draft) :
    (keysOf (storeDraft enabledKeys monitors draft)).Nodup := by
  unfold storeDraft
  dsimp only
  split
  · exact setOwn_nodup (deleteOwn_nodup h _) _ _
  · exact setOwn_nodup h _ _

theorem Holds.snoc {previous : Fields} {drafts : List Draft} {draft : Draft}
    (hapart : Apart previous (drafts ++ [draft])) {enabledKeys : List Text} {result : Fields}
    (h : Holds previous drafts enabledKeys result) :
    Holds previous (drafts ++ [draft]) enabledKeys (storeDraft enabledKeys result draft) := by
  have hdraft : draft ∈ drafts ++ [draft] := by simp
  obtain ⟨hown, hlegacy⟩ := h.unread hapart
  have hentry := Draft.entry_congr hown hlegacy enabledKeys
  have hproto := hapart.proto draft hdraft
  have hlookup := lookup_storeDraft h.nodup (fun heq => absurd heq hproto)
    (fun heq => absurd heq hproto) enabledKeys
  rw [hlegacy, hentry] at hlookup
  have hmoved : ∀ key, Moved previous (drafts ++ [draft]) key ↔
      Moved previous drafts key ∨ draft.name = key ∧ draft.key ≠ key ∧
        (connectorEntry previous key draft.description).isSome = true := by
    intro key
    simp [Moved, or_and_right, exists_or]
  refine ⟨storeDraft_nodup h.nodup enabledKeys draft, fun other hother => ?_,
    fun key hkey => ?_⟩
  · rw [hlookup]
    by_cases hsame : other.key = draft.key
    · have heq : other = draft := List.inj_on_of_nodup_map hapart.keys hother hdraft hsame
      rw [if_pos hsame, heq]
    · have hearlier : other ∈ drafts := by
        rcases List.mem_append.mp hother with hearlier | hlast
        · exact hearlier
        · rw [List.mem_singleton.mp hlast] at hsame
          exact absurd rfl hsame
      rw [if_neg hsame, if_neg, h.stored other hearlier]
      -- the draft is not stored under its connector, so nothing of another is its own
      rintro ⟨hname, hmoves, hsome⟩
      rw [(hapart.clear draft hdraft other hother hname hmoves).1] at hsome
      cases hsome
  · have hne : key ≠ draft.key := (hkey draft hdraft).symm
    obtain ⟨hgone, hstays⟩ :=
      h.kept key fun other hother => hkey other (List.mem_append_left _ hother)
    rw [hlookup, if_neg hne, hmoved]
    by_cases hname : key = draft.name
    · subst hname
      by_cases hsome : (connectorEntry previous draft.name draft.description).isSome = true
      · simp [hsome, hne.symm]
      · rw [if_neg (fun hand => hsome hand.2.2)]
        exact ⟨fun hor => hgone (hor.resolve_right fun hand => hsome hand.2.2),
          fun hnor => hstays fun hbefore => hnor (Or.inl hbefore)⟩
    · rw [if_neg (fun hand => hname hand.1)]
      exact ⟨fun hor => hgone (hor.resolve_right fun hand => hname hand.1.symm),
        fun hnor => hstays fun hbefore => hnor (Or.inl hbefore)⟩

theorem holds_foldl {previous : Fields} (hprevious : (keysOf previous).Nodup)
    {drafts : List Draft} (hapart : Apart previous drafts) (enabledKeys : List Text) :
    Holds previous drafts enabledKeys (drafts.foldl (storeDraft enabledKeys) previous) := by
  induction drafts using List.reverseRecOn with
  | nil => exact Holds.nil hprevious enabledKeys
  | append_singleton drafts draft ih =>
      rw [List.foldl_append]
      exact Holds.snoc hapart (ih hapart.init)

/-! ### Storing again -/

theorem changeOwn_plain {fields : Fields} (h : Plain fields)
    (change : Text × Option JsValue) : Plain (changeOwn fields change) := by
  unfold changeOwn
  cases change.2 with
  | none => exact h.deleteOwn change.1
  | some value => exact h.setOwn change.1 value

theorem entry_plain (draft : Draft) (monitors : Fields) (enabledKeys : List Text) :
    Plain (draft.entry monitors enabledKeys) := by
  have hloop : ∀ (changes : List (Text × Option JsValue)) {fields : Fields}, Plain fields →
      Plain (changes.foldl changeOwn fields) := by
    intro changes
    induction changes with
    | nil => exact fun h => h
    | cons change changes ih => exact fun h => ih (changeOwn_plain h change)
  exact hloop _ ((plain_nil.assignOwn _).assignOwn _)

theorem foldl_changeOwn_self {fields : Fields} (h : OwnOrdered fields)
    {changes : List (Text × Option JsValue)}
    (hchanges : ∀ change ∈ changes, fields.lookup change.1 = change.2) :
    changes.foldl changeOwn fields = fields := by
  induction changes with
  | nil => rfl
  | cons change changes ih =>
      rw [List.forall_mem_cons] at hchanges
      have hsame : changeOwn fields change = fields := by
        have hvalue := hchanges.1
        unfold changeOwn
        cases hchange : change.2 with
        | none => exact deleteOwn_self (hvalue.trans hchange)
        | some value => exact setOwn_self h (hvalue.trans hchange)
      rw [List.foldl_cons, hsame, ih hchanges.2]

theorem entryChanges_names (draft : Draft) (enabledKeys : List Text) :
    ((draft.entryChanges enabledKeys).map Prod.fst).Nodup := by
  simp [Draft.entryChanges, ascii]

theorem lookup_entry_of_mem (draft : Draft) (monitors : Fields) (enabledKeys : List Text)
    {name : Text} {held : Option JsValue} (h : (name, held) ∈ draft.entryChanges enabledKeys) :
    (draft.entry monitors enabledKeys).lookup name = held :=
  lookup_entry draft monitors enabledKeys
    (Dict.lookup_of_mem (entryChanges_names draft enabledKeys) h)

/-- An entry made over itself is itself. -/
theorem entry_again {draft : Draft} {previous result : Fields} {enabledKeys : List Text}
    (hown : result.lookup draft.key = some (.obj (draft.entry previous enabledKeys)))
    (hlegacy : draft.key ≠ draft.name →
      connectorEntry result draft.name draft.description = none) :
    draft.entry result enabledKeys = draft.entry previous enabledKeys := by
  have hplain := entry_plain draft previous enabledKeys
  have hassigned : assignOwn (assignOwn []
      ((connectorEntry result draft.name draft.description).getD (.obj [])))
      (.obj (draft.entry previous enabledKeys)) = draft.entry previous enabledKeys := by
    by_cases hname : draft.key = draft.name
    · rw [hname] at hown
      rw [connectorEntry, hown]
      cases hsame : (some (Value.obj (draft.entry previous enabledKeys))).filter
          fun entry => truthy entry && sameHardware entry draft.description with
      | none => exact hplain.copy
      | some entry =>
          obtain rfl := Option.some.inj (Option.mem_filter_iff.mp hsame).1
          rw [Option.getD_some, hplain.copy, hplain.assignOwn_self]
    · rw [hlegacy hname]
      exact hplain.copy
  rw [Draft.entry, hown, Option.getD_some, hassigned]
  exact foldl_changeOwn_self hplain.ownOrdered fun change hchange =>
    lookup_entry_of_mem draft previous enabledKeys hchange

/-- A draft not stored under its connector finds nothing of its own there. -/
theorem Holds.noLegacy {previous : Fields} {drafts : List Draft}
    (hapart : Apart previous drafts) {enabledKeys : List Text} {result : Fields}
    (h : Holds previous drafts enabledKeys result) {draft : Draft} (hdraft : draft ∈ drafts)
    (hmoves : draft.key ≠ draft.name) :
    connectorEntry result draft.name draft.description = none := by
  by_cases hstored : ∃ other ∈ drafts, other.key = draft.name
  · obtain ⟨other, hother, hkey⟩ := hstored
    obtain ⟨-, hsome, hne⟩ := hapart.clear draft hdraft other hother hkey hmoves
    have hlookup := h.stored other hother
    rw [hkey] at hlookup
    exact connectorEntry_stored hlookup hsome hne
  · obtain ⟨hgone, hstays⟩ :=
      h.kept draft.name fun other hother hkey => hstored ⟨other, hother, hkey⟩
    by_cases hmoved : Moved previous drafts draft.name
    · rw [connectorEntry, hgone hmoved]
      rfl
    · rw [connectorEntry_congr (hstays hmoved)]
      by_contra hsome
      exact hmoved ⟨draft, hdraft, rfl, hmoves, Option.isSome_iff_ne_none.mpr hsome⟩

theorem Holds.storeDraft_again {previous : Fields} {drafts : List Draft}
    (hapart : Apart previous drafts) {enabledKeys : List Text} {result : Fields}
    (h : Holds previous drafts enabledKeys result) (hordered : OwnOrdered result)
    {draft : Draft} (hdraft : draft ∈ drafts) :
    storeDraft enabledKeys result draft = result := by
  have hown := h.stored draft hdraft
  have hlegacy := h.noLegacy hapart hdraft
  unfold storeDraft
  dsimp only
  rw [if_neg, entry_again hown hlegacy]
  · exact setOwn_self hordered hown
  · rintro ⟨hmoves, hsome⟩
    rw [hlegacy hmoves] at hsome
    cases hsome

theorem Holds.foldl_again {previous : Fields} {drafts : List Draft}
    (hapart : Apart previous drafts) {enabledKeys : List Text} {result : Fields}
    (h : Holds previous drafts enabledKeys result) (hordered : OwnOrdered result) :
    drafts.foldl (storeDraft enabledKeys) result = result := by
  have hloop : ∀ later ⊆ drafts, later.foldl (storeDraft enabledKeys) result = result := by
    intro later
    induction later with
    | nil => exact fun _ => rfl
    | cons draft later ih =>
        intro hsub
        rw [List.cons_subset] at hsub
        rw [List.foldl_cons, h.storeDraft_again hapart hordered hsub.1, ih hsub.2]
  exact hloop drafts (List.Subset.refl drafts)

/-! ### What a saved document holds -/

/-- The numbers of a draft at this position are finite, and stay so when they
are scaled for rounding. -/
structure Draft.Finite (draft : Draft) (x y : ℚ) : Prop where
  mode : ∀ mode, draft.mode = .size mode → IsDouble mode.width ∧ IsDouble mode.height ∧
    |Binary64.nearest (mode.refresh * 1000)| < Binary64.overflowBound
  scale : ∀ scale, draft.scale = .value scale →
    |Binary64.nearest (scale * 1000000)| < Binary64.overflowBound
  transform : IsDouble draft.transform
  vrr : IsDouble draft.vrr
  x : IsDouble x
  y : IsDouble y

theorem Dragged.finite_rounded {dragged : Dragged}
    (h : dragged.draft.Finite dragged.x dragged.y) :
    dragged.rounded.Finite dragged.rounded.x dragged.rounded.y where
  mode := h.mode
  scale := h.scale
  transform := h.transform
  vrr := h.vrr
  x := isDouble_mathRound h.x
  y := isDouble_mathRound h.y

theorem ownOrdered_named {fields : Fields} (hkeys : (keysOf fields).Nodup)
    (hnames : ∀ key ∈ keysOf fields, isArrayIndex key = false) : OwnOrdered fields :=
  ownOrdered_of_names hkeys fun _ hfield => hnames _ (List.mem_map_of_mem hfield)

theorem Draft.Finite.savedMode_storable {draft : Draft} {x y : ℚ} (h : draft.Finite x y) :
    Storable (savedMode draft.mode) := by
  cases hmode : draft.mode with
  | preferred => exact .str _
  | size mode =>
      obtain ⟨hwidth, hheight, hrefresh⟩ := h.mode mode hmode
      refine .obj _ (ownOrdered_named (by simp [keysOf, ascii]) ?_) ?_
      · simp only [keysOf, List.map_cons, List.map_nil]
        decide
      · simp only [List.forall_mem_cons]
        exact ⟨hwidth.storable, hheight.storable,
          (isDouble_roundTo (by norm_num) hrefresh).storable, by simp⟩

theorem Draft.Finite.savedScale_storable {draft : Draft} {x y : ℚ} (h : draft.Finite x y) :
    Storable (savedScale draft.scale) := by
  cases hscale : draft.scale with
  | auto => exact .str _
  | value scale => exact (isDouble_roundTo (by norm_num) (h.scale scale hscale)).storable

theorem Draft.Finite.change_storable {draft : Draft} (h : draft.Finite draft.x draft.y)
    (enabledKeys : List Text) {change : Text × Option JsValue}
    (hchange : change ∈ draft.entryChanges enabledKeys) {value : JsValue}
    (hvalue : change.2 = some value) : Storable value := by
  simp only [Draft.entryChanges, List.mem_cons, List.not_mem_nil, or_false] at hchange
  rcases hchange with rfl | rfl | rfl | rfl | rfl | rfl | rfl | rfl | rfl | rfl
  · rw [Option.ite_none_left_eq_some, Option.some.injEq] at hvalue
    exact hvalue.2 ▸ .str _
  · exact Option.some.inj hvalue ▸ .str _
  · exact Option.some.inj hvalue ▸ .bool _
  · rw [Option.ite_none_left_eq_some, Option.some.injEq] at hvalue
    refine hvalue.2 ▸ .arr _ fun item hitem => ?_
    obtain ⟨key, -, rfl⟩ := List.mem_map.mp hitem
    exact .str key
  · exact Option.some.inj hvalue ▸ h.savedMode_storable
  · refine Option.some.inj hvalue ▸ .obj _ (ownOrdered_named (by simp [keysOf, ascii]) ?_) ?_
    · simp only [keysOf, List.map_cons, List.map_nil]
      decide
    · simp only [List.forall_mem_cons]
      exact ⟨h.x.storable, h.y.storable, by simp⟩
  · exact Option.some.inj hvalue ▸ h.savedScale_storable
  · exact Option.some.inj hvalue ▸ h.transform.storable
  · rw [Option.ite_none_left_eq_some, Option.some.injEq] at hvalue
    exact hvalue.2 ▸ h.vrr.storable
  · rw [Option.ite_none_left_eq_some, Option.some.injEq] at hvalue
    exact hvalue.2 ▸ .str _

theorem storable_changeOwn {fields : Fields} (h : Storable (.obj fields))
    {change : Text × Option JsValue} (hchange : ∀ value, change.2 = some value → Storable value) :
    Storable (.obj (changeOwn fields change)) := by
  unfold changeOwn
  cases hvalue : change.2 with
  | none => exact h.deleteOwn change.1
  | some value => exact h.setOwn change.1 (hchange value hvalue)

theorem storable_lookup {fields : Fields} (h : Storable (.obj fields)) (key : Text) :
    Storable ((fields.lookup key).getD (.obj [])) := by
  cases hvalue : fields.lookup key with
  | none => exact storable_empty
  | some value => exact h.of_lookup hvalue

theorem storable_connectorEntry {fields : Fields} (h : Storable (.obj fields))
    (name description : Text) :
    Storable ((connectorEntry fields name description).getD (.obj [])) := by
  cases hvalue : connectorEntry fields name description with
  | none => exact storable_empty
  | some value => exact h.of_lookup (Option.mem_filter_iff.mp hvalue).1

theorem Draft.Finite.entry_storable {draft : Draft} (h : draft.Finite draft.x draft.y)
    {monitors : Fields} (hmonitors : Storable (.obj monitors)) (enabledKeys : List Text) :
    Storable (.obj (draft.entry monitors enabledKeys)) := by
  have hloop : ∀ changes ⊆ draft.entryChanges enabledKeys, ∀ fields : Fields,
      Storable (.obj fields) → Storable (.obj (changes.foldl changeOwn fields)) := by
    intro changes
    induction changes with
    | nil => exact fun _ _ hfields => hfields
    | cons change changes ih =>
        intro hsub fields hfields
        rw [List.cons_subset] at hsub
        rw [List.foldl_cons]
        exact ih hsub.2 _ (storable_changeOwn hfields fun value hvalue =>
          h.change_storable enabledKeys hsub.1 hvalue)
  unfold Draft.entry
  dsimp only
  apply hloop _ (List.Subset.refl _)
  exact (storable_empty.assignOwn (storable_connectorEntry hmonitors _ _)).assignOwn
    (storable_lookup hmonitors _)

theorem foldl_storable {monitors : Fields} (hmonitors : Storable (.obj monitors))
    {drafts : List Draft} (hdrafts : ∀ draft ∈ drafts, draft.Finite draft.x draft.y)
    (enabledKeys : List Text) :
    Storable (.obj (drafts.foldl (storeDraft enabledKeys) monitors)) := by
  induction drafts generalizing monitors with
  | nil => exact hmonitors
  | cons draft drafts ih =>
      rw [List.forall_mem_cons] at hdrafts
      have hentry := hdrafts.1.entry_storable hmonitors enabledKeys
      refine ih ?_ hdrafts.2
      unfold storeDraft
      dsimp only
      split
      · exact (hmonitors.deleteOwn _).setOwn _ hentry
      · exact hmonitors.setOwn _ hentry

/-- A draft's choices as an entry holds them: refresh rates to the thousandth
and scales to the millionth. -/
structure Settings where
  enabled : Bool
  mode : ModeChoice
  scale : ScaleChoice
  transform : ℚ
  mirror : Text
  vrr : ℚ
  x : ℚ
  y : ℚ
deriving DecidableEq, Repr

def Draft.settings (draft : Draft) : Settings where
  enabled := draft.enabled
  mode :=
    match draft.mode with
    | .preferred => .preferred
    | .size mode => .size ⟨mode.width, mode.height, roundRefresh mode.refresh⟩
  scale :=
    match draft.scale with
    | .auto => .auto
    | .value scale => .value (roundTo 1000000 scale)
  transform := draft.transform
  mirror := draft.mirror
  vrr := draft.vrr
  x := draft.x
  y := draft.y

def numberIn : JsValue → Option ℚ
  | .num (.fin d) => some d.val
  | _ => none

def numberAt (fields : Fields) (name : Text) : Option ℚ := (fields.lookup name).bind numberIn

def modeIn : JsValue → Option ModeChoice
  | .str text => if text = ascii "preferred" then some .preferred else none
  | .obj fields => do
      let width ← numberAt fields (ascii "width")
      let height ← numberAt fields (ascii "height")
      let refresh ← numberAt fields (ascii "refresh")
      some (.size ⟨width, height, refresh⟩)
  | _ => none

def scaleIn : JsValue → Option ScaleChoice
  | .str text => if text = ascii "auto" then some .auto else none
  | value => (numberIn value).map .value

def positionIn : JsValue → Option (ℚ × ℚ)
  | .obj fields => do
      let x ← numberAt fields (ascii "x")
      let y ← numberAt fields (ascii "y")
      some (x, y)
  | _ => none

/-- The choices an entry says: no mirror is none, no rate choice the default. -/
def settingsIn (entry : Fields) : Option Settings := do
  let enabled ←
    match entry.lookup (ascii "enabled") with
    | some (.bool value) => some value
    | _ => none
  let mode ← (entry.lookup (ascii "mode")).bind modeIn
  let scale ← (entry.lookup (ascii "scale")).bind scaleIn
  let transform ← numberAt entry (ascii "transform")
  let mirror ←
    match entry.lookup (ascii "mirror") with
    | none => some []
    | some (.str text) => some text
    | _ => none
  let vrr ←
    match entry.lookup (ascii "vrr") with
    | none => some (-1)
    | some value => numberIn value
  let position ← (entry.lookup (ascii "position")).bind positionIn
  some ⟨enabled, mode, scale, transform, mirror, vrr, position.1, position.2⟩

theorem IsDouble.numberIn {q : ℚ} (h : IsDouble q) :
    Displays.numberIn (Displays.numberValue q) = some q := by
  obtain ⟨d, rfl, heq⟩ := h.numberValue
  rw [heq]
  rfl

theorem Draft.Finite.modeIn {draft : Draft} {x y : ℚ} (h : draft.Finite x y) :
    Displays.modeIn (savedMode draft.mode) = some draft.settings.mode := by
  unfold Draft.settings
  cases hmode : draft.mode with
  | preferred => rfl
  | size mode =>
      obtain ⟨hwidth, hheight, hrefresh⟩ := h.mode mode hmode
      have hread := (isDouble_roundTo (by norm_num) hrefresh).numberIn
      simp [savedMode, Displays.modeIn, numberAt, lookup_cons_if, ascii, hwidth.numberIn,
        hheight.numberIn, roundRefresh, hread]

theorem Draft.Finite.scaleIn {draft : Draft} {x y : ℚ} (h : draft.Finite x y) :
    Displays.scaleIn (savedScale draft.scale) = some draft.settings.scale := by
  unfold Draft.settings
  cases hscale : draft.scale with
  | auto => rfl
  | value scale =>
      have hdouble := isDouble_roundTo (by norm_num) (h.scale scale hscale)
      obtain ⟨d, hd, heq⟩ := hdouble.numberValue
      rw [savedScale, heq]
      simp [Displays.scaleIn, Displays.numberIn, hd]

/-- The entry of a draft says what the draft says. -/
theorem Draft.Finite.settingsIn {draft : Draft} (h : draft.Finite draft.x draft.y)
    (monitors : Fields) (enabledKeys : List Text) :
    Displays.settingsIn (draft.entry monitors enabledKeys) = some draft.settings := by
  have hread : ∀ {name : Text} {held : Option JsValue},
      (name, held) ∈ draft.entryChanges enabledKeys →
        (draft.entry monitors enabledKeys).lookup name = held :=
    fun hmem => lookup_entry_of_mem draft monitors enabledKeys hmem
  have henabled : (draft.entry monitors enabledKeys).lookup (ascii "enabled") =
      some (.bool draft.enabled) := hread (by simp [Draft.entryChanges])
  have hmode : (draft.entry monitors enabledKeys).lookup (ascii "mode") =
      some (savedMode draft.mode) := hread (by simp [Draft.entryChanges])
  have hscale : (draft.entry monitors enabledKeys).lookup (ascii "scale") =
      some (savedScale draft.scale) := hread (by simp [Draft.entryChanges])
  have htransform : (draft.entry monitors enabledKeys).lookup (ascii "transform") =
      some (numberValue draft.transform) := hread (by simp [Draft.entryChanges])
  have hmirror : (draft.entry monitors enabledKeys).lookup (ascii "mirror") =
      if draft.mirror = [] then none else some (.str draft.mirror) :=
    hread (by simp [Draft.entryChanges])
  have hvrr : (draft.entry monitors enabledKeys).lookup (ascii "vrr") =
      if draft.vrr = -1 then none else some (numberValue draft.vrr) :=
    hread (by simp [Draft.entryChanges])
  have hposition : (draft.entry monitors enabledKeys).lookup (ascii "position") =
      some (.obj [(ascii "x", numberValue draft.x), (ascii "y", numberValue draft.y)]) :=
    hread (by simp [Draft.entryChanges])
  have hplace : positionIn (.obj [(ascii "x", numberValue draft.x),
      (ascii "y", numberValue draft.y)]) = some ((draft.x : ℚ), (draft.y : ℚ)) := by
    simp [positionIn, numberAt, lookup_cons_if, ascii, h.x.numberIn, h.y.numberIn]
  rw [Displays.settingsIn, henabled, hmode, hscale, numberAt, htransform, hmirror, hvrr,
    hposition]
  simp only [Option.bind_eq_bind, Option.bind_some, h.modeIn, h.scaleIn, h.transform.numberIn,
    hplace]
  by_cases hsource : draft.mirror = [] <;> by_cases hchoice : draft.vrr = -1 <;>
    simp [hsource, hchoice, h.vrr.numberIn, Draft.settings]

/-- The names of the fields an entry is made of. -/
def ENTRY_FIELDS : List Text :=
  ["description", "connector", "enabled", "disabledWith", "mode", "position", "scale",
    "transform", "vrr", "mirror"].map ascii

/-- A field of the entry under a draft's key, else of the one under its
connector that counts as its own. -/
def Draft.keptField (draft : Draft) (monitors : Fields) (name : Text) : Option JsValue :=
  ((ownProps ((monitors.lookup draft.key).getD (.obj []))).lookup name).or
    ((ownProps ((connectorEntry monitors draft.name draft.description).getD
      (.obj []))).lookup name)

theorem lookup_entry_unknown (draft : Draft) {monitors : Fields}
    (hmonitors : Storable (.obj monitors)) (enabledKeys : List Text) {name : Text}
    (hproto : name ≠ PROTO) (hname : name ∉ ENTRY_FIELDS) :
    (draft.entry monitors enabledKeys).lookup name = draft.keptField monitors name := by
  have hchanges : (draft.entryChanges enabledKeys).map Prod.fst = ENTRY_FIELDS := rfl
  have hnone : (draft.entryChanges enabledKeys).lookup name = none := by
    rw [lookup_eq_none_iff_keys, hchanges]
    exact hname
  have hproto' : PROTO ∉ (draft.entryChanges enabledKeys).map Prod.fst := by
    rw [hchanges]
    decide
  have hempty : (keysOf []).Nodup := List.nodup_nil
  rw [Draft.entry, lookup_foldl_changeOwn (entryChanges_names draft enabledKeys) hproto'
    (assigned_nodup _ _), hnone, Option.getD_none,
    lookup_assignOwn (assignOwn_nodup hempty _)
      (ownProps_nodup (storable_lookup hmonitors _)) hproto,
    lookup_assignOwn hempty (ownProps_nodup (storable_connectorEntry hmonitors _ _)) hproto]
  simp [Draft.keptField]

theorem storedMonitors_storable {document : JsValue} (h : Storable document) :
    Storable (.obj (storedMonitors document)) := by
  cases document with
  | obj fields =>
      rw [storedMonitors, Value.field?]
      cases hvalue : fields.lookup (ascii "monitors") with
      | none => exact storable_empty
      | some value =>
          have hstorable := h.of_lookup hvalue
          cases value with
          | obj inner => exact hstorable
          | _ => exact storable_empty
  | _ => exact storable_empty

/-- The document is the previous one's fields with the version and the
monitors assigned. -/
theorem buildDocument_eq {previous : JsValue} (h : Storable previous) (drafts : List Draft) :
    ∃ fields, Storable (.obj fields) ∧ (∀ name, fields.lookup name = previous.field? name) ∧
      buildDocument previous drafts =
        .obj (setOwn (setOwn fields (ascii "v") (numberValue 1)) (ascii "monitors")
          (.obj (drafts.foldl (storeDraft (enabledKeys drafts)) (storedMonitors previous)))) := by
  have hversion : ∀ {fields : Fields}, (keysOf fields).Nodup →
      storedMonitors (.obj (setOwn fields (ascii "v") (numberValue 1))) =
        storedMonitors (.obj fields) := by
    intro fields hnodup
    rw [storedMonitors, Value.field?,
      lookup_setOwn hnodup (fun heq => absurd heq (by decide)), if_neg (by decide)]
    rfl
  cases previous with
  | obj fields =>
      refine ⟨fields, h, fun _ => rfl, ?_⟩
      simp only [buildDocument, objectFields?, clone_storable h, Option.elim_some,
        Option.getD_some, hversion (storable_obj_iff.mp h).1.1]
  | _ =>
      refine ⟨[], storable_empty, fun _ => rfl, ?_⟩
      have hempty : (keysOf []).Nodup := List.nodup_nil
      simp only [buildDocument, objectFields?, Option.elim_none, hversion hempty]
      rfl

/-- What a saved document says of the drafts and keeps of the previous one. -/
structure Saves (previous : JsValue) (drafts : List Draft) (result : JsValue) : Prop where
  found : ∀ draft ∈ drafts, ∃ entry,
    storedEntry result draft.name draft.description draft.key = some (.obj entry) ∧
      settingsIn entry = some draft.settings ∧
      ∀ name, name ≠ PROTO → name ∉ ENTRY_FIELDS →
        entry.lookup name = draft.keptField (storedMonitors previous) name
  others : ∀ key, (∀ draft ∈ drafts, draft.key ≠ key) →
    ¬ Moved (storedMonitors previous) drafts key →
      (storedMonitors result).lookup key = (storedMonitors previous).lookup key
  fields : ∀ name, name ≠ ascii "v" → name ≠ ascii "monitors" →
    result.field? name = previous.field? name

theorem buildDocument_saves {previous : JsValue} (hprevious : Storable previous)
    {drafts : List Draft} (hfinite : ∀ draft ∈ drafts, draft.Finite draft.x draft.y)
    (hapart : Apart (storedMonitors previous) drafts) :
    Saves previous drafts (buildDocument previous drafts) := by
  have hmonitors := storedMonitors_storable hprevious
  have hholds := holds_foldl (storable_obj_iff.mp hmonitors).1.1 hapart (enabledKeys drafts)
  obtain ⟨fields, hfields, hread, hbuild⟩ := buildDocument_eq hprevious drafts
  have hnodup := (storable_obj_iff.mp hfields).1.1
  have hassignable : ∀ (fields : Fields) (name : String), ascii name ≠ PROTO →
      Assignable fields (ascii name) := fun fields name hne heq => absurd heq hne
  have hheld : (buildDocument previous drafts).field? (ascii "monitors") =
      some (.obj (drafts.foldl (storeDraft (enabledKeys drafts)) (storedMonitors previous))) := by
    rw [hbuild, Value.field?, lookup_setOwn (setOwn_nodup hnodup _ _)
      (hassignable _ _ (by decide)), if_pos rfl]
  refine ⟨fun draft hdraft => ?_, fun key hkeys hstays => ?_, fun name hv hmon => ?_⟩
  · refine ⟨draft.entry (storedMonitors previous) (enabledKeys drafts), ?_,
      (hfinite draft hdraft).settingsIn _ _, fun name hproto hname =>
        lookup_entry_unknown draft hmonitors _ hproto hname⟩
    rw [storedEntry, openMonitors, hheld]
    dsimp only
    rw [hholds.stored draft hdraft]
    rfl
  · rw [storedMonitors_buildDocument hprevious]
    exact (hholds.kept key hkeys).2 hstays
  · rw [hbuild, Value.field?, lookup_setOwn (setOwn_nodup hnodup _ _)
      (hassignable _ _ (by decide)), if_neg hmon,
      lookup_setOwn hnodup (hassignable _ _ (by decide)), if_neg hv, hread]

/-- Saving the same drafts once more changes nothing. -/
theorem buildDocument_again {previous : JsValue} (hprevious : Storable previous)
    {drafts : List Draft} (hfinite : ∀ draft ∈ drafts, draft.Finite draft.x draft.y)
    (hapart : Apart (storedMonitors previous) drafts) :
    buildDocument (buildDocument previous drafts) drafts = buildDocument previous drafts := by
  have hmonitors := storedMonitors_storable hprevious
  have hholds := holds_foldl (storable_obj_iff.mp hmonitors).1.1 hapart (enabledKeys drafts)
  have hresult := foldl_storable hmonitors hfinite (enabledKeys drafts)
  have hsame := hholds.foldl_again hapart (storable_obj_iff.mp hresult).1
  obtain ⟨fields, hfields, -, hbuild⟩ := buildDocument_eq hprevious drafts
  have hone : IsDouble 1 := isDouble_intCast (n := 1) (by norm_num)
  have hversioned := hfields.setOwn (ascii "v") hone.storable
  have hdocument := hversioned.setOwn (ascii "monitors") hresult
  have hassignable : ∀ (fields : Fields) (name : String), ascii name ≠ PROTO →
      Assignable fields (ascii name) := fun fields name hne heq => absurd heq hne
  have hversion := lookup_setOwn (storable_obj_iff.mp hfields).1.1
    (hassignable fields "v" (by decide)) (numberValue 1)
  have hfinal := lookup_setOwn (storable_obj_iff.mp hversioned).1.1
    (hassignable _ "monitors" (by decide))
    (.obj (drafts.foldl (storeDraft (enabledKeys drafts)) (storedMonitors previous)))
  have hstored := storedMonitors_buildDocument hprevious drafts
  rw [hbuild] at hstored ⊢
  simp only [buildDocument, objectFields?, clone_storable hdocument, Option.elim_some,
    Option.getD_some]
  rw [setOwn_self (storable_obj_iff.mp hdocument).1, hstored, hsame,
    setOwn_self (storable_obj_iff.mp hdocument).1]
  · rw [hfinal, if_pos rfl]
  · rw [hfinal, if_neg (by decide), hversion, if_pos rfl]

/-- The entries say what the drafts say, whatever belongs to no draft stays, and
saving again changes nothing. -/
theorem buildDragged_saves {previous : JsValue} (hprevious : Storable previous)
    {drafts : List Dragged}
    (hfinite : ∀ dragged ∈ drafts, dragged.draft.Finite dragged.x dragged.y)
    (hapart : Apart (storedMonitors previous) (drafts.map Dragged.rounded)) :
    Saves previous (drafts.map Dragged.rounded) (buildDragged previous drafts) ∧
      buildDragged (buildDragged previous drafts) drafts = buildDragged previous drafts := by
  have hrounded : ∀ draft ∈ drafts.map Dragged.rounded, draft.Finite draft.x draft.y := by
    intro draft hdraft
    obtain ⟨dragged, hdragged, rfl⟩ := List.mem_map.mp hdraft
    exact Dragged.finite_rounded (hfinite dragged hdragged)
  exact ⟨buildDocument_saves hprevious hrounded hapart,
    buildDocument_again hprevious hrounded hapart⟩

/-! ### Entries that are lost or rounded -/

def dragged (key name : String) : Dragged := ⟨{ key := ascii key, name := ascii name }, 0, 0⟩

/-- The entry of a draft in the document saved over a previous one. -/
def savedEntry (previous : JsValue) (drafts : List Dragged) (draft : Draft) : Option Fields :=
  (storedEntry (buildDragged previous drafts) draft.name draft.description draft.key).bind
    objectFields?

/-- A draft at a scale of five thirds and a rate beyond the thousandths. -/
def fractional : Dragged :=
  ⟨{ key := ascii "DP-1", name := ascii "DP-1",
     mode := .size ⟨1920, 1080, Binary64.nearest (599996 / 10000 + 1 / 16384)⟩,
     scale := .value (Binary64.nearest (5 / 3)) }, 0, 0⟩

/-- A field of this name is read from a file, but assigning it sets the
prototype. -/
def named : JsValue :=
  .obj [(ascii "monitors", .obj [(ascii "DP-1", .obj [(PROTO, .bool true)])])]

/-- The entry stored under another draft's connector is taken as that one's;
scale and rate come back rounded; and one unknown field does not survive. -/
theorem saved_otherwise :
    (savedEntry (.obj []) [dragged "DP-2" "DP-1", dragged "desc:Dell" "DP-2"]
        (dragged "DP-2" "DP-1").draft).isNone = true ∧
      ((savedEntry (.obj []) [fractional] fractional.draft).bind settingsIn).map
        Settings.scale ≠ some fractional.draft.scale ∧
      ((savedEntry (.obj []) [fractional] fractional.draft).bind settingsIn).map
        Settings.mode ≠ some fractional.draft.mode ∧
      (((storedMonitors named).lookup (ascii "DP-1")).bind
        (Value.field? PROTO)).isSome = true ∧
      ((savedEntry named [dragged "DP-1" "DP-1"] (dragged "DP-1" "DP-1").draft).bind
        (List.lookup PROTO)).isNone = true := by
  decide +kernel

/-- The built-in output, dragged to a position between pixels. -/
theorem buildDragged_saves_builtIn :
    buildDragged (buildDragged (recordedAs builtIn.description)
        (builtInDrafts.map fun draft => ⟨draft, 1 / 2, 0⟩))
        (builtInDrafts.map fun draft => ⟨draft, 1 / 2, 0⟩) =
      buildDragged (recordedAs builtIn.description)
        (builtInDrafts.map fun draft => ⟨draft, 1 / 2, 0⟩) := by
  have hwhole : ∀ n : ℤ, |n| ≤ 2 ^ 53 → IsDouble n := fun n hn => isDouble_intCast hn
  have hhalf : IsDouble (1 / 2) := by
    have hnearest := isDouble_nearest (show |(1 / 2 : ℚ)| ≤ 2 ^ 1023 from
      (abs_le_one_iff_mul_self_le_one.mpr (by norm_num)).trans (one_le_pow₀ (by norm_num)))
    have hexact : Binary64.nearest (1 / 2) = 1 / 2 := by decide +kernel
    rwa [hexact] at hnearest
  refine (buildDragged_saves (recordedAs_storable _) ?_ ?_).2
  · intro dragged hdragged
    obtain rfl := List.mem_singleton.mp hdragged
    exact ⟨(fun mode hmode => nomatch hmode), (fun scale hscale => nomatch hscale),
      by exact_mod_cast hwhole 0 (by norm_num), by exact_mod_cast hwhole (-1) (by norm_num),
      hhalf, by exact_mod_cast hwhole 0 (by norm_num)⟩
  · refine ⟨List.nodup_singleton _, List.nodup_singleton _, by decide +kernel,
      fun draft hdraft other hother hkey hmoves => ?_⟩
    obtain rfl := List.mem_singleton.mp hdraft
    obtain rfl := List.mem_singleton.mp hother
    exact absurd hkey hmoves

end Displays

end CybexOS
