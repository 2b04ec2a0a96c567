/-
What `fitBar` promises: lanes that do not collide when it reports a fit, nothing
hidden before the labels, and two accounts of the centre's width.
-/
import CybexOS.Bar.FitBar

namespace CybexOS

namespace Bar

open Settings (Column)

variable {options : Options} {lanes : Lanes} {entry : Entry}

/-! ### Entries by their ids -/

theorem find_id {entries : List Entry} (h : (entries.map (·.id)).Nodup) (he : entry ∈ entries) :
    entries.find? (·.id = entry.id) = some entry := by
  induction entries with
  | nil => cases he
  | cons first rest ih =>
      rw [List.map_cons, List.nodup_cons] at h
      rcases List.mem_cons.mp he with rfl | he
      · exact List.find?_cons_of_pos (decide_eq_true rfl)
      · have hne : first.id ≠ entry.id := fun heq =>
          h.1 (heq ▸ List.mem_map_of_mem he)
        rw [List.find?_cons_of_neg (by simpa using hne)]
        exact ih h.2 he

/-! ### The accounts of the centre -/

/-- What an entry of the centre takes from each side when its detail is given up. -/
def share (options : Options) (entry : Entry) (side : Side) : ℚ :=
  if options.centerExtents.isSome then (if entry.side = side then entry.amount else 0)
  else entry.amount / 2

def compactShare (options : Options) (side : Side) (id : Text) : ℚ :=
  match options.entries.find? (·.id = id) with
  | some entry => if entry.col = some .center then share options entry side else 0
  | none => 0

def hiddenShare (options : Options) (compact : List Text) (side : Side) (id : Text) : ℚ :=
  match options.entries.find? (·.id = id) with
  | some entry =>
      if entry.col = some .center ∧ entry.side = side then hiddenWidth compact entry else 0
  | none => 0

/-- All that the compacted and the hidden entries take from a side of the centre. -/
def givenUp (options : Options) (compact overflow : List Text) (side : Side) : ℚ :=
  (compact.map (compactShare options side)).sum +
    (overflow.map (hiddenShare options compact side)).sum

/-- Both accounts as what is left of the extents, each of them clamped on its own. -/
structure Ledger (options : Options) (lanes : Lanes) (given : Side → ℚ) : Prop where
  center : ∀ side, lanes.center side = max 0 (options.extents side - given side)
  width : lanes.widths .center =
    max 0 (options.extents .left + options.extents .right - (given .left + given .right))

theorem max_zero_sub {x a : ℚ} (ha : 0 ≤ a) : max 0 (max 0 x - a) = max 0 (x - a) := by
  rcases le_total 0 x with hx | hx
  · rw [max_eq_right hx]
  · rw [max_eq_left hx, max_eq_left (by linarith), max_eq_left (by linarith)]

theorem Options.extents_nonneg (options : Options) (side : Side) : 0 ≤ options.extents side := by
  unfold extents
  cases options.centerExtents with
  | none => exact div_nonneg (le_max_left _ _) (by norm_num)
  | some extents => exact le_max_left _ _

theorem Entry.amount_nonneg (entry : Entry) : 0 ≤ entry.amount := le_max_left _ _

theorem hiddenWidth_nonneg (compact : List Text) (entry : Entry) : 0 ≤ hiddenWidth compact entry :=
  le_max_left _ _

theorem share_nonneg (options : Options) (entry : Entry) (side : Side) :
    0 ≤ share options entry side := by
  unfold share
  have hamount := entry.amount_nonneg
  split_ifs
  · exact hamount
  · exact le_rfl
  · linarith

theorem share_add (options : Options) (entry : Entry) :
    share options entry .left + share options entry .right = entry.amount := by
  unfold share
  split_ifs with hasym hleft hright hright
  · rw [hleft] at hright
    cases hright
  · exact add_zero _
  · exact zero_add _
  · cases hside : entry.side with
    | left => exact absurd hside hleft
    | right => exact absurd hside hright
  · ring

namespace Ledger

variable {given : Side → ℚ}

theorem start (options : Options) : Ledger options (start options) fun _ => 0 where
  center side := by
    rw [sub_zero, max_eq_right (options.extents_nonneg side)]
    rfl
  width := by
    have hleft := options.extents_nonneg .left
    have hright := options.extents_nonneg .right
    rw [add_zero, sub_zero, max_eq_right (by linarith), Bar.start]
    dsimp only
    rw [Function.update_self]

theorem center_nonneg (h : Ledger options lanes given) (side : Side) : 0 ≤ lanes.center side := by
  rw [h.center]
  exact le_max_left _ _

/-- Both accounts after something was taken from the sides. -/
theorem take (h : Ledger options lanes given) {after : Lanes} {amounts : Side → ℚ}
    (hpos : ∀ side, 0 ≤ amounts side)
    (hcenter : ∀ side, after.center side = max 0 (lanes.center side - amounts side))
    (hwidth : after.widths .center =
      max 0 (lanes.widths .center - (amounts .left + amounts .right))) :
    Ledger options after fun side => given side + amounts side where
  center side := by
    rw [hcenter, h.center, max_zero_sub (hpos side), sub_sub]
  width := by
    have hleft := hpos .left
    have hright := hpos .right
    rw [hwidth, h.width, max_zero_sub (by linarith), sub_sub]
    congr 2
    ring

/-- The accounts only speak of the centre. -/
theorem congr (h : Ledger options lanes given) {after : Lanes} {given' : Side → ℚ}
    (hcenter : after.center = lanes.center)
    (hwidth : after.widths .center = lanes.widths .center) (hgiven : given' = given) :
    Ledger options after given' where
  center side := by rw [hcenter, hgiven, h.center]
  width := by rw [hwidth, hgiven, h.width]

end Ledger

theorem narrowed_eq {given : Side → ℚ} (h : Ledger options lanes given) (entry : Entry)
    (side : Side) : narrowed options lanes.center entry side =
      max 0 (lanes.center side - share options entry side) := by
  unfold narrowed share
  by_cases hasym : options.centerExtents.isSome = true
  · rw [if_pos hasym, if_pos hasym]
    by_cases hside : entry.side = side
    · rw [if_pos hside, hside, Function.update_self]
    · rw [if_neg hside, Function.update_of_ne (Ne.symm hside), sub_zero,
        max_eq_right (h.center_nonneg side)]
  · rw [if_neg hasym, if_neg hasym]

/-! ### One detail text given up -/

theorem apply_of_mem (h : entry.id ∈ lanes.compact) : apply options lanes entry = lanes :=
  if_pos h

theorem apply_compact (options : Options) (lanes : Lanes) (entry : Entry) :
    (apply options lanes entry).compact =
      if entry.id ∈ lanes.compact then lanes.compact else lanes.compact ++ [entry.id] := by
  unfold apply
  split_ifs
  · rfl
  · cases entry.col <;> rfl

theorem mem_apply (options : Options) (lanes : Lanes) (entry : Entry) (id : Text) :
    id ∈ (apply options lanes entry).compact ↔ id ∈ lanes.compact ∨ id = entry.id := by
  rw [apply_compact]
  split_ifs with h
  · exact ⟨Or.inl, fun hor => hor.elim (fun hmem => hmem) fun heq => heq ▸ h⟩
  · rw [List.mem_append, List.mem_singleton]

/-- What holds of the lanes while details are given up. -/
structure Compacting (options : Options) (lanes : Lanes) : Prop where
  nodup : lanes.compact.Nodup
  nonneg : ∀ col, 0 ≤ lanes.widths col
  ledger : Ledger options lanes (givenUp options lanes.compact [])

theorem Compacting.start (options : Options) : Compacting options (start options) where
  nodup := List.nodup_nil
  nonneg col := by
    unfold Bar.start
    dsimp only
    by_cases hcol : col = .center
    · rw [hcol, Function.update_self]
      exact add_nonneg (options.extents_nonneg _) (options.extents_nonneg _)
    · rw [Function.update_of_ne hcol]
      exact le_max_left _ _
  ledger := (Ledger.start options).congr rfl rfl (funext fun _ => add_zero _)

theorem givenUp_append (hdistinct : (options.entries.map (·.id)).Nodup)
    (he : entry ∈ options.entries) (compact : List Text) (side : Side) :
    givenUp options (compact ++ [entry.id]) [] side =
      givenUp options compact [] side +
        if entry.col = some .center then share options entry side else 0 := by
  unfold givenUp
  rw [List.map_append, List.sum_append, List.map_singleton, List.sum_singleton, compactShare,
    find_id hdistinct he]
  simp only [List.map_nil, List.sum_nil, add_zero]

theorem Compacting.apply (hdistinct : (options.entries.map (·.id)).Nodup)
    (h : Compacting options lanes) (he : entry ∈ options.entries) :
    Compacting options (apply options lanes entry) := by
  by_cases hmem : entry.id ∈ lanes.compact
  · rw [apply_of_mem hmem]
    exact h
  · have hgiven := givenUp_append hdistinct he lanes.compact
    have hcompact : (Bar.apply options lanes entry).compact = lanes.compact ++ [entry.id] := by
      rw [apply_compact, if_neg hmem]
    refine ⟨?_, ?_, ?_⟩
    · rw [hcompact]
      exact List.nodup_append.mpr ⟨h.nodup, List.nodup_singleton _, fun a ha b hb heq =>
        hmem (by rw [← List.mem_singleton.mp hb, ← heq]; exact ha)⟩
    · unfold Bar.apply
      rw [if_neg hmem]
      cases entry.col with
      | none => exact h.nonneg
      | some col =>
          intro other
          dsimp only
          by_cases hcol : other = col
          · rw [hcol, Function.update_self]
            exact le_max_left _ _
          · rw [Function.update_of_ne hcol]
            exact h.nonneg other
    · rw [hcompact]
      unfold Bar.apply
      rw [if_neg hmem]
      cases hcol : entry.col with
      | none =>
          refine h.ledger.congr rfl rfl (funext fun side => ?_)
          rw [hgiven, hcol, if_neg (by simp), add_zero]
      | some col =>
          by_cases hcenter : col = .center
          · have hsum : givenUp options (lanes.compact ++ [entry.id]) [] = fun side =>
                givenUp options lanes.compact [] side + share options entry side := by
              funext side
              rw [hgiven, hcol, hcenter, if_pos rfl]
            rw [hsum]
            refine h.ledger.take (share_nonneg options entry) (fun side => ?_) ?_
            · dsimp only
              rw [if_pos hcenter]
              exact narrowed_eq h.ledger entry side
            · dsimp only
              rw [hcenter, Function.update_self, share_add]
          · refine h.ledger.congr (if_neg hcenter) (Function.update_of_ne (Ne.symm hcenter) _ _)
              (funext fun side => ?_)
            rw [hgiven, hcol, if_neg (by simpa using hcenter), add_zero]

/-! ### All of them -/

/-- The compaction is `apply` after `apply`, of every candidate unless the lanes fit. -/
theorem compactLoop_eq (options : Options) (candidates : List Entry) (lanes : Lanes) :
    ∃ applied, applied <+: candidates ∧
      compactLoop options candidates lanes = applied.foldl (apply options) lanes ∧
      ((geometry options (compactLoop options candidates lanes)).fits = false →
        applied = candidates) := by
  induction candidates generalizing lanes with
  | nil => exact ⟨[], List.prefix_rfl, rfl, fun _ => rfl⟩
  | cons entry rest ih =>
      rw [compactLoop]
      split_ifs with hfits
      · refine ⟨[], List.nil_prefix, rfl, fun h => ?_⟩
        rw [hfits] at h
        cases h
      · obtain ⟨applied, hstart, hrun, hall⟩ := ih (apply options lanes entry)
        refine ⟨entry :: applied, List.cons_prefix_cons.mpr ⟨rfl, hstart⟩, hrun, fun h => ?_⟩
        rw [hall h]

theorem Compacting.foldl (hdistinct : (options.entries.map (·.id)).Nodup)
    (h : Compacting options lanes) {applied : List Entry}
    (he : ∀ entry ∈ applied, entry ∈ options.entries) :
    Compacting options (applied.foldl (Bar.apply options) lanes) := by
  induction applied generalizing lanes with
  | nil => exact h
  | cons entry applied ih =>
      exact ih (h.apply hdistinct (he entry List.mem_cons_self))
        fun other hother => he other (List.mem_cons_of_mem _ hother)

theorem mem_foldl_apply (options : Options) (applied : List Entry) (lanes : Lanes) (id : Text) :
    id ∈ (applied.foldl (apply options) lanes).compact ↔
      id ∈ lanes.compact ∨ ∃ entry ∈ applied, id = entry.id := by
  induction applied generalizing lanes with
  | nil => simp
  | cons entry applied ih =>
      rw [List.foldl_cons, ih, mem_apply, or_assoc]
      simp

/-- An entry whose detail text can be given up. -/
def Eligible (entry : Entry) : Prop :=
  entry.policy = ascii "compact" ∨
    (entry.policy = ascii "auto" ∨ entry.policy = ascii "prefer") ∧ entry.id ∈ COMPACT_ORDER ∧
      0 < entry.saving

theorem mem_ordered (h : entry ∈ ordered options) : entry ∈ options.entries := by
  unfold ordered at h
  obtain ⟨policy, -, h⟩ := List.mem_flatMap.mp h
  obtain ⟨id, -, h⟩ := List.mem_flatMap.mp h
  exact List.mem_of_find?_eq_some (Option.mem_toList.mp h)

/-- Every eligible entry is a candidate, or one of the same id is. -/
theorem Eligible.candidate (h : Eligible entry) (he : entry ∈ options.entries) :
    ∃ other ∈ forced options ++ ordered options, entry.id = other.id := by
  rcases h with hpolicy | ⟨hpolicy, hid, hsaving⟩
  · refine ⟨entry, List.mem_append_left _ ?_, rfl⟩
    exact List.mem_filter.mpr ⟨he, decide_eq_true hpolicy⟩
  · have hamount : 0 < entry.amount := lt_max_of_lt_right hsaving
    have hfound : (options.entries.find? fun item =>
        item.id = entry.id ∧ item.policy = entry.policy ∧ 0 < item.amount).isSome = true := by
      rw [List.find?_isSome]
      exact ⟨entry, he, decide_eq_true ⟨rfl, rfl, hamount⟩⟩
    obtain ⟨other, hother⟩ := Option.isSome_iff_exists.mp hfound
    have hsame : other.id = entry.id := by
      have hfits := List.find?_some hother
      exact (of_decide_eq_true hfits).1
    refine ⟨other, List.mem_append_right _ ?_, hsame.symm⟩
    refine List.mem_flatMap.mpr ⟨entry.policy, by simpa using hpolicy, ?_⟩
    exact List.mem_flatMap.mpr ⟨entry.id, hid, Option.mem_toList.mpr hother⟩

theorem compacted_compacting (hdistinct : (options.entries.map (·.id)).Nodup) :
    Compacting options (compacted options) := by
  obtain ⟨applied, hstart, hrun, -⟩ := compactLoop_eq options (ordered options)
    ((forced options).foldl (apply options) (start options))
  unfold compacted
  rw [hrun]
  refine ((Compacting.start options).foldl hdistinct fun entry h => ?_).foldl hdistinct
    fun entry h => mem_ordered (hstart.subset h)
  exact List.mem_of_mem_filter h

/-- Where the lanes still do not fit every eligible entry was compacted. -/
theorem compacted_all (hfits : (geometry options (compacted options)).fits = false)
    (he : entry ∈ options.entries) (h : Eligible entry) :
    entry.id ∈ (compacted options).compact := by
  obtain ⟨applied, -, hrun, hall⟩ := compactLoop_eq options (ordered options)
    ((forced options).foldl (apply options) (start options))
  obtain ⟨other, hother, hid⟩ := h.candidate he
  have happlied := hall hfits
  unfold compacted
  rw [hrun, happlied, mem_foldl_apply, mem_foldl_apply]
  rcases List.mem_append.mp hother with hmem | hmem
  · exact Or.inl (Or.inr ⟨other, hmem, hid⟩)
  · exact Or.inr ⟨other, hmem, hid⟩

/-! ### Places -/

/-- The lanes keep their distance around the place. -/
def Clear (options : Options) (lanes : Lanes) (placed : Placement) : Prop :=
  placed.fits = true →
    lanes.widths .left + options.gap ≤ placed.centerX ∧
      placed.centerX + (lanes.center .left + lanes.center .right) + options.gap ≤
        options.available - lanes.widths .right

theorem geometry_clear (options : Options) (lanes : Lanes) (shifted : Bool) :
    Clear options lanes ⟨(geometry options lanes).desired, shifted, (geometry options lanes).fits⟩ := by
  intro hfits
  have hboth := (Bool.and_eq_true _ _).mp hfits
  have hleft := of_decide_eq_true hboth.1
  have hright := of_decide_eq_true hboth.2
  exact ⟨hleft, by rw [← add_assoc]; exact hright⟩

theorem place_clear (options : Options) (lanes : Lanes) :
    Clear options lanes (place options lanes) := by
  unfold place
  dsimp only
  split_ifs with hfits hroom
  · have hclear := geometry_clear options lanes false
    rw [hfits] at hclear
    exact hclear
  · intro _
    have hlow : lanes.widths .left + options.gap ≤ clamp (geometry options lanes).desired
        (lanes.widths .left + options.gap) ((geometry options lanes).rightX - options.gap -
          lanes.center .left - lanes.center .right) := le_max_left _ _
    have hhigh : clamp (geometry options lanes).desired
        (lanes.widths .left + options.gap) ((geometry options lanes).rightX - options.gap -
          lanes.center .left - lanes.center .right) ≤
        (geometry options lanes).rightX - options.gap - lanes.center .left -
          lanes.center .right := max_le hroom (min_le_left _ _)
    refine ⟨hlow, ?_⟩
    have hright : (geometry options lanes).rightX = options.available - lanes.widths .right := rfl
    linarith
  · intro h
    cases h

theorem place_fits_of_geometry (h : (geometry options lanes).fits = true) :
    (place options lanes).fits = true := by
  unfold place
  rw [if_pos h]

/-! ### Hiding modules -/

/-- What holds while modules are hidden, the ids so far tried being `done`. -/
structure Hiding (options : Options) (done : List Text) (state : Overflowing) : Prop where
  compact : state.lanes.compact = (compacted options).compact
  names : state.overflow.Sublist done
  nonneg : ∀ col, 0 ≤ state.lanes.widths col
  ledger : Ledger options state.lanes (givenUp options state.lanes.compact state.overflow)
  clear : Clear options state.lanes state.placed
  tried : ∀ id ∈ done, ∀ hidden, options.entries.find? (·.id = id) = some hidden →
    hidden.col ≠ none → id ∈ state.overflow

theorem Hiding.reserve (h : Compacting options (compacted options)) :
    Hiding options [] (reserve options (compacted options)) where
  compact := rfl
  names := List.Sublist.slnil
  nonneg col := by
    unfold Bar.reserve
    dsimp only
    by_cases hcol : col = .right
    · rw [hcol, Function.update_self]
      exact add_nonneg (h.nonneg _) (le_max_left _ _)
    · rw [Function.update_of_ne hcol]
      exact h.nonneg col
  ledger := by
    refine h.ledger.congr rfl ?_ rfl
    unfold Bar.reserve
    dsimp only
    rw [Function.update_of_ne (by decide)]
  clear := geometry_clear _ _ _
  tried id hid := nomatch hid

variable {state : Overflowing} {done : List Text} {id : Text}

/-- An id of no lane is passed over. -/
theorem Hiding.skip (h : Hiding options done state)
    (hnone : ∀ hidden, options.entries.find? (·.id = id) = some hidden → hidden.col = none) :
    Hiding options (done ++ [id]) state where
  compact := h.compact
  names := h.names.trans (List.sublist_append_left _ _)
  nonneg := h.nonneg
  ledger := h.ledger
  clear := h.clear
  tried other hother hidden hfind hcol := by
    rcases List.mem_append.mp hother with hother | hother
    · exact h.tried other hother hidden hfind hcol
    · rw [List.mem_singleton.mp hother] at hfind
      exact absurd (hnone hidden hfind) hcol

theorem Hiding.step (h : Hiding options done state) {hidden : Entry} {col : Column}
    (hfind : options.entries.find? (·.id = id) = some hidden) (hcol : hidden.col = some col) :
    Hiding options (done ++ [id]) (overflowStep options state hidden col) := by
  have hid : hidden.id = id := by
    have hfits := List.find?_some hfind
    exact of_decide_eq_true hfits
  have hgiven : ∀ side, givenUp options state.lanes.compact (state.overflow ++ [id]) side =
      givenUp options state.lanes.compact state.overflow side +
        if col = .center ∧ hidden.side = side then hiddenWidth state.lanes.compact hidden
        else 0 := by
    intro side
    unfold givenUp
    rw [List.map_append, List.sum_append, List.map_singleton, List.sum_singleton, hiddenShare,
      hfind]
    simp only [hcol, Option.some.injEq]
    rw [add_assoc]
  have hamount := hiddenWidth_nonneg state.lanes.compact hidden
  have hledger : Ledger options (hide state.lanes hidden col)
      (givenUp options state.lanes.compact (state.overflow ++ [id])) := by
    by_cases hcenter : col = .center
    · rw [funext hgiven]
      refine h.ledger.take (fun side => ?_) (fun side => ?_) ?_
      · split_ifs
        · exact hamount
        · exact le_rfl
      · unfold hide
        dsimp only
        rw [if_pos hcenter]
        by_cases hside : hidden.side = side
        · rw [if_pos ⟨hcenter, hside⟩, hside, Function.update_self]
        · rw [if_neg fun hboth => hside hboth.2, Function.update_of_ne (Ne.symm hside), sub_zero,
            max_eq_right (h.ledger.center_nonneg side)]
      · unfold hide
        dsimp only
        rw [hcenter, Function.update_self]
        congr 2
        cases hidden.side <;> simp
    · refine h.ledger.congr (if_neg hcenter) (Function.update_of_ne (Ne.symm hcenter) _ _)
        (funext fun side => ?_)
      rw [hgiven, if_neg fun hboth => hcenter hboth.1, add_zero]
  refine ⟨h.compact, ?_, fun other => ?_, ?_, place_clear _ _, ?_⟩
  · exact hid ▸ h.names.append_right [hidden.id]
  · unfold overflowStep hide
    dsimp only
    by_cases hsame : other = col
    · rw [hsame, Function.update_self]
      exact le_max_left _ _
    · rw [Function.update_of_ne hsame]
      exact h.nonneg other
  · unfold overflowStep
    rw [hid]
    exact hledger
  · intro other hother found hfound hlane
    unfold overflowStep
    dsimp only
    rw [hid, List.mem_append, List.mem_singleton]
    rcases List.mem_append.mp hother with hother | hother
    · exact Or.inl (h.tried other hother found hfound hlane)
    · exact Or.inr (List.mem_singleton.mp hother)

/-- Ids are tried until the lanes fit. -/
theorem Hiding.loop (h : Hiding options done state) (ids : List Text) :
    ∃ tried, tried <+: ids ∧ Hiding options (done ++ tried) (overflowLoop options ids state) ∧
      ((overflowLoop options ids state).placed.fits = false → tried = ids) := by
  induction ids generalizing done state with
  | nil => exact ⟨[], List.prefix_rfl, by rwa [List.append_nil], fun _ => rfl⟩
  | cons id ids ih =>
      have hmore : ∀ {next : Overflowing}, Hiding options (done ++ [id]) next →
          ∃ tried, tried <+: id :: ids ∧
            Hiding options (done ++ tried) (overflowLoop options ids next) ∧
            ((overflowLoop options ids next).placed.fits = false → tried = id :: ids) := by
        intro next hnext
        obtain ⟨tried, hstart, hrun, hall⟩ := ih hnext
        refine ⟨id :: tried, List.cons_prefix_cons.mpr ⟨rfl, hstart⟩, ?_, fun hfits => ?_⟩
        · rwa [List.append_cons]
        · rw [hall hfits]
      rw [overflowLoop]
      split_ifs with hfits
      · refine ⟨[], List.nil_prefix, by rwa [List.append_nil], fun hnot => ?_⟩
        rw [hfits] at hnot
        cases hnot
      · cases hfind : options.entries.find? (·.id = id) with
        | none =>
            refine hmore (h.skip fun hidden hsome => ?_)
            rw [hfind] at hsome
            cases hsome
        | some hidden =>
            dsimp only
            cases hcol : hidden.col with
            | none =>
                refine hmore (h.skip fun other hother => ?_)
                rw [hfind] at hother
                cases hother
                exact hcol
            | some col => exact hmore (h.step hfind hcol)

/-! ### The result -/

/-- What is left of a side of the centre, negative where more was taken. -/
def spare (options : Options) (fit : Fit) (side : Side) : ℚ :=
  options.extents side - givenUp options fit.compact fit.overflow side

theorem max_zero_add_le (a b : ℚ) : max 0 (a + b) ≤ max 0 a + max 0 b :=
  max_le (add_nonneg (le_max_left _ _) (le_max_left _ _))
    (add_le_add (le_max_right _ _) (le_max_right _ _))

/-- Clamping the sum or the parts makes a difference only for parts of two signs. -/
theorem max_zero_add_eq {a b : ℚ} :
    max 0 (a + b) = max 0 a + max 0 b ↔ ¬ (a < 0 ∧ 0 < b ∨ b < 0 ∧ 0 < a) := by
  rcases le_total 0 a with ha | ha <;> rcases le_total 0 b with hb | hb
  · rw [max_eq_right ha, max_eq_right hb, max_eq_right (add_nonneg ha hb)]
    simp only [true_iff, not_or, not_and, not_lt]
    exact ⟨fun h => absurd h ha.not_gt, fun h => absurd h hb.not_gt⟩
  · rw [max_eq_right ha, max_eq_left hb, add_zero]
    constructor
    · rintro h (⟨hneg, -⟩ | ⟨hneg, hpos⟩)
      · exact absurd hneg ha.not_gt
      · rcases max_choice 0 (a + b) with hmax | hmax <;> rw [hmax] at h <;> linarith
    · intro h
      rw [not_or, not_and, not_and] at h
      rcases hb.lt_or_eq with hneg | hzero
      · have hle : a ≤ 0 := not_lt.mp (h.2 hneg)
        rw [max_eq_left (by linarith)]
        linarith
      · rw [hzero, add_zero, max_eq_right ha]
  · rw [max_eq_left ha, max_eq_right hb, zero_add]
    constructor
    · rintro h (⟨hneg, hpos⟩ | ⟨hneg, -⟩)
      · rcases max_choice 0 (a + b) with hmax | hmax <;> rw [hmax] at h <;> linarith
      · exact absurd hneg hb.not_gt
    · intro h
      rw [not_or, not_and, not_and] at h
      rcases ha.lt_or_eq with hneg | hzero
      · have hle : b ≤ 0 := not_lt.mp (h.1 hneg)
        rw [max_eq_left (by linarith)]
        linarith
      · rw [hzero, zero_add, max_eq_right hb]
  · rw [max_eq_left ha, max_eq_left hb, max_eq_left (add_nonpos ha hb), add_zero]
    simp only [true_iff, not_or, not_and, not_lt]
    exact ⟨fun _ => hb, fun _ => ha⟩

/-- What is known when `fitBar` returns. -/
theorem settled_hiding (hdistinct : (options.entries.map (·.id)).Nodup) :
    ∃ tried, tried <+: OVERFLOW_ORDER ∧ Hiding options tried (settled options) ∧
      ((settled options).placed.fits = false → tried = OVERFLOW_ORDER) ∧
      ((settled options).overflow ≠ [] → (geometry options (compacted options)).fits = false) := by
  have hcompacting := compacted_compacting hdistinct
  unfold settled
  dsimp only
  split_ifs with hplaced
  · refine ⟨[], List.nil_prefix, ?_, fun hfits => ?_, fun hne => absurd rfl hne⟩
    · exact ⟨rfl, List.Sublist.slnil, hcompacting.nonneg, hcompacting.ledger, place_clear _ _,
        fun id hid => nomatch hid⟩
    · rw [hplaced] at hfits
      cases hfits
  · obtain ⟨tried, hstart, hrun, hall⟩ := (Hiding.reserve hcompacting).loop OVERFLOW_ORDER
    refine ⟨tried, hstart, hrun, hall, fun _ => ?_⟩
    exact Bool.eq_false_iff.mpr fun hfits => hplaced (place_fits_of_geometry hfits)

/-- A fit leaves room between the lanes, modules are hidden last and all of them
before the fit is given up, and the accounts of the centre differ exactly where
one side was overdrawn and the other one was not. -/
theorem fitBar_settles (options : Options) (hdistinct : (options.entries.map (·.id)).Nodup) :
    ((fitBar options).fits = true →
      (fitBar options).widths .left + options.gap ≤ (fitBar options).centerX ∧
        (fitBar options).centerX + (fitBar options).widths .center + options.gap ≤
          options.available - (fitBar options).widths .right) ∧
    ((fitBar options).fits = false → ∀ entry ∈ options.entries, entry.id ∈ OVERFLOW_ORDER →
      entry.col ≠ none → entry.id ∈ (fitBar options).overflow) ∧
    ((fitBar options).overflow ≠ [] →
      ∀ entry ∈ options.entries, Eligible entry → entry.id ∈ (fitBar options).compact) ∧
    (fitBar options).compact.Nodup ∧ (fitBar options).overflow.Nodup ∧
    (∀ col, 0 ≤ (fitBar options).widths col) ∧
    (∀ side, 0 ≤ (fitBar options).centerExtents side) ∧
    (fitBar options).widths .center ≤
      (fitBar options).centerExtents .left + (fitBar options).centerExtents .right ∧
    ((fitBar options).widths .center =
        (fitBar options).centerExtents .left + (fitBar options).centerExtents .right ↔
      ¬ (spare options (fitBar options) .left < 0 ∧ 0 < spare options (fitBar options) .right ∨
        spare options (fitBar options) .right < 0 ∧
          0 < spare options (fitBar options) .left)) := by
  obtain ⟨tried, hstart, hrun, hall, hlast⟩ := settled_hiding hdistinct
  have hcenter : ∀ side, (fitBar options).centerExtents side =
      max 0 (spare options (fitBar options) side) := fun side => hrun.ledger.center side
  have hwidth : (fitBar options).widths .center =
      max 0 (spare options (fitBar options) .left + spare options (fitBar options) .right) := by
    have haccount := hrun.ledger.width
    rw [add_sub_add_comm] at haccount
    exact haccount
  have hle : (fitBar options).widths .center ≤
      (fitBar options).centerExtents .left + (fitBar options).centerExtents .right := by
    rw [hwidth, hcenter, hcenter]
    exact max_zero_add_le _ _
  refine ⟨fun hfits => ?_, fun hfits entry he hid hcol => ?_, fun hne entry he heligible => ?_, ?_,
    ?_, hrun.nonneg, fun side => ?_, hle, ?_⟩
  · obtain ⟨hleft, hright⟩ := hrun.clear hfits
    exact ⟨hleft, by
      have hright : (fitBar options).centerX +
          ((fitBar options).centerExtents .left + (fitBar options).centerExtents .right) +
            options.gap ≤ options.available - (fitBar options).widths .right := hright
      linarith⟩
  · refine hrun.tried entry.id ?_ entry (find_id hdistinct he) hcol
    rw [hall hfits]
    exact hid
  · have hcompact : (fitBar options).compact = (compacted options).compact := hrun.compact
    rw [hcompact]
    exact compacted_all (hlast hne) he heligible
  · have hcompact : (fitBar options).compact = (compacted options).compact := hrun.compact
    rw [hcompact]
    exact (compacted_compacting hdistinct).nodup
  · have horder : OVERFLOW_ORDER.Nodup := by decide
    exact hrun.names.nodup (hstart.sublist.nodup horder)
  · rw [hcenter]
    exact le_max_left _ _
  · rw [hwidth, hcenter, hcenter]
    exact max_zero_add_eq

/-- The weather alone in the centre, left of the middle, in a bar that has no room. -/
def loneWeather : Options where
  width := 200
  sideMargin := 0
  gutter := none
  widths := fun col => if col = .center then 110 else 90
  centerExtents := some fun _ => 55
  entries := [⟨ascii "weather", some .center, 70, 110, ascii "auto", ascii "left"⟩]
  overflowWidth := 30

theorem fitBar_settles_loneWeather :
    (fitBar loneWeather).fits = false ∧ ascii "weather" ∈ (fitBar loneWeather).overflow := by
  have hdistinct : (loneWeather.entries.map (·.id)).Nodup := by decide
  have hfits : (fitBar loneWeather).fits = false := by decide +kernel
  refine ⟨hfits, ?_⟩
  exact (fitBar_settles loneWeather hdistinct).2.1 hfits _ List.mem_cons_self (by decide) (by decide)

/-- Nothing is in the centre any more, but one of its sides still is 55 wide. -/
theorem fitBar_accounts_differ :
    (loneWeather.entries.map (·.id)).Nodup ∧
      (fitBar loneWeather).widths .center = 0 ∧
      (fitBar loneWeather).centerExtents .left + (fitBar loneWeather).centerExtents .right = 55 ∧
      (fitBar loneWeather).widths .center ≠
        (fitBar loneWeather).centerExtents .left + (fitBar loneWeather).centerExtents .right := by
  refine ⟨by decide, ?_, ?_, ?_⟩ <;> decide +kernel

end Bar

end CybexOS
