/-
Runs of the Displays page's layout calls: drops, nudges and re-attachments in
any order, with one draft edited before a re-attachment.
-/
import CybexOS.Displays.LayoutInvariant

namespace CybexOS

namespace Displays

/-! ### Each call moves drafts -/

theorem setPosition_eq (drafts : List Draft) (key : Text) (position : ℤ × ℤ) :
    setPosition drafts key position = drafts.map fun draft =>
      draft.at (if draft.key = key then position else (draft.x, draft.y)) := by
  refine List.map_congr_left fun draft _ => ?_
  split <;> rfl

theorem applyRects_eq (drafts : List Draft) (done : List Rect) :
    applyRects drafts done = drafts.map fun draft =>
      draft.at (match done.find? (·.key = draft.key) with
        | some moved => (moved.x, moved.y)
        | none => (draft.x, draft.y)) := by
  refine List.map_congr_left fun draft _ => ?_
  cases done.find? (·.key = draft.key) <;> rfl

theorem shift_eq (dx dy : ℤ) (draft : Draft) :
    draft.shift dx dy = draft.at
      (if draft.isPlaced then (draft.x - dx, draft.y - dy)
        else (draft.x, draft.y)) := by
  unfold Draft.shift
  split <;> rfl

def Rect.shift (dx dy : ℤ) (rect : Rect) : Rect :=
  { rect with x := rect.x - dx, y := rect.y - dy }

theorem overlaps_shift_iff (dx dy : ℤ) (a b : Rect) :
    Overlaps (a.shift dx dy) (b.shift dx dy) ↔ Overlaps a b := by
  simp only [Overlaps, Rect.shift]
  omega

theorem touches_shift_iff (dx dy : ℤ) (a b : Rect) :
    Touches (a.shift dx dy) (b.shift dx dy) ↔ Touches a b := by
  simp only [Touches, Rect.shift]
  omega

theorem rects_map_shift (dx dy : ℤ) (drafts : List Draft) :
    rects (drafts.map (Draft.shift dx dy)) =
      (rects drafts).map (Rect.shift dx dy) := by
  induction drafts with
  | nil => rfl
  | cons head tail ih =>
      by_cases hplaced : head.isPlaced = true
      · have hshift : (head.shift dx dy).isPlaced = true := by
          rw [shift_eq, Draft.at_isPlaced, hplaced]
        have hrect : (head.shift dx dy).toRect = head.toRect.shift dx dy := by
          rw [shift_eq, if_pos hplaced]
          rfl
        simp only [rects, placed, List.map_cons, List.filter_cons, hplaced,
          hshift, if_true, hrect]
        exact congrArg _ ih
      · have hshift : ¬ (head.shift dx dy).isPlaced = true := by
          rw [shift_eq, Draft.at_isPlaced]
          exact hplaced
        simp only [rects, placed, List.map_cons, List.filter_cons, hplaced,
          hshift]
        exact ih

theorem Separated.shift {list : List Rect} (h : Separated list) (dx dy : ℤ) :
    Separated (list.map (Rect.shift dx dy)) := by
  refine List.pairwise_map.mpr (h.imp fun hab => ?_)
  rwa [overlaps_shift_iff]

theorem Connected.shift {list : List Rect} (h : Connected list) (dx dy : ℤ) :
    Connected (list.map (Rect.shift dx dy)) := by
  intro shiftedA hshiftedA shiftedB hshiftedB
  obtain ⟨a, ha, rfl⟩ := List.mem_map.mp hshiftedA
  obtain ⟨b, hb, rfl⟩ := List.mem_map.mp hshiftedB
  have hpath := h a ha b hb
  refine Relation.ReflTransGen.lift (Rect.shift dx dy) (fun p q hpq => ?_)
    a b hpath
  exact ⟨List.mem_map_of_mem hpq.1, List.mem_map_of_mem hpq.2.1,
    (touches_shift_iff dx dy p q).mpr hpq.2.2⟩

/-! ### The origin -/

/-- The top-left corner of the arrangement is 0x0. -/
structure AtOrigin (list : List Rect) : Prop where
  inside : ∀ rect ∈ list, 0 ≤ rect.x ∧ 0 ≤ rect.y
  left : ∃ rect ∈ list, rect.x = 0
  top : ∃ rect ∈ list, rect.y = 0

theorem minimum_le (first : ℤ) (rest : List ℤ) {value : ℤ}
    (h : value ∈ first :: rest) : minimum first rest ≤ value := by
  induction rest generalizing first value with
  | nil => simp_all [minimum]
  | cons next rest ih =>
      rw [minimum]
      rcases List.mem_cons.mp h with rfl | hrest
      · exact min_le_left _ _
      · exact (min_le_right _ _).trans (ih next hrest)

theorem minimum_mem (first : ℤ) (rest : List ℤ) :
    minimum first rest ∈ first :: rest := by
  induction rest generalizing first with
  | nil => simp [minimum]
  | cons next rest ih =>
      rw [minimum]
      rcases min_choice first (minimum next rest) with h | h <;> rw [h]
      · exact List.mem_cons_self
      · exact List.mem_cons_of_mem first (ih next)

/-- Normalizing is one translation of everything placed, to the origin. -/
theorem normalize_shifts (drafts : List Draft) :
    ∃ dx dy, rects (normalize drafts) = (rects drafts).map (Rect.shift dx dy) ∧
      (rects drafts ≠ [] → AtOrigin (rects (normalize drafts))) := by
  unfold normalize
  split
  · next hnil =>
    refine ⟨0, 0, ?_, fun hne => absurd hnil hne⟩
    rw [hnil]
    rfl
  · next first rest hcons =>
    refine ⟨_, _, rects_map_shift _ _ drafts, fun _ => ?_⟩
    rw [rects_map_shift, hcons]
    have hmin : ∀ (f : Rect → ℤ), ∀ rect ∈ first :: rest,
        minimum (f first) (rest.map f) ≤ f rect := by
      intro f rect hrect
      exact minimum_le _ _ (List.mem_map_of_mem (f := f) hrect)
    have hattained : ∀ (f : Rect → ℤ), ∃ rect ∈ first :: rest,
        f rect = minimum (f first) (rest.map f) := by
      intro f
      exact List.mem_map.mp (minimum_mem (f first) (rest.map f))
    refine ⟨fun rect hrect => ?_, ?_, ?_⟩
    · obtain ⟨old, hold, rfl⟩ := List.mem_map.mp hrect
      exact ⟨sub_nonneg.mpr (hmin Rect.x old hold),
        sub_nonneg.mpr (hmin Rect.y old hold)⟩
    · obtain ⟨rect, hrect, heq⟩ := hattained Rect.x
      exact ⟨_, List.mem_map_of_mem hrect, sub_eq_zero.mpr heq⟩
    · obtain ⟨rect, hrect, heq⟩ := hattained Rect.y
      exact ⟨_, List.mem_map_of_mem hrect, sub_eq_zero.mpr heq⟩

theorem WellSized.normalize {drafts : List Draft} (h : WellSized drafts) :
    WellSized (normalize drafts) := by
  unfold Displays.normalize
  split
  · exact h
  · simp only [funext (shift_eq _ _)]
    exact h.moved _

/-- The drafts of a page: well sized, and nothing placed overlaps. -/
structure WellPlaced (drafts : List Draft) : Prop extends WellSized drafts where
  separated : Separated (rects drafts)

theorem WellSized.normalize_wellPlaced {drafts : List Draft}
    (h : WellSized drafts) (hsep : Separated (rects drafts)) :
    WellPlaced (Displays.normalize drafts) where
  toWellSized := h.normalize
  separated := by
    obtain ⟨dx, dy, hrects, -⟩ := normalize_shifts drafts
    rw [hrects]
    exact hsep.shift dx dy

theorem rects_normalize_ne_nil {drafts : List Draft} (h : rects drafts ≠ []) :
    rects (normalize drafts) ≠ [] := by
  obtain ⟨dx, dy, hrects, -⟩ := normalize_shifts drafts
  rwa [hrects, ne_eq, List.map_eq_nil_iff]

theorem rects_moved_ne_nil {drafts : List Draft} {draft : Draft}
    (hdraft : draft ∈ drafts) (hplaced : draft.isPlaced = true)
    (position : Draft → ℤ × ℤ) :
    rects (drafts.map fun draft => draft.at (position draft)) ≠ [] :=
  List.ne_nil_of_mem (mem_rects_moved.mpr ⟨draft, hdraft, hplaced, rfl⟩)

/-! ### Drops -/

/-- Dropping one rectangle where it overlaps no other keeps the rest apart. -/
theorem separated_setPosition {drafts : List Draft} (h : WellPlaced drafts)
    {moving : Draft} (hmoving : moving ∈ drafts) {position : ℤ × ℤ}
    (hfree : ∀ o ∈ rects drafts, o.key ≠ moving.key →
      ¬ Overlaps (moving.toRect.at position) o) :
    Separated (rects (setPosition drafts moving.key position)) := by
  have hsized : WellSized (setPosition drafts moving.key position) := by
    rw [setPosition_eq]
    exact h.moved _
  have hold := (separated_iff (rects_keys_nodup h.keys)).mp h.separated
  have hcases : ∀ rect ∈ rects (setPosition drafts moving.key position),
      rect = moving.toRect.at position ∨
        rect ∈ rects drafts ∧ rect.key ≠ moving.key := by
    intro rect hrect
    rw [setPosition_eq, mem_rects_moved] at hrect
    obtain ⟨draft, hdraft, hplaced, rfl⟩ := hrect
    by_cases hkey : draft.key = moving.key
    · have hsame : draft = moving :=
        List.inj_on_of_nodup_map h.keys hdraft hmoving hkey
      left
      rw [hsame, if_pos rfl]
    · right
      rw [if_neg hkey]
      exact ⟨mem_rects.mpr ⟨draft, hdraft, hplaced, rfl⟩, hkey⟩
  rw [separated_iff (rects_keys_nodup hsized.keys)]
  intro a ha b hb hab
  rcases hcases a ha with rfl | ⟨ha, hakey⟩ <;>
    rcases hcases b hb with rfl | ⟨hb, hbkey⟩
  · exact absurd rfl hab
  · exact hfree b hb hbkey
  · exact fun hover => hfree a ha hakey hover.symm
  · exact hold a ha b hb hab

theorem moveDisplay_wellPlaced {drafts : List Draft} (h : WellPlaced drafts)
    (key : Text) (x y : ℚ) (prefer : Option Side) :
    WellPlaced (moveDisplay drafts key x y prefer) := by
  unfold moveDisplay
  split
  · exact h
  · next moving hfound =>
    split
    · exact h
    · have hmem := List.mem_of_find?_eq_some hfound
      have hkey : moving.key = key := by
        simpa using List.find?_some hfound
      subst hkey
      dsimp only
      set target : Rect :=
        { moving.toRect with x := mathRound x, y := mathRound y }
      set others := (rects drafts).filter (·.key ≠ moving.key)
      have htarget : target.Solid := h.solid moving hmem
      have hsolid : ∀ o ∈ others, o.Solid := fun o ho =>
        h.rects_solid (List.mem_filter.mp ho).1
      have hfree : ∀ o ∈ rects drafts, o.key ≠ moving.key →
          ¬ Overlaps (moving.toRect.at (placeRect target others prefer)) o := by
        intro o ho hokey
        have hothers : o ∈ others := List.mem_filter.mpr ⟨ho, by simpa using hokey⟩
        have hfits := placeRect_fits htarget (List.ne_nil_of_mem hothers) hsolid
          prefer
        exact hfits.1 o hothers
      refine WellSized.normalize_wellPlaced ?_
        (separated_setPosition h hmem hfree)
      rw [setPosition_eq]
      exact h.moved _

/-- A call on a display that is shown ends at the origin. -/
theorem moveDisplay_atOrigin {drafts : List Draft} {key : Text}
    (hplaced : ∃ draft ∈ drafts, draft.isPlaced = true ∧ draft.key = key)
    (hkeys : (drafts.map Draft.key).Nodup) (x y : ℚ) (prefer : Option Side) :
    AtOrigin (rects (moveDisplay drafts key x y prefer)) := by
  obtain ⟨draft, hdraft, hshown, hkey⟩ := hplaced
  have hfound := find?_of_nodup Draft.key hkeys hdraft hkey
  rw [moveDisplay, hfound]
  simp only [hshown, Bool.not_true, Bool.false_eq_true, if_false]
  obtain ⟨-, -, -, horigin⟩ := normalize_shifts
    (setPosition drafts key (placeRect
      { draft.toRect with x := mathRound x, y := mathRound y }
      ((rects drafts).filter (·.key ≠ key)) prefer))
  refine horigin ?_
  rw [setPosition_eq]
  exact rects_moved_ne_nil hdraft hshown _

theorem nudge_wellPlaced {drafts : List Draft} (h : WellPlaced drafts)
    (key : Text) (direction : Option Side) :
    WellPlaced (nudge drafts key direction) := by
  unfold nudge
  split
  · split <;> exact moveDisplay_wellPlaced h _ _ _ _
  · exact h

theorem exists_draft_of_rect_key {drafts : List Draft} {key : Text}
    (h : ∃ rect ∈ rects drafts, rect.key = key) :
    ∃ draft ∈ drafts, draft.isPlaced = true ∧ draft.key = key := by
  obtain ⟨rect, hrect, hkey⟩ := h
  obtain ⟨draft, hdraft, hplaced, rfl⟩ := mem_rects.mp hrect
  exact ⟨draft, hdraft, hplaced, hkey⟩

theorem nudge_atOrigin {drafts : List Draft} {key : Text}
    (hself : ∃ rect ∈ rects drafts, rect.key = key)
    (hother : ∃ rect ∈ rects drafts, rect.key ≠ key)
    (hkeys : (drafts.map Draft.key).Nodup) (direction : Option Side) :
    AtOrigin (rects (nudge drafts key direction)) := by
  have hshown := exists_draft_of_rect_key hself
  unfold nudge
  split
  · split <;> exact moveDisplay_atOrigin hshown hkeys _ _ _
  · next hnone =>
    exfalso
    obtain ⟨self, hmem, hkey⟩ := hself
    obtain ⟨other, homem, hokey⟩ := hother
    have hfound := find?_of_nodup Rect.key (rects_keys_nodup hkeys) hmem hkey
    have hfiltered : other ∈ (rects drafts).filter (·.key ≠ key) :=
      List.mem_filter.mpr ⟨homem, by simpa using hokey⟩
    obtain ⟨first, rest, hcons⟩ :=
      List.exists_cons_of_ne_nil (List.ne_nil_of_mem hfiltered)
    exact hnone self first rest hfound hcons

/-! ### Re-attaching -/

theorem attachAll_arranged (before : List Rect) {anchor : Rect}
    (hanchor : anchor.Solid) {rest : List Rect}
    (hrest : ∀ rect ∈ rest, rect.Solid) :
    Arranged (attachAll before anchor rest) :=
  attachLoop_arranged hrest (Arranged.singleton hanchor)

/-- The drafts take exactly the rectangles of an arrangement of their own
keys and sizes. -/
theorem mem_rects_applyRects {drafts : List Draft}
    (hkeys : (drafts.map Draft.key).Nodup) {done : List Rect}
    (hdone : (done.map Rect.frame).Perm ((rects drafts).map Rect.frame))
    {rect : Rect} : rect ∈ rects (applyRects drafts done) ↔ rect ∈ done := by
  have hdoneKeys : (done.map Rect.key).Nodup := by
    have hperm := hdone.map Prod.fst
    simp only [List.map_map] at hperm
    exact hperm.nodup_iff.mpr (rects_keys_nodup hkeys)
  rw [applyRects_eq, mem_rects_moved]
  constructor
  · rintro ⟨draft, hdraft, hplaced, rfl⟩
    have hframe : draft.toRect.frame ∈ done.map Rect.frame :=
      hdone.mem_iff.mpr
        (List.mem_map_of_mem (mem_rects.mpr ⟨draft, hdraft, hplaced, rfl⟩))
    obtain ⟨moved, hmoved, hsame⟩ := List.mem_map.mp hframe
    have hfound := find?_of_nodup Rect.key hdoneKeys hmoved
      (b := draft.key) (congrArg Prod.fst hsame)
    rw [hfound]
    have hrect : draft.toRect.at (moved.x, moved.y) = moved := by
      simp only [Rect.frame, Prod.mk.injEq] at hsame
      simp only [Rect.at, ← hsame.1, ← hsame.2.1, ← hsame.2.2]
    exact hrect ▸ hmoved
  · intro hrect
    have hframe : rect.frame ∈ (rects drafts).map Rect.frame :=
      hdone.mem_iff.mp (List.mem_map_of_mem hrect)
    obtain ⟨old, hold, hsame⟩ := List.mem_map.mp hframe
    obtain ⟨draft, hdraft, hplaced, rfl⟩ := mem_rects.mp hold
    have hfound := find?_of_nodup Rect.key hdoneKeys hrect
      (b := draft.key) (congrArg Prod.fst hsame).symm
    refine ⟨draft, hdraft, hplaced, ?_⟩
    rw [hfound]
    simp only [Rect.frame, Prod.mk.injEq] at hsame
    simp only [Rect.at, hsame.1, hsame.2.1, hsame.2.2]

/-- The rectangles re-attached around the anchor, which does not move. -/
structure Reattached (drafts : List Draft) (anchor : Rect) : Prop
    extends WellSized drafts where
  arranged : Arranged (rects drafts)
  anchored : anchor ∈ rects drafts

theorem arranged_of_mem_iff {drafts : List Draft} {list : List Rect}
    (hkeys : (drafts.map Draft.key).Nodup) (hlist : (list.map Rect.key).Nodup)
    (hmem : ∀ {rect}, rect ∈ rects drafts ↔ rect ∈ list) (h : Arranged list) :
    Arranged (rects drafts) where
  nonempty := by
    obtain ⟨rect, hrect⟩ := List.exists_mem_of_ne_nil list h.nonempty
    exact List.ne_nil_of_mem (hmem.mpr hrect)
  solid := fun rect hrect => h.solid rect (hmem.mp hrect)
  separated := by
    have hsep := (separated_iff hlist).mp h.separated
    rw [separated_iff (rects_keys_nodup hkeys)]
    exact fun a ha b hb => hsep a (hmem.mp ha) b (hmem.mp hb)
  connected := by
    intro a ha b hb
    refine Relation.ReflTransGen.mono (fun p q hpq => ?_) a b
      (h.connected a (hmem.mp ha) b (hmem.mp hb))
    exact ⟨hmem.mpr hpq.1, hmem.mpr hpq.2.1, hpq.2.2⟩

theorem reattach_reattached {drafts : List Draft} (h : WellSized drafts)
    {anchor : Rect} (hanchor : anchor ∈ rects drafts)
    (previous : Option (List Draft)) :
    Reattached (reattach drafts anchor previous) anchor := by
  unfold reattach
  dsimp only
  set before := (previous.map rects).getD []
  set rest := ((rects drafts).erase anchor).insertionSort (CloserTo anchor)
  have hperm : (anchor :: rest).Perm (rects drafts) :=
    ((List.perm_insertionSort (CloserTo anchor) _).cons anchor).trans
      (List.perm_cons_erase hanchor).symm
  have hframes : ((attachAll before anchor rest).map Rect.frame).Perm
      ((rects drafts).map Rect.frame) := by
    rw [attachAll, attachLoop_frames]
    exact hperm.map Rect.frame
  have harranged : Arranged (attachAll before anchor rest) := by
    refine attachAll_arranged before (h.rects_solid hanchor) fun rect hrect => ?_
    exact h.rects_solid (hperm.mem_iff.mp (List.mem_cons_of_mem anchor hrect))
  have hmem : ∀ {rect}, rect ∈ rects (applyRects drafts
      (attachAll before anchor rest)) ↔ rect ∈ attachAll before anchor rest :=
    mem_rects_applyRects h.keys hframes
  have hsized : WellSized (applyRects drafts (attachAll before anchor rest)) := by
    rw [applyRects_eq]
    exact h.moved _
  have hnodup : ((attachAll before anchor rest).map Rect.key).Nodup := by
    have hkeys := hframes.map Prod.fst
    simp only [List.map_map] at hkeys
    exact hkeys.nodup_iff.mpr (rects_keys_nodup h.keys)
  exact ⟨hsized, arranged_of_mem_iff hsized.keys hnodup hmem harranged,
    hmem.mpr (mem_attachLoop List.mem_cons_self)⟩

/-! ### Runs -/

/-- The page's three layout calls. -/
inductive Call where
  | moveDisplay (key : Text) (x y : ℚ) (prefer : Option Side)
  | nudge (key : Text) (direction : Option Side)
  | relayout (key : Text) (previous : Option (List Draft))

def Call.run (call : Call) (drafts : List Draft) : List Draft :=
  match call with
  | .moveDisplay key x y prefer => Displays.moveDisplay drafts key x y prefer
  | .nudge key direction => Displays.nudge drafts key direction
  | .relayout key previous => Displays.relayout drafts key previous

/-- Whether the call puts some display in place. -/
def Call.Places (call : Call) (drafts : List Draft) : Prop :=
  match call with
  | .moveDisplay key _ _ _ => ∃ rect ∈ rects drafts, rect.key = key
  | .nudge key _ =>
      (∃ rect ∈ rects drafts, rect.key = key) ∧
        ∃ rect ∈ rects drafts, rect.key ≠ key
  | .relayout _ _ => rects drafts ≠ []

/-- The settings of one draft that change its size or take it in or out of
the layout. -/
structure DraftEdit where
  key : Text
  mode : ModeChoice
  scale : ScaleChoice
  transform : ℚ
  enabled : Bool
  mirror : Text

def DraftEdit.apply (edit : DraftEdit) (drafts : List Draft) : List Draft :=
  drafts.map fun draft =>
    if draft.key = edit.key then
      { draft with
        mode := edit.mode
        scale := edit.scale
        transform := edit.transform
        enabled := edit.enabled
        mirror := edit.mirror }
    else draft

/-- The drafts a call works on: those of the page, or before a re-attachment
those with one draft edited, still of a positive size. -/
inductive Prepared : Call → List Draft → List Draft → Prop
  | asIs (call : Call) (drafts : List Draft) : Prepared call drafts drafts
  | edited (key : Text) (previous : Option (List Draft)) (drafts : List Draft)
      (edit : DraftEdit)
      (solid : ∀ draft ∈ edit.apply drafts, draft.toRect.Solid) :
      Prepared (.relayout key previous) drafts (edit.apply drafts)

def Step (drafts next : List Draft) : Prop :=
  ∃ call ready, Prepared call drafts ready ∧ next = call.run ready

/-- The changed display (or the first placed one) keeps its position in the
arrangement built around it, and the result is that arrangement translated as
a whole. -/
def KeepsAnchor (key : Text) (previous : Option (List Draft))
    (drafts next : List Draft) : Prop :=
  ∀ anchor, anchorOf drafts key = some anchor →
    anchor ∈ rects (reattach drafts anchor previous) ∧
      ∃ dx dy, rects next =
        (rects (reattach drafts anchor previous)).map (Rect.shift dx dy)

theorem DraftEdit.apply_keys (edit : DraftEdit) (drafts : List Draft) :
    (edit.apply drafts).map Draft.key = drafts.map Draft.key := by
  rw [DraftEdit.apply, List.map_map]
  refine List.map_congr_left fun draft _ => ?_
  rw [Function.comp_apply]
  split <;> rfl

theorem Prepared.wellSized {call : Call} {drafts ready : List Draft}
    (hready : Prepared call drafts ready) (h : WellSized drafts) :
    WellSized ready := by
  cases hready with
  | asIs => exact h
  | edited key previous drafts edit solid =>
      exact ⟨edit.apply_keys drafts ▸ h.keys, solid⟩

theorem mem_rects_of_anchorOf {drafts : List Draft} {key : Text}
    {anchor : Rect} (h : anchorOf drafts key = some anchor) :
    anchor ∈ rects drafts := by
  unfold anchorOf at h
  split at h
  · next rect hfound =>
    cases h
    exact List.mem_of_find?_eq_some hfound
  · exact List.mem_of_head? h

theorem anchorOf_ne_none {drafts : List Draft} (key : Text)
    (h : rects drafts ≠ []) : anchorOf drafts key ≠ none := by
  unfold anchorOf
  split
  · simp
  · simpa using h

/-- A re-attachment needs nothing of the layout it starts from. -/
theorem relayout_wellPlaced {drafts : List Draft} (h : WellSized drafts)
    (key : Text) (previous : Option (List Draft)) :
    WellPlaced (relayout drafts key previous) := by
  unfold relayout
  split
  · next hnone =>
    have hempty : rects drafts = [] := by
      by_contra hne
      exact anchorOf_ne_none key hne hnone
    exact ⟨h, by rw [hempty]; exact List.Pairwise.nil⟩
  · next anchor hanchor =>
    have hdone := reattach_reattached h (mem_rects_of_anchorOf hanchor) previous
    exact hdone.toWellSized.normalize_wellPlaced hdone.arranged.separated

theorem relayout_keepsAnchor {drafts : List Draft} (h : WellSized drafts)
    (key : Text) (previous : Option (List Draft)) :
    KeepsAnchor key previous drafts (relayout drafts key previous) := by
  intro anchor hanchor
  have hdone := reattach_reattached h (mem_rects_of_anchorOf hanchor) previous
  obtain ⟨dx, dy, hrects, -⟩ := normalize_shifts (reattach drafts anchor previous)
  refine ⟨hdone.anchored, dx, dy, ?_⟩
  rw [relayout, hanchor]
  exact hrects

theorem relayout_connected {drafts : List Draft} (h : WellSized drafts)
    (key : Text) (previous : Option (List Draft)) :
    Connected (rects (relayout drafts key previous)) := by
  unfold relayout
  split
  · next hnone =>
    intro a ha
    exact absurd hnone (anchorOf_ne_none key (List.ne_nil_of_mem ha))
  · next anchor hanchor =>
    have hdone := reattach_reattached h (mem_rects_of_anchorOf hanchor) previous
    obtain ⟨dx, dy, hrects, -⟩ :=
      normalize_shifts (reattach drafts anchor previous)
    rw [hrects]
    exact hdone.arranged.connected.shift dx dy

theorem relayout_atOrigin {drafts : List Draft} (h : WellSized drafts)
    (hplaces : rects drafts ≠ []) (key : Text)
    (previous : Option (List Draft)) :
    AtOrigin (rects (relayout drafts key previous)) := by
  unfold relayout
  split
  · next hnone => exact absurd hnone (anchorOf_ne_none key hplaces)
  · next anchor hanchor =>
    have hdone := reattach_reattached h (mem_rects_of_anchorOf hanchor) previous
    obtain ⟨-, -, -, horigin⟩ :=
      normalize_shifts (reattach drafts anchor previous)
    exact horigin hdone.arranged.nonempty

/-- One call keeps the page's layout well placed. -/
theorem Prepared.run_wellPlaced {call : Call} {drafts ready : List Draft}
    (hready : Prepared call drafts ready) (h : WellPlaced drafts) :
    WellPlaced (call.run ready) := by
  cases hready with
  | asIs =>
      cases call with
      | moveDisplay key x y prefer => exact moveDisplay_wellPlaced h key x y prefer
      | nudge key direction => exact nudge_wellPlaced h key direction
      | relayout key previous =>
          exact relayout_wellPlaced h.toWellSized key previous
  | edited key previous drafts edit solid =>
      have hsized := (Prepared.edited key previous drafts edit solid).wellSized
        h.toWellSized
      exact relayout_wellPlaced hsized key previous

theorem run_wellPlaced {initial drafts : List Draft} (h : WellPlaced initial)
    (hrun : Relation.ReflTransGen Step initial drafts) : WellPlaced drafts := by
  induction hrun with
  | refl => exact h
  | tail _ hstep ih =>
      obtain ⟨call, ready, hready, rfl⟩ := hstep
      exact hready.run_wellPlaced ih

theorem Call.run_atOrigin {call : Call} {drafts : List Draft}
    (h : WellSized drafts) (hplaces : call.Places drafts) :
    AtOrigin (rects (call.run drafts)) := by
  cases call with
  | moveDisplay key x y prefer =>
      exact moveDisplay_atOrigin (exists_draft_of_rect_key hplaces) h.keys x y
        prefer
  | nudge key direction =>
      exact nudge_atOrigin hplaces.1 hplaces.2 h.keys direction
  | relayout key previous => exact relayout_atOrigin h hplaces key previous

/-- Along every run nothing placed overlaps; every call that places something
ends at the origin; every re-attachment is one arrangement around the changed
display. -/
theorem layout_calls_keep_arrangement {initial drafts : List Draft}
    (h : WellPlaced initial)
    (hrun : Relation.ReflTransGen Step initial drafts) :
    Separated (rects drafts) ∧
      ∀ call ready, Prepared call drafts ready →
        Separated (rects (call.run ready)) ∧
        (call.Places ready → AtOrigin (rects (call.run ready))) ∧
        ∀ key previous, call = .relayout key previous →
          Connected (rects (call.run ready)) ∧
            KeepsAnchor key previous ready (call.run ready) := by
  have hdrafts := run_wellPlaced h hrun
  refine ⟨hdrafts.separated, fun call ready hready => ?_⟩
  have hsized := hready.wellSized hdrafts.toWellSized
  refine ⟨(hready.run_wellPlaced hdrafts).separated,
    fun hplaces => Call.run_atOrigin hsized hplaces, ?_⟩
  rintro key previous rfl
  exact ⟨relayout_connected hsized key previous,
    relayout_keepsAnchor hsized key previous⟩

/-- Two displays side by side. -/
def sideBySide : List Draft :=
  [{ key := ascii "DP-1", name := ascii "DP-1"
     liveWidth := 1920, liveHeight := 1080 },
    { key := ascii "DP-2", name := ascii "DP-2"
      x := 1920, liveWidth := 2560, liveHeight := 1440, liveScale := 5 / 4 }]

theorem layout_calls_keep_arrangement_sideBySide :
    Separated (rects sideBySide) ∧
      Connected (rects (relayout sideBySide (ascii "DP-2") (some sideBySide))) := by
  have hinit : WellPlaced sideBySide :=
    { keys := by decide +kernel
      solid := by decide +kernel
      separated := by decide +kernel }
  have h := layout_calls_keep_arrangement hinit .refl
  have hcall := h.2 (.relayout (ascii "DP-2") (some sideBySide)) sideBySide
    (.asIs _ _)
  exact ⟨h.1, (hcall.2.2 _ _ rfl).1⟩

end Displays

end CybexOS
