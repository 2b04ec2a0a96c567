/-
Placed rectangles never overlap, whatever sequence of drops, nudges and
re-attachments the page makes.  The step facts are about one placement
against an already separated list; runs follow by induction.
-/
import CybexOS.Displays.Layout

namespace CybexOS

namespace Displays

/-! ### One placement -/

/-- A positive size, as every output with a picture has. -/
def Rect.Solid (rect : Rect) : Prop := 0 < rect.width ∧ 0 < rect.height

instance : DecidablePred Rect.Solid := fun _ => inferInstanceAs (Decidable (_ ∧ _))

/-- The coordinate along an edge keeps the two extents overlapping, also
after snapping. -/
theorem alongEdge_shares {value size start extent : ℤ} (hsize : 0 < size)
    (hextent : 0 < extent) :
    alongEdge value size start extent < start + extent ∧
      start < alongEdge value size start extent + size := by
  have hshare : 1 ≤ min MIN_SHARED_EDGE (min size extent) := by
    unfold MIN_SHARED_EDGE
    omega
  have hshareSize : min MIN_SHARED_EDGE (min size extent) ≤ size := by omega
  have hshareExtent : min MIN_SHARED_EDGE (min size extent) ≤ extent := by
    omega
  unfold alongEdge align
  dsimp only
  set share := min MIN_SHARED_EDGE (min size extent)
  have hclamp : clamp value (start - size + share) (start + extent - share) <
      start + extent ∧ start <
        clamp value (start - size + share) (start + extent - share) + size := by
    unfold clamp
    omega
  split_ifs
  · omega
  · omega
  · exact hclamp

theorem exists_rightmost {others : List Rect} (hothers : others ≠ []) :
    ∃ o ∈ others, ∀ other ∈ others, other.x + other.width ≤ o.x + o.width := by
  induction others with
  | nil => exact absurd rfl hothers
  | cons head tail ih =>
      by_cases htail : tail = []
      · subst htail
        exact ⟨head, by simp, by simp⟩
      · obtain ⟨o, ho, hmax⟩ := ih htail
        by_cases hle : o.x + o.width ≤ head.x + head.width
        · refine ⟨head, by simp, fun other hother => ?_⟩
          rcases List.mem_cons.mp hother with rfl | hother
          · exact le_refl _
          · exact (hmax other hother).trans hle
        · refine ⟨o, List.mem_cons_of_mem head ho, fun other hother => ?_⟩
          rcases List.mem_cons.mp hother with rfl | hother
          · omega
          · exact hmax other hother

/-- The position right of the rightmost rectangle is always usable. -/
theorem usable_ne_nil {rect : Rect} (hrect : rect.Solid) {others : List Rect}
    (hothers : others ≠ []) (hsolid : ∀ o ∈ others, o.Solid) :
    usable rect others ≠ [] := by
  obtain ⟨o, ho, hmax⟩ := exists_rightmost hothers
  have hshares : alongEdge rect.y rect.height o.y o.height < o.y + o.height ∧
      o.y < alongEdge rect.y rect.height o.y o.height + rect.height :=
    alongEdge_shares hrect.2 (hsolid o ho).2
  have hmem : (⟨.right, o.x + o.width,
      alongEdge rect.y rect.height o.y o.height⟩ : Candidate) ∈
      usable rect others := by
    rw [usable, List.mem_filter, List.mem_flatMap]
    refine ⟨⟨o, ho, by simp [candidatesFor]⟩, ?_⟩
    rw [decide_eq_true_eq]
    refine ⟨fun other hother hoverlap => ?_, o, ho, ?_⟩
    · have := hmax other hother
      simp only [Overlaps, Candidate.box] at hoverlap
      omega
    · simp only [Touches, Candidate.box]
      left
      exact ⟨Or.inr trivial, hshares⟩
  exact List.ne_nil_of_mem hmem

theorem mem_of_mem_preferred {prefer : Option Side}
    {candidates : List Candidate} {candidate : Candidate}
    (h : candidate ∈ preferred prefer candidates) : candidate ∈ candidates := by
  cases prefer with
  | none => exact h
  | some side =>
      simp only [preferred] at h
      split at h
      · exact h
      · exact (List.mem_filter.mp h).1

theorem preferred_ne_nil {prefer : Option Side} {candidates : List Candidate}
    (h : candidates ≠ []) : preferred prefer candidates ≠ [] := by
  cases prefer with
  | none => exact h
  | some side =>
      simp only [preferred]
      split
      · exact h
      · assumption

theorem closest_mem {rect : Rect} {candidates : List Candidate}
    {best : Candidate} (h : closest rect candidates = some best) :
    best ∈ candidates := by
  induction candidates generalizing best with
  | nil => simp [closest] at h
  | cons head tail ih =>
      rw [closest] at h
      split at h
      · cases h
        exact List.mem_cons_self
      · next found hfound =>
        split at h
        · cases h
          exact List.mem_cons_of_mem head (ih hfound)
        · cases h
          exact List.mem_cons_self

theorem closest_ne_none {rect : Rect} {candidates : List Candidate}
    (h : candidates ≠ []) : closest rect candidates ≠ none := by
  cases candidates with
  | nil => exact absurd rfl h
  | cons head tail =>
      rw [closest]
      split
      · simp
      · split <;> simp

def Rect.at (rect : Rect) (position : ℤ × ℤ) : Rect :=
  { rect with x := position.1, y := position.2 }

/-- Beside anything at all, the chosen position fits. -/
theorem placeRect_fits {rect : Rect} (hrect : rect.Solid) {others : List Rect}
    (hothers : others ≠ []) (hsolid : ∀ o ∈ others, o.Solid)
    (prefer : Option Side) :
    Fits (rect.at (placeRect rect others prefer)) others := by
  cases others with
  | nil => exact absurd rfl hothers
  | cons first rest =>
      have hsome : closest rect (preferred prefer (usable rect (first :: rest))) ≠
          none :=
        closest_ne_none (preferred_ne_nil (usable_ne_nil hrect hothers hsolid))
      rw [placeRect]
      split
      · next best hbest =>
        have hmem := mem_of_mem_preferred (closest_mem hbest)
        rw [usable, List.mem_filter, decide_eq_true_eq] at hmem
        exact hmem.2
      · next hnone => exact absurd hnone hsome

/-- `box` is beside `o` on this side and shares a stretch of the edge. -/
def OnSide (side : Side) (box o : Rect) : Prop :=
  match side with
  | .right => box.x = o.x + o.width ∧ box.y < o.y + o.height ∧ o.y < box.y + box.height
  | .left => box.x + box.width = o.x ∧ box.y < o.y + o.height ∧ o.y < box.y + box.height
  | .down => box.y = o.y + o.height ∧ box.x < o.x + o.width ∧ o.x < box.x + box.width
  | .up => box.y + box.height = o.y ∧ box.x < o.x + o.width ∧ o.x < box.x + box.width

theorem candidatesFor_onSide {rect o : Rect} (hrect : rect.Solid) (ho : o.Solid)
    {candidate : Candidate} (h : candidate ∈ candidatesFor rect o) :
    OnSide candidate.side (rect.at (candidate.x, candidate.y)) o := by
  have hy : alongEdge rect.y rect.height o.y o.height < o.y + o.height ∧
      o.y < alongEdge rect.y rect.height o.y o.height + rect.height :=
    alongEdge_shares hrect.2 ho.2
  have hx : alongEdge rect.x rect.width o.x o.width < o.x + o.width ∧
      o.x < alongEdge rect.x rect.width o.x o.width + rect.width :=
    alongEdge_shares hrect.1 ho.1
  simp only [candidatesFor, List.mem_cons, List.not_mem_nil, or_false] at h
  rcases h with rfl | rfl | rfl | rfl
  · exact ⟨rfl, hy⟩
  · exact ⟨Int.sub_add_cancel _ _, hy⟩
  · exact ⟨rfl, hx⟩
  · exact ⟨Int.sub_add_cancel _ _, hx⟩

/-- Where the preferred side has a usable candidate, only its candidates are
left. -/
theorem side_of_mem_preferred {side : Side} {candidates : List Candidate}
    (hroom : ∃ candidate ∈ candidates, candidate.side = side) {candidate : Candidate}
    (h : candidate ∈ preferred (some side) candidates) : candidate.side = side := by
  obtain ⟨roomy, hroomy, hside⟩ := hroom
  have hne : candidates.filter (·.side = side) ≠ [] :=
    List.ne_nil_of_mem (List.mem_filter.mpr ⟨hroomy, by rw [hside, decide_eq_true rfl]⟩)
  rw [preferred, if_neg hne] at h
  simpa using (List.mem_filter.mp h).2

/-- There is always a nearest usable candidate, it fits, and it is on the
preferred side of some display when that side has a usable one. -/
theorem placeRect_finds_place {rect : Rect} (hrect : rect.Solid) {others : List Rect}
    (hothers : others ≠ []) (hsolid : ∀ o ∈ others, o.Solid) (prefer : Option Side) :
    (∃ best, closest rect (preferred prefer (usable rect others)) = some best ∧
        placeRect rect others prefer = (best.x, best.y)) ∧
      Fits (rect.at (placeRect rect others prefer)) others ∧
      ∀ side, prefer = some side →
        (∃ candidate ∈ usable rect others, candidate.side = side) →
          ∃ o ∈ others, OnSide side (rect.at (placeRect rect others prefer)) o := by
  obtain ⟨best, hbest⟩ := Option.ne_none_iff_exists'.mp
    (@closest_ne_none rect _ (@preferred_ne_nil prefer _
      (usable_ne_nil hrect hothers hsolid)))
  have hplace : placeRect rect others prefer = (best.x, best.y) := by
    cases others with
    | nil => exact absurd rfl hothers
    | cons first rest => rw [placeRect, hbest]
  refine ⟨⟨best, hbest, hplace⟩, placeRect_fits hrect hothers hsolid prefer, ?_⟩
  rintro side rfl hroom
  have hside : best.side = side := side_of_mem_preferred hroom (closest_mem hbest)
  have husable := mem_of_mem_preferred (closest_mem hbest)
  rw [usable, List.mem_filter, List.mem_flatMap] at husable
  obtain ⟨⟨o, ho, hcandidate⟩, -⟩ := husable
  rw [hplace, ← hside]
  exact ⟨o, ho, candidatesFor_onSide hrect (hsolid o ho) hcandidate⟩

/-- Dropped on its left neighbour, a display goes to the preferred right side. -/
theorem placeRect_finds_place_beside :
    ∃ o ∈ [(⟨[1], 0, 0, 1920, 1080⟩ : Rect)],
      OnSide .right (Rect.at ⟨[2], 100, 40, 1280, 720⟩
        (placeRect ⟨[2], 100, 40, 1280, 720⟩ [⟨[1], 0, 0, 1920, 1080⟩] (some .right))) o :=
  (placeRect_finds_place (by decide) (by decide) (by decide) (some .right)).2.2 .right rfl
    ⟨⟨.right, 1920, 0⟩, by decide +kernel, rfl⟩

/-! ### Arrangements -/

/-- No two rectangles of the list overlap. -/
def Separated (list : List Rect) : Prop :=
  list.Pairwise fun a b => ¬ Overlaps a b

instance : DecidablePred Separated := fun list =>
  inferInstanceAs (Decidable (list.Pairwise fun a b => ¬ Overlaps a b))

instance : Std.Symm fun a b : Rect => ¬ Overlaps a b :=
  ⟨fun _ _ hab hba => hab hba.symm⟩

/-- With distinct keys separation is about membership only. -/
theorem separated_iff {list : List Rect} (hkeys : (list.map Rect.key).Nodup) :
    Separated list ↔
      ∀ a ∈ list, ∀ b ∈ list, a.key ≠ b.key → ¬ Overlaps a b := by
  constructor
  · intro hsep a ha b hb hab
    exact hsep.forall ha hb fun heq => hab (congrArg Rect.key heq)
  · intro hall
    have hne : list.Pairwise fun a b => a.key ≠ b.key :=
      List.pairwise_map.mp hkeys
    exact hne.imp_of_mem fun ha hb hab => hall _ ha _ hb hab

/-- Neighbours within a list of rectangles. -/
def Adjacent (list : List Rect) (a b : Rect) : Prop :=
  a ∈ list ∧ b ∈ list ∧ Touches a b

/-- One arrangement under shared edges. -/
def Connected (list : List Rect) : Prop :=
  ∀ a ∈ list, ∀ b ∈ list, Relation.ReflTransGen (Adjacent list) a b

theorem Connected.append {list : List Rect} (hconn : Connected list)
    {rect : Rect} (htouch : ∃ o ∈ list, Touches rect o) :
    Connected (list ++ [rect]) := by
  obtain ⟨o, ho, htouches⟩ := htouch
  have hmono : ∀ {a b}, Relation.ReflTransGen (Adjacent list) a b →
      Relation.ReflTransGen (Adjacent (list ++ [rect])) a b := by
    intro a b hab
    refine Relation.ReflTransGen.mono (fun p q hpq => ?_) a b hab
    exact ⟨List.mem_append_left _ hpq.1, List.mem_append_left _ hpq.2.1, hpq.2.2⟩
  have hto : Adjacent (list ++ [rect]) o rect :=
    ⟨List.mem_append_left _ ho, by simp, htouches.symm⟩
  have hfrom : Adjacent (list ++ [rect]) rect o :=
    ⟨by simp, List.mem_append_left _ ho, htouches⟩
  intro a ha b hb
  rw [List.mem_append, List.mem_singleton] at ha hb
  rcases ha with ha | rfl <;> rcases hb with hb | rfl
  · exact hmono (hconn a ha b hb)
  · exact (hmono (hconn a ha o ho)).tail hto
  · exact .head hfrom (hmono (hconn o ho b hb))
  · exact .refl

/-- What re-attaching has built so far. -/
structure Arranged (list : List Rect) : Prop where
  nonempty : list ≠ []
  solid : ∀ rect ∈ list, rect.Solid
  separated : Separated list
  connected : Connected list

theorem Arranged.singleton {anchor : Rect} (hanchor : anchor.Solid) :
    Arranged [anchor] where
  nonempty := List.cons_ne_nil anchor []
  solid := by simpa using hanchor
  separated := List.pairwise_singleton _ _
  connected := by
    intro a ha b hb
    rw [List.mem_singleton] at ha hb
    rw [ha, hb]

theorem Arranged.append {list : List Rect} (h : Arranged list) {rect : Rect}
    (hrect : rect.Solid) (hfits : Fits rect list) : Arranged (list ++ [rect]) where
  nonempty := by simp
  solid := by
    intro other hother
    rcases List.mem_append.mp hother with hother | hother
    · exact h.solid other hother
    · rw [List.mem_singleton.mp hother]
      exact hrect
  separated := by
    refine List.pairwise_append.mpr
      ⟨h.separated, List.pairwise_singleton _ _, fun a ha b hb hover => ?_⟩
    rw [List.mem_singleton.mp hb] at hover
    exact hfits.1 a ha hover.symm
  connected := h.connected.append hfits.2

/-- What a placement leaves alone. -/
def Rect.frame (rect : Rect) : Text × ℤ × ℤ := (rect.key, rect.width, rect.height)

theorem attach_frame (before : List Rect) (anchor : Rect) (done : List Rect)
    (rect : Rect) : (attach before anchor done rect).frame = rect.frame := by
  unfold attach
  split <;> rfl

theorem attach_solid {before : List Rect} {anchor : Rect} {done : List Rect}
    {rect : Rect} (hrect : rect.Solid) :
    (attach before anchor done rect).Solid := by
  unfold attach
  split <;> exact hrect

theorem attach_fits {before : List Rect} {anchor : Rect} {done : List Rect}
    (hdone : Arranged done) {rect : Rect} (hrect : rect.Solid) :
    Fits (attach before anchor done rect) done := by
  unfold attach
  split
  · assumption
  · exact placeRect_fits hrect hdone.nonempty hdone.solid _

/-- Every step of the loop extends the arrangement by the next rectangle. -/
theorem attachLoop_arranged {before : List Rect} {anchor : Rect}
    {rest : List Rect} {done : List Rect} (hrest : ∀ rect ∈ rest, rect.Solid)
    (hdone : Arranged done) :
    Arranged (rest.foldl
      (fun done rect => done ++ [attach before anchor done rect]) done) := by
  induction rest generalizing done with
  | nil => exact hdone
  | cons head tail ih =>
      have hhead := hrest head List.mem_cons_self
      exact ih (fun rect hrect => hrest rect (List.mem_cons_of_mem head hrect))
        (hdone.append (attach_solid hhead) (attach_fits hdone hhead))

theorem attachLoop_frames (before : List Rect) (anchor : Rect)
    (rest done : List Rect) :
    (rest.foldl (fun done rect => done ++ [attach before anchor done rect])
      done).map Rect.frame = done.map Rect.frame ++ rest.map Rect.frame := by
  induction rest generalizing done with
  | nil => simp
  | cons head tail ih =>
      rw [List.foldl_cons, ih]
      simp [attach_frame]

/-- The loop only appends, so the anchor stays where it is. -/
theorem mem_attachLoop {before : List Rect} {anchor : Rect}
    {rest done : List Rect} {rect : Rect} (h : rect ∈ done) :
    rect ∈ rest.foldl
      (fun done rect => done ++ [attach before anchor done rect]) done := by
  induction rest generalizing done with
  | nil => exact h
  | cons head tail ih => exact ih (List.mem_append_left _ h)

/-! ### Drafts and their rectangles -/

theorem find?_of_nodup {α β : Type*} [DecidableEq β] (f : α → β) {list : List α}
    (hnodup : (list.map f).Nodup) {a : α} (ha : a ∈ list) {b : β}
    (hb : f a = b) : list.find? (f · = b) = some a := by
  induction list with
  | nil => simp at ha
  | cons head tail ih =>
      rw [List.map_cons, List.nodup_cons] at hnodup
      rcases List.mem_cons.mp ha with rfl | htail
      · simp [hb]
      · have hne : f head ≠ b := fun heq =>
          hnodup.1 (heq.trans hb.symm ▸ List.mem_map_of_mem htail)
        simp [hne, ih hnodup.2 htail]

theorem mem_rects {drafts : List Draft} {rect : Rect} :
    rect ∈ rects drafts ↔
      ∃ draft ∈ drafts, draft.isPlaced = true ∧ draft.toRect = rect := by
  simp [rects, placed, and_assoc]

theorem rects_keys_nodup {drafts : List Draft}
    (hkeys : (drafts.map Draft.key).Nodup) :
    ((rects drafts).map Rect.key).Nodup := by
  have hcomp : (rects drafts).map Rect.key = (placed drafts).map Draft.key := by
    simp [rects, Draft.toRect, Function.comp_def]
  rw [hcomp]
  exact hkeys.sublist (List.filter_sublist.map Draft.key)

/-- Distinct keys and sizes that are positive at every mode, scale and
rotation shown. -/
structure WellSized (drafts : List Draft) : Prop where
  keys : (drafts.map Draft.key).Nodup
  solid : ∀ draft ∈ drafts, draft.toRect.Solid

theorem WellSized.rects_solid {drafts : List Draft} (h : WellSized drafts)
    {rect : Rect} (hrect : rect ∈ rects drafts) : rect.Solid := by
  obtain ⟨draft, hdraft, -, rfl⟩ := mem_rects.mp hrect
  exact h.solid draft hdraft

/-- A draft moved to another position. -/
def Draft.at (draft : Draft) (position : ℤ × ℤ) : Draft :=
  { draft with x := position.1, y := position.2 }

@[simp] theorem Draft.at_key (draft : Draft) (position : ℤ × ℤ) :
    (draft.at position).key = draft.key := rfl

@[simp] theorem Draft.at_isPlaced (draft : Draft) (position : ℤ × ℤ) :
    (draft.at position).isPlaced = draft.isPlaced := rfl

@[simp] theorem Draft.at_toRect (draft : Draft) (position : ℤ × ℤ) :
    (draft.at position).toRect = draft.toRect.at position := rfl

theorem Draft.at_self (draft : Draft) : draft.at (draft.x, draft.y) = draft := rfl

/-- A call only moves drafts about. -/
theorem WellSized.moved {drafts : List Draft} (h : WellSized drafts)
    (position : Draft → ℤ × ℤ) :
    WellSized (drafts.map fun draft => draft.at (position draft)) where
  keys := by simpa [Function.comp_def] using h.keys
  solid := by
    intro draft hdraft
    obtain ⟨old, hold, rfl⟩ := List.mem_map.mp hdraft
    exact h.solid old hold

theorem mem_rects_moved {drafts : List Draft} {position : Draft → ℤ × ℤ}
    {rect : Rect} :
    rect ∈ rects (drafts.map fun draft => draft.at (position draft)) ↔
      ∃ draft ∈ drafts, draft.isPlaced = true ∧
        draft.toRect.at (position draft) = rect := by
  simp [mem_rects]

end Displays

end CybexOS
