/-
Moving a widget: the widgets of its new section are listed as the command
arranges them, and nothing else changes.
-/
import CybexOS.Plugins.Enabled
import CybexOS.Plugins.Sited
import Mathlib.Data.List.Lex

namespace CybexOS

namespace Plugins

open Json

/-! ### One numbered widget of a whole scan -/

section

variable {plugins changed : PyDict} {packages : Packages} {place : Section} {item : Widget × ℕ}
  {ids : List Text} {listed : List Descriptor × List Widget}

theorem scanPlugin_congr {id : Text} (h : changed.lookup id = plugins.lookup id) :
    scanPlugin changed packages id = scanPlugin plugins packages id := by
  unfold scanPlugin
  rw [h]

theorem scanPlugins_map {change : Widget → Widget}
    (hone : ∀ id ∈ ids, ∀ one, scanPlugin plugins packages id = .ok one →
      ∃ after, scanPlugin changed packages id = .ok after ∧ after.2 = one.2.map change)
    (h : scanPlugins plugins packages ids = .ok listed) :
    ∃ after, scanPlugins changed packages ids = .ok after ∧ after.2 = listed.2.map change := by
  induction ids generalizing listed with
  | nil =>
      rw [scanPlugins, Except.ok.injEq] at h
      rw [← h]
      exact ⟨_, rfl, rfl⟩
  | cons id ids ih =>
      have hrest : ∀ rest, scanPlugins plugins packages ids = .ok rest → ∃ after,
          scanPlugins changed packages ids = .ok after ∧ after.2 = rest.2.map change :=
        fun rest => ih fun other hother => hone other (List.mem_cons_of_mem _ hother)
      rw [scanPlugins] at h ⊢
      split_ifs at h ⊢ with hbuilt hpresent
      · simp only [bind_eq_ok, pure_eq_ok] at h
        obtain ⟨rest, hscan, rfl⟩ := h
        obtain ⟨after, hafter, hsame⟩ := hrest rest hscan
        rw [hafter]
        exact ⟨_, rfl, hsame⟩
      · simp only [bind_eq_ok, pure_eq_ok] at h
        obtain ⟨rest, hscan, rfl⟩ := h
        obtain ⟨after, hafter, hsame⟩ := hrest rest hscan
        rw [hafter]
        exact ⟨_, rfl, hsame⟩
      · simp only [bind_eq_ok, pure_eq_ok] at h
        obtain ⟨first, hfirst, rest, hscan, rfl⟩ := h
        obtain ⟨after, hafter, hsame⟩ := hone id List.mem_cons_self first hfirst
        obtain ⟨others, hothers, hsames⟩ := hrest rest hscan
        rw [hafter, hothers]
        refine ⟨_, rfl, ?_⟩
        rw [List.map_append, hsame, hsames]

/-- A step of the command: one widget is sited and no other one changes. -/
theorem scanPlugins_site (hproper : Proper (.obj plugins)) (hids : ids.Nodup)
    (hscan : scanPlugins plugins packages ids = .ok listed) (hmem : item.1 ∈ listed.2)
    (hmovable : item.1.movable place = true) (h : siteWidget place plugins item = some changed) :
    ∃ after, scanPlugins changed packages ids = .ok after ∧
      after.2 = listed.2.map (resite place item) := by
  have hmine : item.1 ∈ listed.2.filter (·.id = item.1.id) := by simpa using hmem
  refine scanPlugins_map (fun id hid one hone => ?_) hscan
  by_cases hsame : id = item.1.id
  · subst hsame
    rcases scanPlugins_filter hids hscan item.1.id with hnone | ⟨-, held, hheld, hfilter⟩
    · rw [hnone] at hmine
      cases hmine
    · obtain rfl := Except.ok.inj (hheld.symm.trans hone)
      exact scanPlugin_site hproper hone (hfilter ▸ hmine) hmovable h
  · refine ⟨one, (scanPlugin_congr (siteWidget_lookup hsame h)).trans hone, ?_⟩
    refine ((List.map_congr_left fun widget hwidget => ?_).trans (List.map_id _)).symm
    refine if_neg fun hidentity => hsame ?_
    exact (scanPlugin_widget hone hwidget).1.symm.trans (Widget.isSame_iff.mp hidentity).1

end

/-! ### All of them -/

/-- A widget once these were numbered. -/
def renumber (place : Section) (items : List (Widget × ℕ)) (widget : Widget) : Widget :=
  items.foldl (fun widget item => resite place item widget) widget

section

variable {place : Section} {items : List (Widget × ℕ)} {widget : Widget}

theorem unplaced_resite (item : Widget × ℕ) :
    (resite place item widget).unplaced = widget.unplaced := by
  unfold resite
  split_ifs <;> rfl

theorem unplaced_renumber : (renumber place items widget).unplaced = widget.unplaced := by
  induction items generalizing widget with
  | nil => rfl
  | cons item items ih => exact ih.trans (unplaced_resite item)

theorem renumber_of_not (h : ∀ item ∈ items, item.1.isSame widget = false) :
    renumber place items widget = widget := by
  induction items with
  | nil => rfl
  | cons item items ih =>
      have hitem : resite place item widget = widget :=
        if_neg (by simp [h item List.mem_cons_self])
      rw [renumber, List.foldl_cons, hitem]
      exact ih fun other hother => h other (List.mem_cons_of_mem _ hother)

/-- Each of the numbered widgets gets its number. -/
theorem renumber_of_mem (h : items.Pairwise fun a b => a.1.isSame b.1 = false)
    {item : Widget × ℕ} (hitem : item ∈ items) :
    renumber place items item.1 = item.1.sited place item.2 := by
  induction items with
  | nil => cases hitem
  | cons first items ih =>
      rw [List.pairwise_cons] at h
      rw [renumber, List.foldl_cons]
      rcases List.mem_cons.mp hitem with rfl | hlater
      · rw [show resite place item item.1 = _ from resite_self item.1 item.2]
        refine renumber_of_not fun other hother => ?_
        have hdiffers := h.1 other hother
        rw [← Bool.not_eq_true, Widget.isSame_iff] at hdiffers ⊢
        exact fun hsame => hdiffers ⟨hsame.1.symm, hsame.2.symm⟩
      · have hfirst : resite place first item.1 = item.1 := if_neg (by simp [h.1 item hlater])
        rw [hfirst]
        exact ih h.2 hlater

end

/-- The widgets that a run of the command numbers. -/
theorem sites_scan {plugins changed : PyDict} {packages : Packages} {place : Section}
    {items : List (Widget × ℕ)} {ids : List Text} {listed : List Descriptor × List Widget}
    (hproper : Proper (.obj plugins)) (hids : ids.Nodup)
    (hscan : scanPlugins plugins packages ids = .ok listed)
    (hmem : ∀ item ∈ items, item.1 ∈ listed.2)
    (hmovable : ∀ item ∈ items, item.1.movable place = true)
    (hdistinct : items.Pairwise fun a b => a.1.isSame b.1 = false)
    (h : items.foldlM (siteWidget place) plugins = some changed) :
    Dict.keys changed = Dict.keys plugins ∧
      ∃ after, scanPlugins changed packages ids = .ok after ∧
        after.2 = listed.2.map (renumber place items) := by
  induction items generalizing plugins listed with
  | nil =>
      obtain rfl := Option.some.inj h
      exact ⟨rfl, listed, hscan, (List.map_id _).symm⟩
  | cons item items ih =>
      rw [List.foldlM_cons, Option.bind_eq_bind, Option.bind_eq_some_iff] at h
      obtain ⟨next, hnext, hrest⟩ := h
      rw [List.pairwise_cons] at hdistinct
      obtain ⟨sited, hsited, hlisted⟩ := scanPlugins_site hproper hids hscan
        (hmem item List.mem_cons_self) (hmovable item List.mem_cons_self) hnext
      -- the widgets that come later are still listed as they were
      have hlater : ∀ other ∈ items, other.1 ∈ sited.2 := by
        intro other hother
        rw [hlisted, List.mem_map]
        refine ⟨other.1, hmem other (List.mem_cons_of_mem _ hother), if_neg ?_⟩
        simp [hdistinct.1 other hother]
      obtain ⟨hkeys, after, hafter, hall⟩ := ih (siteWidget_proper hproper hnext) hsited hlater
        (fun other hother => hmovable other (List.mem_cons_of_mem _ hother)) hdistinct.2 hrest
      refine ⟨hkeys.trans (siteWidget_keys hnext), after, hafter, ?_⟩
      rw [hall, hlisted, List.map_map]
      rfl

/-! ### The widgets of a scan -/

theorem Widget.isSame_comm (a b : Widget) : a.isSame b = b.isSame a := by
  rw [Bool.eq_iff_iff, isSame_iff, isSame_iff, @eq_comm _ a.id, @eq_comm _ a.instanceName]

theorem Distinct.perm {widgets others : List Widget} (h : Distinct widgets)
    (hperm : widgets.Perm others) : Distinct others :=
  hperm.pairwise h fun hab => (Widget.isSame_comm _ _).trans hab

theorem Distinct.eq_of_isSame {widgets : List Widget} (h : Distinct widgets) {a b : Widget}
    (ha : a ∈ widgets) (hb : b ∈ widgets) (hsame : a.isSame b = true) : a = b := by
  induction widgets with
  | nil => cases ha
  | cons head tail ih =>
      obtain ⟨hhead, htail⟩ := List.pairwise_cons.mp h
      rcases List.mem_cons.mp ha with rfl | hlater <;>
        rcases List.mem_cons.mp hb with rfl | hother
      · rfl
      · rw [hhead b hother] at hsame
        cases hsame
      · rw [Widget.isSame_comm, hhead a hlater] at hsame
        cases hsame
      · exact ih htail hlater hother

theorem distinct_of_names {widgets : List Widget}
    (h : (widgets.map Widget.instanceName).Nodup) : Distinct widgets := by
  rw [List.Nodup, List.pairwise_map] at h
  refine h.imp fun hne => ?_
  rw [← Bool.not_eq_true, Widget.isSame_iff]
  exact fun hsame => hne hsame.2.symm

theorem mapM_instanceName {entry : PyDict} {descriptor : Descriptor} {place : Section}
    {flag : Bool} {instances : PyDict} {widgets : List Widget}
    (h : instances.mapM (instanceWidget entry descriptor place flag) = .ok widgets) :
    widgets.map Widget.instanceName = Dict.keys instances := by
  induction instances generalizing widgets with
  | nil =>
      rw [List.mapM_nil, pure_eq_ok] at h
      rw [← h]
      rfl
  | cons item instances ih =>
      rw [List.mapM_cons, bind_eq_ok] at h
      obtain ⟨first, hfirst, h⟩ := h
      rw [bind_eq_ok] at h
      obtain ⟨rest, hrest, h⟩ := h
      rw [pure_eq_ok] at h
      rw [← h, List.map_cons, ih hrest, (instanceWidget_identity hfirst).2]
      rfl

theorem proper_saved {plugins entry : PyDict} {id : Text} (hproper : Proper (.obj plugins))
    (h : (plugins.lookup id).getD (.obj []) = .obj entry) : Proper (.obj entry) := by
  cases hfound : plugins.lookup id with
  | none =>
      rw [hfound] at h
      rw [← h]
      exact .obj [] List.nodup_nil (by simp)
  | some value =>
      rw [hfound, Option.getD_some] at h
      exact h ▸ hproper.field? hfound

/-- The widgets of one plugin differ in their instances. -/
theorem scanPlugin_distinct {plugins : PyDict} {packages : Packages} {id : Text}
    {listed : Descriptor × List Widget} (hproper : Proper (.obj plugins))
    (h : scanPlugin plugins packages id = .ok listed) : Distinct listed.2 := by
  have hchip : ∀ (descriptor : Descriptor) message, Distinct (descriptor.failed message).2 := by
    intro descriptor message
    simp only [Descriptor.failed]
    split_ifs
    · exact List.pairwise_singleton _ _
    · exact List.Pairwise.nil
  unfold scanPlugin at h
  simp only at h
  split at h
  · rw [← Except.ok.inj h]
    exact hchip _ _
  · next found hfound =>
    obtain ⟨entry, hentry, -⟩ := options_eq_ok hfound
    rw [hentry] at h
    split at h
    · rw [← Except.ok.inj h]
      exact hchip _ _
    · next candidate hcandidate =>
      split at h
      · rw [← Except.ok.inj h]
        exact hchip _ _
      · cases h
      · next widgets hwidgets =>
        rw [← Except.ok.inj h]
        rcases widgetsOf_eq_ok hwidgets with rfl | ⟨place, instances, flag, hinstances, -, hcases⟩
        · exact List.Pairwise.nil
        · rcases hcases with ⟨-, rfl⟩ | ⟨-, hmap⟩
          · exact List.pairwise_singleton _ _
          · refine distinct_of_names ?_
            rw [mapM_instanceName hmap]
            exact proper_keys (proper_dictAt (proper_saved hproper hentry) hinstances)

theorem scanPlugins_id {plugins : PyDict} {packages : Packages} {ids : List Text}
    {listed : List Descriptor × List Widget} (h : scanPlugins plugins packages ids = .ok listed)
    {widget : Widget} (hmem : widget ∈ listed.2) : widget.id ∈ ids := by
  induction ids generalizing listed with
  | nil =>
      rw [scanPlugins, Except.ok.injEq] at h
      rw [← h] at hmem
      cases hmem
  | cons id ids ih =>
      rw [scanPlugins] at h
      split_ifs at h with hbuilt hpresent
      · simp only [bind_eq_ok, pure_eq_ok] at h
        obtain ⟨rest, hscan, rfl⟩ := h
        exact List.mem_cons_of_mem _ (ih hscan hmem)
      · simp only [bind_eq_ok, pure_eq_ok] at h
        obtain ⟨rest, hscan, rfl⟩ := h
        exact List.mem_cons_of_mem _ (ih hscan hmem)
      · simp only [bind_eq_ok, pure_eq_ok] at h
        obtain ⟨first, hfirst, rest, hscan, rfl⟩ := h
        rcases List.mem_append.mp hmem with hmine | hlater
        · exact List.mem_cons.mpr (Or.inl (scanPlugin_widget hfirst hmine).1)
        · exact List.mem_cons_of_mem _ (ih hscan hlater)

/-- Listed widgets differ in their plugin or in their instance. -/
theorem scanPlugins_distinct {plugins : PyDict} {packages : Packages} {ids : List Text}
    {listed : List Descriptor × List Widget} (hproper : Proper (.obj plugins))
    (hids : ids.Nodup) (h : scanPlugins plugins packages ids = .ok listed) :
    Distinct listed.2 := by
  induction ids generalizing listed with
  | nil =>
      rw [scanPlugins, Except.ok.injEq] at h
      rw [← h]
      exact List.Pairwise.nil
  | cons id ids ih =>
      rw [List.nodup_cons] at hids
      rw [scanPlugins] at h
      split_ifs at h with hbuilt hpresent
      · simp only [bind_eq_ok, pure_eq_ok] at h
        obtain ⟨rest, hscan, rfl⟩ := h
        have hrest : Distinct rest.2 := ih hids.2 hscan
        exact hrest
      · simp only [bind_eq_ok, pure_eq_ok] at h
        obtain ⟨rest, hscan, rfl⟩ := h
        have hrest : Distinct rest.2 := ih hids.2 hscan
        exact hrest
      · simp only [bind_eq_ok, pure_eq_ok] at h
        obtain ⟨first, hfirst, rest, hscan, rfl⟩ := h
        refine List.pairwise_append.mpr
          ⟨scanPlugin_distinct hproper hfirst, ih hids.2 hscan, fun a ha b hb => ?_⟩
        rw [← Bool.not_eq_true, Widget.isSame_iff]
        intro hsame
        have hlater : b.id ∈ ids := scanPlugins_id hscan hb
        rw [hsame.1, (scanPlugin_widget hfirst ha).1] at hlater
        exact hids.1 hlater

/-! ### Sorted widgets -/

theorem orderedOn_sortKey (widgets : List Widget) :
    OrderedOn (fun a b : Widget => sortKey a.toDescriptor a.key ≤ sortKey b.toDescriptor b.key)
      widgets where
  total a _ b _ := le_total (sortKey a.toDescriptor a.key) (sortKey b.toDescriptor b.key)
  trans _ _ b _ _ _ hab hbc := le_trans (b := sortKey b.toDescriptor b.key) hab hbc

theorem sortKey_of_lt {a b : Widget} (h : a.order < b.order) :
    sortKey a.toDescriptor a.key ≤ sortKey b.toDescriptor b.key ∧
      ¬ sortKey b.toDescriptor b.key ≤ sortKey a.toDescriptor a.key := by
  have hlt : sortKey a.toDescriptor a.key < sortKey b.toDescriptor b.key :=
    Prod.Lex.toLex_lt_toLex.mpr (Or.inl h)
  exact ⟨hlt.le, hlt.not_ge⟩

/-! ### Where widgets are -/

section

variable {widget : Widget} {place other : Section}

theorem isAt_iff : widget.isAt place = true ↔
    widget.place = some (.str place.name) ∨ widget.place = none ∧ place = .right := by
  unfold Descriptor.isAt
  cases hplace : widget.place with
  | none => cases place <;> simp [isStr, Section.name] <;> decide
  | some value => cases value <;> simp [isStr]

theorem Section.name_injective : Function.Injective Section.name := by
  intro a b h
  have hsome := congrArg (fun name => section? (.str name)) h
  simpa using hsome

/-- A widget is in one section only. -/
theorem not_isAt (h : widget.isAt place = true) (hother : other ≠ place) :
    widget.isAt other = false := by
  rw [← Bool.not_eq_true, isAt_iff]
  rw [isAt_iff] at h
  rintro (hsome | ⟨hnone, rfl⟩)
  · rcases h with hplace | ⟨hplace, -⟩
    · rw [hplace, Option.some.injEq, Value.str.injEq] at hsome
      exact hother (Section.name_injective hsome.symm)
    · rw [hplace] at hsome
      cases hsome
  · rcases h with hplace | ⟨-, rfl⟩
    · rw [hplace] at hnone
      cases hnone
    · exact hother rfl

theorem movable_of_isAt (h : widget.isAt place = true) : widget.movable place = true := by
  unfold Widget.movable
  rcases isAt_iff.mp h with hplace | ⟨hplace, rfl⟩
  · rw [hplace]
    simp
  · rw [hplace]
    rfl

theorem isAt_sited (h : widget.movable place = true) (order : ℕ) :
    (widget.sited place order).isAt place = true := by
  refine isAt_iff.mpr ?_
  unfold Widget.movable at h
  unfold Widget.sited
  cases hplace : widget.place with
  | none =>
      rw [hplace] at h
      exact Or.inr ⟨rfl, of_decide_eq_true h⟩
  | some value => exact Or.inl rfl

end

/-! ### The arranged section -/

section

variable {widgets : List Widget} {moving widget : Widget} {place other : Section} {index : ℕ}

theorem mem_dropped : widget ∈ dropped widgets moving index ↔
    widget = moving ∨ widget ∈ widgets ∧ moving.isSame widget = false := by
  have hsplit : widget ∈ widgets ↔ widget ∈ widgets.take index ∨ widget ∈ widgets.drop index := by
    rw [← List.mem_append, List.take_append_drop]
  simp only [dropped, List.mem_append, List.mem_cons, List.mem_filter, Bool.not_eq_eq_eq_not,
    Bool.not_true, hsplit]
  tauto

theorem distinct_dropped (h : Distinct widgets) : Distinct (dropped widgets moving index) := by
  have hparts := h
  rw [← List.take_append_drop index widgets, Distinct, List.pairwise_append] at hparts
  refine List.pairwise_append.mpr ⟨hparts.1.filter _, List.pairwise_cons.mpr
    ⟨fun b hb => ?_, hparts.2.1.filter _⟩, fun a ha b hb => ?_⟩
  · simpa using (List.mem_filter.mp hb).2
  · rcases List.mem_cons.mp hb with rfl | hb
    · rw [Widget.isSame_comm]
      simpa using (List.mem_filter.mp ha).2
    · exact hparts.2.2 a (List.mem_filter.mp ha).1 b (List.mem_filter.mp hb).1

theorem Distinct.nodup (h : Distinct widgets) : widgets.Nodup :=
  h.imp fun hdiffers heq => by
    rw [heq, Widget.isSame_self] at hdiffers
    cases hdiffers

/-- The widgets of a section and the one that moves there. -/
def among (moving : Widget) (place : Section) (widget : Widget) : Bool :=
  widget.enabled && (widget.isAt place || moving.isSame widget)

/-- A move of a listed widget within what a scan lists. -/
structure Moving (widgets : List Widget) (moving : Widget) (place : Section) : Prop where
  distinct : Distinct widgets
  listed : moving ∈ widgets
  enabled : moving.enabled = true
  movable : moving.movable place = true

/-- The section as it will be listed. -/
def arrangement (widgets : List Widget) (moving : Widget) (place : Section) (index : ℕ) :
    List Widget :=
  dropped (widgets.filter fun widget => widget.enabled && widget.isAt place) moving index

namespace Moving

variable (h : Moving widgets moving place)

include h

theorem mem_arrangement : widget ∈ arrangement widgets moving place index ↔
    widget ∈ widgets ∧ among moving place widget = true := by
  rw [arrangement, mem_dropped, List.mem_filter, among]
  constructor
  · rintro (rfl | ⟨⟨hmem, hdrawn⟩, -⟩)
    · exact ⟨h.listed, by simp [h.enabled, Widget.isSame_self]⟩
    · simp only [Bool.and_eq_true] at hdrawn
      exact ⟨hmem, by simp [hdrawn.1, hdrawn.2]⟩
  · rintro ⟨hmem, hamong⟩
    simp only [Bool.and_eq_true, Bool.or_eq_true] at hamong ⊢
    cases hsame : moving.isSame widget with
    | true => exact Or.inl (h.distinct.eq_of_isSame h.listed hmem hsame).symm
    | false =>
        rw [hsame] at hamong
        exact Or.inr ⟨⟨hmem, hamong.1, hamong.2.resolve_right Bool.false_ne_true⟩, rfl⟩

theorem distinct_arrangement : Distinct (arrangement widgets moving place index) :=
  distinct_dropped (List.Pairwise.filter _ h.distinct)

theorem movable_arrangement (hwidget : widget ∈ arrangement widgets moving place index) :
    widget.movable place = true := by
  rw [arrangement, mem_dropped, List.mem_filter] at hwidget
  rcases hwidget with rfl | ⟨⟨-, hdrawn⟩, -⟩
  · exact h.movable
  · exact movable_of_isAt (Bool.and_eq_true_iff.mp hdrawn).2

theorem pairwise_zipIdx : (arrangement widgets moving place index).zipIdx.Pairwise
    fun a b => a.1.isSame b.1 = false := by
  have hdistinct : Distinct ((arrangement widgets moving place index).zipIdx.map Prod.fst) := by
    rw [List.zipIdx_map_fst]
    exact h.distinct_arrangement
  exact List.pairwise_map.mp hdistinct

/-- An arranged widget gets the section and its index there. -/
theorem renumber_getElem {i : ℕ} (hi : i < (arrangement widgets moving place index).length) :
    renumber place (arrangement widgets moving place index).zipIdx
      (arrangement widgets moving place index)[i] =
        (arrangement widgets moving place index)[i].sited place i :=
  renumber_of_mem h.pairwise_zipIdx (List.mk_mem_zipIdx_iff_getElem?.mpr
    (List.getElem?_eq_getElem hi))

/-- Whatever is not arranged stays as it is. -/
theorem renumber_of_not_mem (hmem : widget ∈ widgets)
    (hwidget : widget ∉ arrangement widgets moving place index) :
    renumber place (arrangement widgets moving place index).zipIdx widget = widget := by
  refine renumber_of_not fun item hitem => ?_
  have harranged : item.1 ∈ arrangement widgets moving place index :=
    List.fst_mem_of_mem_zipIdx hitem
  rw [← Bool.not_eq_true]
  intro hsame
  have heq := h.distinct.eq_of_isSame (h.mem_arrangement.mp harranged).1 hmem hsame
  exact hwidget (heq ▸ harranged)

/-- What is drawn at the place afterwards: `numbered` is a widget after the
arrangement was numbered. -/
theorem drawn_renumber (hmem : widget ∈ widgets) {numbered : Widget}
    (hnumbered : renumber place (arrangement widgets moving place index).zipIdx widget =
      numbered) :
    (numbered.enabled && numbered.isAt place) = among moving place widget := by
  have hunplaced : numbered.unplaced = widget.unplaced := by
    rw [← hnumbered]
    exact unplaced_renumber
  have henabled : numbered.unplaced.enabled = widget.unplaced.enabled := by rw [hunplaced]
  rw [show numbered.enabled = widget.enabled from henabled, among]
  by_cases harranged : widget ∈ arrangement widgets moving place index
  · obtain ⟨i, hi, rfl⟩ := List.mem_iff_getElem.mp harranged
    have hamong := (h.mem_arrangement.mp harranged).2
    rw [among, Bool.and_eq_true] at hamong
    rw [← hnumbered, h.renumber_getElem hi, isAt_sited (h.movable_arrangement harranged),
      hamong.2]
  · have hamong : among moving place widget = false := by
      rw [← Bool.not_eq_true]
      exact fun hamong => harranged (h.mem_arrangement.mpr ⟨hmem, hamong⟩)
    rw [← hnumbered, h.renumber_of_not_mem hmem harranged]
    rw [among] at hamong
    cases hon : widget.enabled with
    | false => rfl
    | true =>
        rw [hon, Bool.true_and, Bool.or_eq_false_iff] at hamong
        rw [hamong.1, hamong.2, Bool.or_false]

theorem drawn_renumber_other (hmem : widget ∈ widgets) (hother : other ≠ place)
    {numbered : Widget}
    (hnumbered : renumber place (arrangement widgets moving place index).zipIdx widget =
      numbered) :
    (numbered.enabled && numbered.isAt other) =
      (widget.enabled && widget.isAt other && !moving.isSame widget) := by
  by_cases harranged : widget ∈ arrangement widgets moving place index
  · have hamong := (h.mem_arrangement.mp harranged).2
    obtain ⟨i, hi, rfl⟩ := List.mem_iff_getElem.mp harranged
    rw [← hnumbered, h.renumber_getElem hi,
      not_isAt (isAt_sited (h.movable_arrangement harranged) i) hother, Bool.and_false]
    rw [among, Bool.and_eq_true, Bool.or_eq_true] at hamong
    rcases hamong.2 with hplace | hsame
    · rw [not_isAt hplace hother, Bool.and_false, Bool.false_and]
    · rw [hsame, Bool.not_true, Bool.and_false]
  · rw [← hnumbered, h.renumber_of_not_mem hmem harranged]
    cases hsame : moving.isSame widget with
    | false => rw [Bool.not_false, Bool.and_true]
    | true =>
        have heq := h.distinct.eq_of_isSame h.listed hmem hsame
        refine absurd (h.mem_arrangement.mpr ⟨hmem, ?_⟩) harranged
        simp [among, ← heq, h.enabled, Widget.isSame_self]

theorem perm (hperm : widgets.Perm others) : Moving others moving place :=
  ⟨h.distinct.perm hperm, hperm.mem_iff.mp h.listed, h.enabled, h.movable⟩

end Moving

/-- The arranged widgets are in a strict order. -/
theorem pairwise_arranged (h : Moving widgets moving place) :
    ((arrangement widgets moving place index).map
      (renumber place (arrangement widgets moving place index).zipIdx)).Pairwise fun a b =>
        sortKey a.toDescriptor a.key ≤ sortKey b.toDescriptor b.key ∧
          ¬ sortKey b.toDescriptor b.key ≤ sortKey a.toDescriptor a.key := by
  rw [List.pairwise_iff_getElem]
  intro i j hi hj hlt
  rw [List.length_map] at hi hj
  rw [List.getElem_map, List.getElem_map, h.renumber_getElem hi, h.renumber_getElem hj]
  exact sortKey_of_lt (Int.ofNat_lt.mpr hlt)

end

/-! ### The command -/

/-- Numbering an arrangement lists it, and every other section without the
widget that moved. -/
theorem moved_of_scan {before after : Scan} {listed : List Widget} {moving : Widget}
    {place : Section} {index : ℕ}
    (hbefore : before.widgets = listed.insertionSort fun a b =>
      sortKey a.toDescriptor a.key ≤ sortKey b.toDescriptor b.key)
    (hafter : after.widgets = (listed.map (renumber place
      (arrangement before.widgets moving place index).zipIdx)).insertionSort fun a b =>
        sortKey a.toDescriptor a.key ≤ sortKey b.toDescriptor b.key)
    (h : Moving before.widgets moving place) : Moved moving place index before after := by
  have hperm : before.widgets.Perm listed := by
    rw [hbefore]
    exact List.perm_insertionSort _ _
  have hmem : ∀ widget ∈ listed, widget ∈ before.widgets := fun widget hwidget =>
    hperm.mem_iff.mpr hwidget
  have hunplaced : ∀ widgets : List Widget, (widgets.map (renumber place
      (arrangement before.widgets moving place index).zipIdx)).map Widget.unplaced =
        widgets.map Widget.unplaced := by
    intro widgets
    rw [List.map_map]
    exact List.map_congr_left fun widget _ => unplaced_renumber
  refine ⟨?_, fun other hother => ?_, ?_⟩
  · have hgroup : (arrangement before.widgets moving place index).Perm
        (listed.filter (among moving place)) := by
      refine (List.perm_ext_iff_of_nodup h.distinct_arrangement.nodup
        ((h.distinct.perm hperm).nodup.filter _)).mpr fun widget => ?_
      rw [h.mem_arrangement, List.mem_filter, hperm.mem_iff]
    have hlisted : after.drawn place = (arrangement before.widgets moving place index).map
        (renumber place (arrangement before.widgets moving place index).zipIdx) := by
      rw [Scan.drawn, hafter]
      refine (orderedOn_sortKey _).filter_insertionSort_map (fun widget hwidget => ?_) hgroup
        (pairwise_arranged h)
      exact h.drawn_renumber (hmem widget hwidget) rfl
    rw [hlisted, hunplaced]
    rfl
  · have hstays : ∀ widget ∈ listed,
        (widget.enabled && widget.isAt other && !moving.isSame widget) = true →
          widget ∉ arrangement before.widgets moving place index := by
      intro widget hwidget hkept harranged
      have hamong := (h.mem_arrangement.mp harranged).2
      simp only [Bool.and_eq_true, among, Bool.or_eq_true, Bool.not_eq_eq_eq_not,
        Bool.not_true] at hkept hamong
      rcases hamong.2 with hplace | hsame
      · rw [not_isAt hplace hother] at hkept
        cases hkept.1.2
      · rw [hsame] at hkept
        cases hkept.2
    have hlisted : after.drawn other = before.widgets.filter fun widget =>
        widget.enabled && widget.isAt other && !moving.isSame widget := by
      rw [Scan.drawn, hafter, hbefore]
      refine (orderedOn_sortKey listed).filter_insertionSort_map_of_eq (orderedOn_sortKey _)
        (fun widget hwidget => ?_) (fun widget hwidget hkept => ?_)
      · rw [← hbefore]
        exact h.drawn_renumber_other (hmem widget hwidget) hother rfl
      · rw [← hbefore]
        exact h.renumber_of_not_mem (hmem widget hwidget) (hstays widget hwidget hkept)
    rw [hlisted, Scan.drawn, List.filter_filter]
    exact List.filter_congr fun widget _ => Bool.and_comm _ _
  · rw [hafter]
    refine ((List.perm_insertionSort _ _).map _).trans ?_
    rw [hunplaced]
    exact hperm.symm.map _

theorem commandMoveWidget_eq_ok {w after : World} {key : Text} {place : Section} {index : ℤ}
    (h : commandMoveWidget w key place index = .ok after) :
    ∃ before moving plugins, scan w.registry w.packages = .ok before ∧
      widgetAt (before.widgets.filter (·.enabled)) key = some moving ∧
        index.toNat ≤ (before.drawn place).length ∧
          (arranged (before.drawn place) moving index.toNat).zipIdx.foldlM (siteWidget place)
            w.registry.plugins = some plugins ∧
              after = { w with registry := { w.registry with plugins := plugins } } := by
  simp only [commandMoveWidget, bind_eq_ok, pure_eq_ok, expect_eq_ok, check_eq_ok,
    insist_eq_ok] at h
  obtain ⟨before, hbefore, moving, hmoving, -, hindex, plugins, hplugins, rfl⟩ := h
  have hdrawn : (before.widgets.filter (·.enabled)).filter (·.isAt place) =
      before.drawn place := by
    rw [List.filter_filter]
    exact List.filter_congr fun widget _ => Bool.and_comm _ _
  rw [hdrawn] at hindex hplugins
  simp only [Bool.and_eq_true, decide_eq_true_eq] at hindex
  exact ⟨before, moving, plugins, hbefore, hmoving, by omega, hplugins, rfl⟩

/-- A scan after the command lists the widget where it was dropped, and
everything else as before. -/
theorem commandMoveWidget_moves {document : Option PyDict} {registry : Registry}
    {packages : Packages} {before : Scan} {key : Text} {moving : Widget} {place : Section}
    {index : ℤ} {after : World}
    (hdocument : ∀ fields, document = some fields → Proper (.obj fields))
    (hregistry : preferences document = .ok registry)
    (hbefore : scan registry packages = .ok before)
    (hmoving : widgetAt (before.widgets.filter (·.enabled)) key = some moving)
    (hmovable : moving.movable place = true)
    (h : commandMoveWidget ⟨registry, packages⟩ key place index = .ok after) :
    ∃ info, scan after.registry after.packages = .ok info ∧
      Moved moving place index.toNat before info := by
  have hproper := preferences_proper hdocument hregistry
  obtain ⟨found, chosen, plugins, hfound, hchosen, hindex, hplugins, rfl⟩ :=
    commandMoveWidget_eq_ok h
  obtain rfl := Except.ok.inj (hfound.symm.trans hbefore)
  obtain rfl := Option.some.inj (hchosen.symm.trans hmoving)
  have hscan := hbefore
  simp only [scan, bind_eq_ok, pure_eq_ok] at hscan
  obtain ⟨bar, hbar, listed, hlisted, hscanned⟩ := hscan
  have hwidgets : found.widgets = listed.2.insertionSort fun a b =>
      sortKey a.toDescriptor a.key ≤ sortKey b.toDescriptor b.key := by rw [← hscanned]
  have hperm : found.widgets.Perm listed.2 := by
    rw [hwidgets]
    exact List.perm_insertionSort _ _
  have hids := foundIds_nodup registry.plugins packages
  have hlists := List.mem_filter.mp (List.mem_of_find?_eq_some hmoving)
  have hmove : Moving found.widgets chosen place :=
    ⟨(scanPlugins_distinct hproper hids hlisted).perm hperm.symm, hlists.1, hlists.2, hmovable⟩
  have hdistinct : Distinct (found.drawn place) := List.Pairwise.filter _ hmove.distinct
  rw [arranged_eq_dropped hdistinct hindex] at hplugins
  have hmem : ∀ item ∈ (arrangement found.widgets chosen place index.toNat).zipIdx,
      item.1 ∈ arrangement found.widgets chosen place index.toNat :=
    fun item hitem => List.fst_mem_of_mem_zipIdx hitem
  obtain ⟨hkeys, numbered, hnumbered, hall⟩ := sites_scan hproper hids hlisted
    (fun item hitem => hperm.mem_iff.mp (hmove.mem_arrangement.mp (hmem item hitem)).1)
    (fun item hitem => hmove.movable_arrangement (hmem item hitem)) hmove.pairwise_zipIdx hplugins
  have hfoundIds : foundIds plugins packages = foundIds registry.plugins packages := by
    unfold foundIds
    rw [hkeys]
  have hafter : scan { registry with plugins := plugins } packages = .ok ⟨bar,
      numbered.2.insertionSort fun a b =>
        sortKey a.toDescriptor a.key ≤ sortKey b.toDescriptor b.key,
      numbered.1.insertionSort fun a b => sortKey a a.id ≤ sortKey b b.id⟩ := by
    simp only [scan, bind_eq_ok, pure_eq_ok]
    refine ⟨bar, hbar, numbered, ?_, rfl⟩
    rw [hfoundIds]
    exact hnumbered
  exact ⟨_, hafter, moved_of_scan hwidgets (congrArg (List.insertionSort _) hall) hmove⟩

/-! ### Chips that stay or change -/

/-- `a` has no package; the widget of `b` is hidden, but the section saved for
it is none. -/
def misplaced : PyDict :=
  [(ascii "v", .num (.int 1)), (ascii "plugins", .obj [(ascii "a", .obj [(ENABLED, .bool true)]),
    (ascii "b", .obj [(ENABLED, .bool true), (ascii "widgetEnabled", .bool false),
      (ascii "section", .str (ascii "top"))])])]

/-- The scans around a widget being dropped at the front of the left section. -/
def droppedLeft (document : PyDict) (packages : Packages) (key : Text) :
    Result (Registry × Scan × Widget × World × Scan) := do
  let registry ← raising (preferences (some document))
  let before ← scan registry packages
  let moving ← insist (widgetAt (before.widgets.filter (·.enabled)) key)
  let after ← commandMoveWidget ⟨registry, packages⟩ key .left 0
  let info ← scan after.registry after.packages
  return (registry, before, moving, after, info)

/-- What a run of `droppedLeft` went through. -/
structure DroppedLeft (document : PyDict) (packages : Packages) (key : Text)
    (registry : Registry) (before : Scan) (moving : Widget) (after : World) (info : Scan) :
    Prop where
  read : preferences (some document) = .ok registry
  scanned : scan registry packages = .ok before
  found : widgetAt (before.widgets.filter (·.enabled)) key = some moving
  moved : commandMoveWidget ⟨registry, packages⟩ key .left 0 = .ok after
  rescanned : scan after.registry after.packages = .ok info

theorem droppedLeft_eq_ok {document : PyDict} {packages : Packages} {key : Text}
    {registry : Registry} {before : Scan} {moving : Widget} {after : World} {info : Scan}
    (h : droppedLeft document packages key = .ok (registry, before, moving, after, info)) :
    DroppedLeft document packages key registry before moving after info := by
  simp only [droppedLeft, bind_eq_ok, pure_eq_ok, raising_eq_ok, insist_eq_ok,
    Prod.mk.injEq] at h
  obtain ⟨_, hregistry, _, hbefore, _, hmoving, _, hafter, _, hinfo, rfl, rfl, rfl, rfl, rfl⟩ := h
  exact ⟨hregistry, hbefore, hmoving, hafter, hinfo⟩

/-- Whether the errors at the place are those that should be shown there. -/
def errorsLeft (states : Registry × Scan × Widget × World × Scan) : Bool :=
  (states.2.2.2.2.drawn .left).map (fun widget => widget.error) ==
    (dropped (states.2.1.drawn .left) states.2.2.1 0).map fun widget => widget.error

theorem misplaced_errors : ∀ key ∈ [ascii "a", ascii "b"],
    (droppedLeft misplaced [barWidget (ascii "b")] key).toOption.any (!errorsLeft ·) = true := by
  decide +kernel

theorem misplaced_proper : Proper (.obj misplaced) := by
  have hmember : ∀ fields, (Dict.keys fields).Nodup → (∀ field ∈ fields, Proper field.2) →
      Proper (.obj fields) := fun fields => .obj fields
  refine hmember _ (by decide) ?_
  simp only [misplaced, List.forall_mem_cons, List.not_mem_nil, IsEmpty.forall_iff, implies_true,
    and_true]
  refine ⟨.num _, hmember _ (by decide) ?_⟩
  simp only [List.forall_mem_cons, List.not_mem_nil, IsEmpty.forall_iff, implies_true, and_true]
  refine ⟨hmember _ (by decide) ?_, hmember _ (by decide) ?_⟩
  · simp only [List.forall_mem_cons, List.not_mem_nil, IsEmpty.forall_iff, implies_true, and_true]
    exact .bool _
  · simp only [List.forall_mem_cons, List.not_mem_nil, IsEmpty.forall_iff, implies_true, and_true]
    exact ⟨.bool _, .bool _, .str _⟩

/-- Dropped into the left section the chip of `a` stays in the right one, and
that of `b` is gone. -/
theorem misplaced_stays : Proper (.obj misplaced) ∧ ∀ key ∈ [ascii "a", ascii "b"],
    ∃ registry before moving after info,
      DroppedLeft misplaced [barWidget (ascii "b")] key registry before moving after info ∧
        ¬ Moved moving .left 0 before info := by
  refine ⟨misplaced_proper, fun key hkey => ?_⟩
  have herrors := misplaced_errors key hkey
  cases hstates : droppedLeft misplaced [barWidget (ascii "b")] key with
  | error raised =>
      rw [hstates] at herrors
      cases herrors
  | ok states =>
      obtain ⟨registry, before, moving, after, info⟩ := states
      refine ⟨registry, before, moving, after, info, droppedLeft_eq_ok hstates, fun hmoved => ?_⟩
      have hsame := congrArg (List.map fun widget : Widget => widget.error) hmoved.destination
      rw [List.map_map, List.map_map] at hsame
      have hleft : errorsLeft (registry, before, moving, after, info) = true :=
        beq_iff_eq.mpr hsame
      rw [hstates] at herrors
      simp only [Except.toOption, Option.any_some, hleft, Bool.not_true] at herrors
      cases herrors

theorem halfDrawn_movable :
    (droppedLeft halfDrawn twoWidgets (ascii "b#y")).toOption.any
      (fun states => states.2.2.1.movable .left) = true := by
  decide +kernel

theorem commandMoveWidget_moves_instance : ∃ registry before moving after info,
    DroppedLeft halfDrawn twoWidgets (ascii "b#y") registry before moving after info ∧
      Moved moving .left 0 before info := by
  have hmovable := halfDrawn_movable
  cases hstates : droppedLeft halfDrawn twoWidgets (ascii "b#y") with
  | error raised =>
      rw [hstates] at hmovable
      cases hmovable
  | ok states =>
      obtain ⟨registry, before, moving, after, info⟩ := states
      have hdropped := droppedLeft_eq_ok hstates
      rw [hstates] at hmovable
      refine ⟨registry, before, moving, after, info, hdropped, ?_⟩
      obtain ⟨found, hfound, hmoved⟩ := commandMoveWidget_moves
        (by rintro _ ⟨⟩; exact halfDrawn_proper) hdropped.read hdropped.scanned hdropped.found
          hmovable hdropped.moved
      obtain rfl := Except.ok.inj (hfound.symm.trans hdropped.rescanned)
      exact hmoved

end Plugins

end CybexOS
