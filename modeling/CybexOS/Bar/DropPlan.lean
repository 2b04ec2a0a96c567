/-
The drop preview of the widget editor is what the drop does.
-/
import CybexOS.Bar.WidgetEditor

namespace CybexOS

namespace Bar

namespace Editor

open Settings (Column)

variable {Detail : Type} {mods : Layout Detail} {plugins : List PluginWidget}
  {metadata : Text → Option Metadata} {moving : Entry} {col : Column}

/-! ### Sections of the catalog -/

/-- The visible built-ins of a column. -/
def builtinsIn (metadata : Text → Option Metadata) (col : Column)
    (list : List (Widget Bool Detail)) : List Entry :=
  (list.zipIdx.filter fun item => item.1.on).map fun item =>
    builtinEntry metadata col item.1 item.2

/-- The visible plugins of a section. -/
def pluginsIn (plugins : List PluginWidget) (col : Text) : List Entry :=
  (plugins.map pluginEntry).filter fun entry => entry.enabled && entry.col == col

def arrange (col : Column) (builtins plugins : List Entry) : List Entry :=
  if col = .center then builtins ++ plugins else plugins ++ builtins

theorem key_inj {first second : Column} : first.key = second.key ↔ first = second := by
  cases first <;> cases second <;> decide

theorem enabled_builtins (other : Column) (list : List (Widget Bool Detail)) :
    (list.zipIdx.map fun item => builtinEntry metadata other item.1 item.2).filter
        (fun entry => entry.enabled && entry.col == col.key) =
      if other = col then builtinsIn metadata col list else [] := by
  rw [List.filter_map]
  split_ifs with h
  · subst h
    refine congrArg _ (List.filter_congr fun item _ => ?_)
    simp [builtinEntry]
  · rw [List.map_eq_nil_iff, List.filter_eq_nil_iff]
    intro item _
    simp [builtinEntry, key_inj, h]

theorem enabled_catalog (mods : Layout Detail) (plugins : List PluginWidget)
    (metadata : Text → Option Metadata) (col : Column) :
    (catalog mods plugins metadata).filter (fun entry => entry.enabled && entry.col == col.key) =
      builtinsIn metadata col (mods col) ++ pluginsIn plugins col.key := by
  rw [catalog, List.filter_append]
  refine congrArg (· ++ _) ?_
  simp only [Column.all, List.flatMap_cons, List.flatMap_nil, List.filter_append,
    enabled_builtins]
  cases col <;> simp

theorem plugin_builtinsIn {list : List (Widget Bool Detail)} :
    ∀ entry ∈ builtinsIn metadata col list, entry.plugin = false := by
  intro entry hentry
  obtain ⟨item, -, rfl⟩ := List.mem_map.mp hentry
  rfl

theorem plugin_pluginsIn {name : Text} : ∀ entry ∈ pluginsIn plugins name, entry.plugin = true := by
  intro entry hentry
  obtain ⟨widget, -, rfl⟩ := List.mem_map.mp (List.mem_of_mem_filter hentry)
  rfl

theorem sectionEntries_catalog (mods : Layout Detail) (plugins : List PluginWidget)
    (metadata : Text → Option Metadata) (col : Column) :
    sectionEntries (catalog mods plugins metadata) col.key =
      arrange col (builtinsIn metadata col (mods col)) (pluginsIn plugins col.key) := by
  have hbuiltins : (builtinsIn metadata col (mods col) ++ pluginsIn plugins col.key).filter
      (fun entry => !entry.plugin) = builtinsIn metadata col (mods col) := by
    rw [List.filter_append, List.filter_eq_self.mpr, List.filter_eq_nil_iff.mpr, List.append_nil]
    · exact fun entry hentry => by simp [plugin_pluginsIn entry hentry]
    · exact fun entry hentry => by simp [plugin_builtinsIn entry hentry]
  have hplugins : (builtinsIn metadata col (mods col) ++ pluginsIn plugins col.key).filter
      (fun entry => entry.plugin) = pluginsIn plugins col.key := by
    rw [List.filter_append, List.filter_eq_nil_iff.mpr, List.filter_eq_self.mpr, List.nil_append]
    · exact fun entry hentry => plugin_pluginsIn entry hentry
    · exact fun entry hentry => by simp [plugin_builtinsIn entry hentry]
  have hcenter : col.key = ascii "center" ↔ col = .center := @key_inj col .center
  rw [sectionEntries, enabled_catalog]
  simp only [hbuiltins, hplugins, hcenter, arrange]

/-! ### Planning -/

theorem sliceTo_natCast {α : Type} (list : List α) (n : ℕ) : sliceTo list n = list.take n := by
  rw [sliceTo, if_neg (by omega), Int.toNat_natCast]

theorem length_filter_sliceTo_le {α : Type} (p : α → Bool) (list : List α) (stop : ℤ) :
    ((sliceTo list stop).filter p).length ≤ (list.filter p).length :=
  ((List.take_sublist _ list).filter p).length_le

theorem filter_kind {kind : Bool} {list : List Entry} (h : ∀ entry ∈ list, entry.plugin = kind) :
    list.filter (fun entry => entry.plugin == kind) = list :=
  List.filter_eq_self.mpr fun entry hentry => by simp [h entry hentry]

theorem filter_kind_none {kind : Bool} {list : List Entry}
    (h : ∀ entry ∈ list, entry.plugin = !kind) :
    list.filter (fun entry => entry.plugin == kind) = [] :=
  List.filter_eq_nil_iff.mpr fun entry hentry => by simp [h entry hentry]

/-- How many entries stand before those of a kind. -/
def offsetOf (col : Column) (kind : Bool) (builtins others : List Entry) : ℕ :=
  if col = .center then (if kind then builtins.length else 0)
  else if kind then 0 else others.length

/-- The gap of a plan has in front of it the peers that it counted. -/
theorem filter_take_arrange {builtins others : List Entry} {kind : Bool} {before : ℕ}
    (hbuiltins : ∀ entry ∈ builtins, entry.plugin = false)
    (hothers : ∀ entry ∈ others, entry.plugin = true)
    (hbefore : before ≤ (if kind then others else builtins).length) :
    ((arrange col builtins others).take (offsetOf col kind builtins others + before)).filter
        (fun entry => entry.plugin == kind) =
      (if kind then others else builtins).take before := by
  have hfirst : ∀ first second : List Entry, (∀ entry ∈ first, entry.plugin = kind) →
      before ≤ first.length →
      ((first ++ second).take (0 + before)).filter (fun entry => entry.plugin == kind) =
        first.take before := by
    intro first second h hle
    rw [Nat.zero_add, List.take_append_of_le_length hle]
    exact filter_kind fun entry hentry => h entry (List.mem_of_mem_take hentry)
  have hsecond : ∀ first second : List Entry, (∀ entry ∈ first, entry.plugin = !kind) →
      (∀ entry ∈ second, entry.plugin = kind) →
      ((first ++ second).take (first.length + before)).filter (fun entry => entry.plugin == kind) =
        second.take before := by
    intro first second hout hin
    rw [List.take_length_add_append, List.filter_append, filter_kind_none hout, List.nil_append]
    exact filter_kind fun entry hentry => hin entry (List.mem_of_mem_take hentry)
  unfold arrange offsetOf
  by_cases hcol : col = .center
  · rw [if_pos hcol, if_pos hcol]
    cases kind with
    | false => exact hfirst builtins others hbuiltins hbefore
    | true => exact hsecond builtins others hbuiltins hothers
  · rw [if_neg hcol, if_neg hcol]
    cases kind with
    | false => exact hsecond others builtins hothers hbuiltins
    | true => exact hfirst others builtins hothers hbefore

/-- A plan by the blocks of its section. -/
theorem dropPlan_catalog (mods : Layout Detail) (plugins : List PluginWidget)
    (metadata : Text → Option Metadata) (moving : Entry) (col : Column) (gap : ℤ) :
    ∃ before, before ≤ (if moving.plugin then pluginsIn plugins col.key
        else builtinsIn metadata col (mods col)).length ∧
      before = ((sliceTo (sectionEntries (catalog mods plugins metadata) col.key) gap).filter
        fun entry => entry.plugin == moving.plugin).length ∧
      dropPlan (catalog mods plugins metadata) mods moving col gap = ⟨col.key,
        if moving.plugin then before
        else ((builtinsIn metadata col (mods col))[before]?).elim (mods col).length
          fun anchor => anchor.index.getD 0,
        offsetOf col moving.plugin (builtinsIn metadata col (mods col))
          (pluginsIn plugins col.key) + before⟩ := by
  have hpeers : (sectionEntries (catalog mods plugins metadata) col.key).filter
      (fun entry => entry.plugin == moving.plugin) = if moving.plugin then pluginsIn plugins col.key
        else builtinsIn metadata col (mods col) := by
    rw [sectionEntries_catalog, arrange]
    cases moving.plugin with
    | false =>
        rw [if_neg Bool.false_ne_true]
        split_ifs <;> rw [List.filter_append, filter_kind plugin_builtinsIn,
          filter_kind_none plugin_pluginsIn] <;> simp
    | true =>
        rw [if_pos rfl]
        split_ifs <;> rw [List.filter_append, filter_kind plugin_pluginsIn,
          filter_kind_none plugin_builtinsIn] <;> simp
  have hlength : (sectionEntries (catalog mods plugins metadata) col.key).length =
      (builtinsIn metadata col (mods col)).length + (pluginsIn plugins col.key).length := by
    rw [sectionEntries_catalog, arrange]
    split_ifs
    · exact List.length_append
    · rw [List.length_append, Nat.add_comm]
  refine ⟨_, ?_, rfl, ?_⟩
  · rw [← hpeers]
    exact length_filter_sliceTo_le _ _ gap
  · unfold dropPlan offsetOf
    simp only [hpeers, hlength]
    cases moving.plugin with
    | false => simp
    | true => simp

/-- Planning again at the gap of a plan gives the plan. -/
theorem dropPlan_again (mods : Layout Detail) (plugins : List PluginWidget)
    (metadata : Text → Option Metadata) (moving : Entry) (col : Column) (gap : ℤ) :
    dropPlan (catalog mods plugins metadata) mods moving col
        (dropPlan (catalog mods plugins metadata) mods moving col gap).gap =
      dropPlan (catalog mods plugins metadata) mods moving col gap := by
  obtain ⟨before, hle, -, hplan⟩ := dropPlan_catalog mods plugins metadata moving col gap
  obtain ⟨again, -, hagain, hsecond⟩ := dropPlan_catalog mods plugins metadata moving col
    (dropPlan (catalog mods plugins metadata) mods moving col gap).gap
  have hsame : again = before := by
    rw [hagain, sliceTo_natCast, hplan, sectionEntries_catalog,
      filter_take_arrange plugin_builtinsIn plugin_pluginsIn hle, List.length_take_of_le hle]
  rw [hsecond, hplan, hsame]

/-! ### Where a visible entry is saved -/

theorem anchor_from {α : Type} (p : α → Bool) (list : List α) {k : ℕ} (start : ℕ)
    (hk : k ≤ (list.filter p).length) :
    ∃ n, (((list.zipIdx start).filter fun item => p item.1)[k]?).map Prod.snd =
        (if k < (list.filter p).length then some (start + n) else none) ∧ n ≤ list.length ∧
      (k = (list.filter p).length → n = list.length) ∧
      (list.take n).filter p = (list.filter p).take k ∧
      (list.drop n).filter p = (list.filter p).drop k := by
  induction list generalizing k start with
  | nil =>
      obtain rfl : k = 0 := Nat.le_zero.mp hk
      exact ⟨0, rfl, le_rfl, fun _ => rfl, rfl, rfl⟩
  | cons first list ih =>
      rw [List.zipIdx_cons]
      by_cases hfirst : p first = true
      · have hzip : ((first, start) :: list.zipIdx (start + 1)).filter (fun item => p item.1) =
            (first, start) :: (list.zipIdx (start + 1)).filter fun item => p item.1 :=
          List.filter_cons_of_pos hfirst
        rw [List.filter_cons_of_pos hfirst] at hk ⊢
        rw [hzip]
        cases k with
        | zero =>
            refine ⟨0, by simp, Nat.zero_le _, by simp, rfl, ?_⟩
            rw [List.drop_zero, List.filter_cons_of_pos hfirst, List.drop_zero]
        | succ k =>
            obtain ⟨n, hn, hle, hend, htake, hdrop⟩ := ih (start + 1) (Nat.le_of_succ_le_succ hk)
            refine ⟨n + 1, ?_, Nat.succ_le_succ hle, fun h => ?_, ?_, hdrop⟩
            · rw [List.getElem?_cons_succ, hn]
              simp only [List.length_cons, Nat.add_lt_add_iff_right, Nat.add_assoc, Nat.add_comm n]
            · rw [hend (Nat.succ.inj h), List.length_cons]
            · rw [List.take_succ_cons, List.filter_cons_of_pos hfirst, htake, List.take_succ_cons]
      · have hzip : ((first, start) :: list.zipIdx (start + 1)).filter (fun item => p item.1) =
            (list.zipIdx (start + 1)).filter fun item => p item.1 :=
          List.filter_cons_of_neg hfirst
        rw [List.filter_cons_of_neg hfirst] at hk ⊢
        rw [hzip]
        obtain ⟨n, hn, hle, hend, htake, hdrop⟩ := ih (start + 1) hk
        refine ⟨n + 1, ?_, Nat.succ_le_succ hle, fun h => by rw [hend h, List.length_cons], ?_,
          hdrop⟩
        · rw [hn, Nat.add_assoc, Nat.add_comm n]
        · rw [List.take_succ_cons, List.filter_cons_of_neg hfirst, htake]

/-- The place of the visible entry at a gap cuts the saved column where the gap
cuts what is visible. -/
theorem anchor_cut {α : Type} (p : α → Bool) (list : List α) {k : ℕ}
    (hk : k ≤ (list.filter p).length) :
    ∃ n, (((list.zipIdx.filter fun item => p item.1)[k]?).map Prod.snd).getD list.length = n ∧
      n ≤ list.length ∧ (list.take n).filter p = (list.filter p).take k ∧
      (list.drop n).filter p = (list.filter p).drop k := by
  obtain ⟨n, hn, hle, hend, htake, hdrop⟩ := anchor_from p list 0 hk
  refine ⟨n, ?_, hle, htake, hdrop⟩
  rw [hn]
  split_ifs with hlt
  · rw [Option.getD_some, Nat.zero_add]
  · exact (hend (Nat.le_antisymm hk (Nat.not_lt.mp hlt))).symm

/-! ### What a move leaves -/

/-- The ids of a layout are distinct. -/
def Distinct (mods : Layout Detail) : Prop := ((entries mods).map Widget.id).Nodup

instance : Decidable (Distinct mods) := inferInstanceAs (Decidable (List.Nodup _))

theorem Distinct.columns (h : Distinct mods) :
    (∀ col, ((mods col).map Widget.id).Nodup) ∧ ∀ first second, first ≠ second →
      ∀ v ∈ mods first, ∀ w ∈ mods second, v.id ≠ w.id := by
  rw [Distinct, entries, List.map_flatMap, List.nodup_flatMap] at h
  obtain ⟨hcolumns, hapart⟩ := h
  have hall : ∀ col, col ∈ Column.all := by
    intro col
    cases col <;> decide
  refine ⟨fun col => hcolumns col (hall col), ?_⟩
  have hdisjoint : ∀ first second, first ≠ second →
      List.Disjoint ((mods first).map Widget.id) ((mods second).map Widget.id) := by
    simp only [Column.all, List.pairwise_cons, List.mem_cons, List.not_mem_nil, or_false,
      Function.onFun] at hapart
    obtain ⟨hleft, hcenter, -⟩ := hapart
    intro first second hne
    cases first <;> cases second
    · exact absurd rfl hne
    · exact hleft _ (Or.inl rfl)
    · exact hleft _ (Or.inr rfl)
    · exact (hleft _ (Or.inl rfl)).symm
    · exact absurd rfl hne
    · exact hcenter _ rfl
    · exact (hleft _ (Or.inr rfl)).symm
    · exact (hcenter _ rfl).symm
    · exact absurd rfl hne
  intro first second hne v hv w hw hid
  exact hdisjoint first second hne (List.mem_map_of_mem hv) (hid ▸ List.mem_map_of_mem hw)

/-- Where ids are distinct, to remove an entry is to drop its id. -/
theorem eraseIdx_eq_filter {list : List (Widget Bool Detail)} {f : ℕ} {entry : Widget Bool Detail}
    (hnodup : (list.map Widget.id).Nodup) (hget : list[f]? = some entry) :
    list.eraseIdx f = list.filter (·.id ≠ entry.id) := by
  induction list generalizing f with
  | nil => cases hget
  | cons first list ih =>
      rw [List.map_cons, List.nodup_cons] at hnodup
      cases f with
      | zero =>
          obtain rfl := Option.some.inj hget
          rw [List.eraseIdx_cons_zero, List.filter_cons_of_neg (by simp), List.filter_eq_self.mpr]
          intro other hother
          have hne : other.id ≠ first.id := fun heq =>
            hnodup.1 (heq ▸ List.mem_map_of_mem hother)
          simpa using hne
      | succ f =>
          have hmem : entry ∈ list := List.mem_of_getElem? hget
          have hne : first.id ≠ entry.id := fun heq =>
            hnodup.1 (heq ▸ List.mem_map_of_mem hmem)
          rw [List.eraseIdx_cons_succ, List.filter_cons_of_pos (by simpa using hne),
            ih hnodup.2 hget]

/-- What stood before a gap, without the entry that was removed. -/
theorem take_removed {list : List (Widget Bool Detail)} {f n : ℕ} {entry : Widget Bool Detail}
    (hnodup : (list.map Widget.id).Nodup) (hget : list[f]? = some entry) :
    (list.filter (·.id ≠ entry.id)).take (shifted f n) = (list.take n).filter (·.id ≠ entry.id) := by
  rw [← eraseIdx_eq_filter hnodup hget, take_eraseIdx]
  rcases Nat.lt_or_ge f n with hlt | hge
  · have htake : (list.take n)[f]? = some entry := by rw [List.getElem?_take_of_lt hlt, hget]
    exact eraseIdx_eq_filter (hnodup.sublist ((List.take_sublist n list).map _)) htake
  · have hlength : (list.take n).length ≤ f := (List.length_take_le n list).trans hge
    rw [List.eraseIdx_of_length_le hlength, List.filter_eq_self.mpr]
    intro widget hwidget
    have hmem : entry ∈ list.drop n := by
      refine List.mem_of_getElem? (i := f - n) ?_
      rw [List.getElem?_drop, Nat.add_sub_cancel' hge, hget]
    rw [← List.take_append_drop n list, List.map_append, List.nodup_append] at hnodup
    simpa using hnodup.2.2 _ (List.mem_map_of_mem hwidget) _ (List.mem_map_of_mem hmem)

/-- A move in a layout of distinct ids, column by column. -/
theorem moveWidget_columns (h : Distinct mods) {source col : Column} {id : Text} {n : ℕ}
    {entry : Widget Bool Detail} (hentry : entry ∈ mods source) (hid : entry.id = id)
    (hn : n ≤ (mods col).length) :
    ∃ moved, moveWidget (whole mods) source.key id col.key n = some moved ∧
      moved.mods col = ((mods col).take n).filter (·.id ≠ id) ++
        entry :: ((mods col).drop n).filter (·.id ≠ id) ∧
      ∀ other, other ≠ col → moved.mods other = (mods other).filter (·.id ≠ id) := by
  have hnamed : ∀ column : Column, columnNamed column.key = some column := by
    intro column
    cases column <;> decide
  have hnext : ∀ column, next (whole mods) column = mods column := fun _ => rfl
  obtain ⟨hnodup, hapart⟩ := h.columns
  obtain ⟨moved, hmoved⟩ : ∃ moved, moveWidget (whole mods) source.key id col.key n =
      some moved := by
    refine Option.ne_none_iff_exists'.mp fun hnone => ?_
    rw [moveWidget_eq_none, hnamed, hnamed] at hnone
    rcases hnone with hnone | hnone | ⟨found, hfound, habsent⟩
    · cases hnone
    · cases hnone
    · obtain rfl := Option.some.inj hfound
      exact habsent entry hentry hid
  refine ⟨moved, hmoved, ?_⟩
  obtain ⟨source', target, f, entry', asked, hsource, htarget, -, hget, hid', hasked, -, hidx,
    hmods⟩ := moveWidget_eq_some hmoved
  rw [hnamed] at hsource htarget
  obtain rfl := Option.some.inj hsource
  obtain rfl := Option.some.inj htarget
  have hasked' : asked = n := by
    rw [hasked, hnext]
    unfold clamp
    omega
  subst hasked'
  simp only [hnext] at hget hmods
  have hsame : entry' = entry := by
    have hmem := List.mem_of_getElem? hget
    have hinj := List.inj_on_of_nodup_map (hnodup source) hmem hentry (hid'.trans hid.symm)
    exact hinj
  subst hsame
  subst hid
  have herase : (mods source).eraseIdx f = (mods source).filter (·.id ≠ entry'.id) :=
    eraseIdx_eq_filter (hnodup source) hget
  have helse : ∀ other, other ≠ source →
      (mods other).filter (·.id ≠ entry'.id) = mods other := by
    intro other hne
    refine List.filter_eq_self.mpr fun widget hwidget => ?_
    simpa using hapart other source hne widget hwidget entry' hentry
  constructor
  · have hsplice : ∀ place (list : List (Widget Bool Detail)),
        list = ((mods col).take asked).filter (·.id ≠ entry'.id) ++
          ((mods col).drop asked).filter (·.id ≠ entry'.id) →
        list.take place = ((mods col).take asked).filter (·.id ≠ entry'.id) →
        spliceIn place entry' list = ((mods col).take asked).filter (·.id ≠ entry'.id) ++
          entry' :: ((mods col).drop asked).filter (·.id ≠ entry'.id) := by
      intro place list hlist htake
      have hdrop : list.drop place = ((mods col).drop asked).filter (·.id ≠ entry'.id) := by
        refine @List.append_cancel_left _ (list.take place) _ _ ?_
        rw [List.take_append_drop, htake]
        exact hlist
      rw [spliceIn, htake, hdrop]
    have hwhole : (mods col).filter (·.id ≠ entry'.id) =
        ((mods col).take asked).filter (·.id ≠ entry'.id) ++
          ((mods col).drop asked).filter (·.id ≠ entry'.id) := by
      rw [← List.filter_append, List.take_append_drop]
    rw [hmods, Function.update_self]
    refine hsplice _ _ ?_ ?_
    · rw [← hwhole, without]
      split_ifs with hcol
      · rw [hcol, herase]
      · exact (helse col hcol).symm
    · rw [hidx, without]
      by_cases hcol : col = source
      · rw [if_pos hcol, if_pos hcol, hcol, herase]
        exact take_removed (hnodup source) hget
      · rw [if_neg hcol, if_neg hcol]
        refine (List.filter_eq_self.mpr fun widget hwidget => ?_).symm
        simpa using hapart col source hcol widget (List.mem_of_mem_take hwidget) entry' hentry
  · intro other hne
    rw [hmods, Function.update_of_ne hne]
    by_cases hother : other = source
    · rw [hother, Function.update_self, herase]
    · rw [Function.update_of_ne hother, helse other hother, hnext]

/-- The layout that a drop leaves, column by column. -/
structure Placed (mods : Layout Detail) (entry : Widget Bool Detail) (col : Column) (n : ℕ)
    (after : Layout Detail) : Prop where
  target : after col = ((mods col).take n).filter (·.id ≠ entry.id) ++
    { entry with on := true } :: ((mods col).drop n).filter (·.id ≠ entry.id)
  others : ∀ other, other ≠ col → after other = (mods other).filter (·.id ≠ entry.id)

theorem placed_moveTo (h : Distinct mods) {source : Column} {n : ℕ} {entry : Widget Bool Detail}
    (hentry : entry ∈ mods source) (hcol : moving.col = source.key) (hid : entry.id = moving.id)
    (hon : moving.enabled = entry.on) (hn : n ≤ (mods col).length) :
    Placed mods entry col n (if moving.enabled then moveTo mods moving col n
      else enable moving.id (moveTo mods moving col n)) := by
  obtain ⟨moved, hmoved, htarget, hothers⟩ := moveWidget_columns h hentry hid hn
  have hmods : moveTo mods moving col n = moved.mods := by
    rw [moveTo, hcol, hmoved]
    rfl
  rw [hmods]
  rw [← hid] at htarget hothers
  have hkept : ∀ list : List (Widget Bool Detail), (list.filter (·.id ≠ entry.id)).map
      (fun widget => if widget.id = moving.id then { widget with on := true } else widget) =
        list.filter (·.id ≠ entry.id) := by
    intro list
    conv_rhs => rw [← List.map_id (list.filter (·.id ≠ entry.id))]
    refine List.map_congr_left fun widget hwidget => if_neg ?_
    rw [← hid]
    simpa using (List.mem_filter.mp hwidget).2
  cases hcase : moving.enabled with
  | true =>
      have hsame : { entry with on := true } = entry := by rw [← hcase, hon]
      rw [if_pos rfl]
      exact ⟨by rw [hsame]; exact htarget, hothers⟩
  | false =>
      rw [if_neg Bool.false_ne_true]
      refine ⟨?_, fun other hne => ?_⟩
      · rw [enable, htarget, List.map_append, List.map_cons, hkept, hkept, if_pos hid]
      · rw [enable, hothers other hne, hkept]

/-! ### What the catalog shows then -/

def builtinFace (metadata : Text → Option Metadata) (col : Column) (widget : Widget Bool Detail) :
    Entry := (builtinEntry metadata col widget 0).face

theorem builtinsIn_face (metadata : Text → Option Metadata) (col : Column)
    (list : List (Widget Bool Detail)) :
    (builtinsIn metadata col list).map Entry.face =
      (list.filter (·.on)).map (builtinFace metadata col) := by
  have hfirst : (list.zipIdx.filter fun item => item.1.on).map Prod.fst = list.filter (·.on) := by
    conv_rhs => rw [← List.zipIdx_map_fst 0 list, List.filter_map]
    rfl
  rw [← hfirst, List.map_map, builtinsIn, List.map_map]
  rfl

theorem arrange_face (col : Column) (builtins plugins : List Entry) :
    (arrange col builtins plugins).map Entry.face =
      arrange col (builtins.map Entry.face) (plugins.map Entry.face) := by
  unfold arrange
  split_ifs <;> exact List.map_append

theorem filter_face (id : Text) (list : List Entry) :
    (list.filter (isOther id)).map Entry.face = (list.map Entry.face).filter (isOther id) := by
  rw [List.filter_map]
  rfl

theorem filter_builtinFace (id : Text) (list : List (Widget Bool Detail)) :
    (list.filter (·.id ≠ id)).map (builtinFace metadata col) =
      (list.map (builtinFace metadata col)).filter (isOther id) := by
  rw [List.filter_map]
  refine congrArg _ (List.filter_congr fun widget _ => Bool.eq_iff_iff.mpr ?_)
  simp [isOther, builtinFace, builtinEntry, Entry.face]

theorem filter_plugins (id : Text) {list : List Entry} (h : ∀ entry ∈ list, entry.plugin = true) :
    list.filter (isOther id) = list :=
  List.filter_eq_self.mpr fun entry hentry => by simp [isOther, h entry hentry]

theorem blocks_arrange {builtins others : List Entry}
    (hbuiltins : ∀ entry ∈ builtins, entry.plugin = false)
    (hothers : ∀ entry ∈ others, entry.plugin = true) :
    Blocks col (arrange col builtins others) := by
  have hfalse : builtins.map Entry.plugin = List.replicate builtins.length false :=
    List.map_eq_replicate_iff.mpr hbuiltins
  have htrue : others.map Entry.plugin = List.replicate others.length true :=
    List.map_eq_replicate_iff.mpr hothers
  refine ⟨builtins.length, others.length, ?_⟩
  unfold arrange
  split_ifs
  · rw [List.map_append, hfalse, htrue]
  · rw [List.map_append, hfalse, htrue]

/-! ### The drop -/

/-- A section as it is shown, by faces. -/
theorem section_face (mods : Layout Detail) (plugins : List PluginWidget)
    (metadata : Text → Option Metadata) (col : Column) :
    (sectionEntries (catalog mods plugins metadata) col.key).map Entry.face =
      arrange col (((mods col).filter (·.on)).map (builtinFace metadata col))
        ((pluginsIn plugins col.key).map Entry.face) := by
  rw [sectionEntries_catalog, arrange_face, builtinsIn_face]

theorem plugin_faces {name : Text} :
    ∀ entry ∈ (pluginsIn plugins name).map Entry.face, entry.plugin = true := by
  intro entry hentry
  obtain ⟨widget, hwidget, rfl⟩ := List.mem_map.mp hentry
  exact plugin_pluginsIn widget hwidget

theorem filter_arrange (id : Text) {builtins others : List Entry}
    (hothers : ∀ entry ∈ others, entry.plugin = true) :
    (arrange col builtins others).filter (isOther id) =
      arrange col (builtins.filter (isOther id)) others := by
  unfold arrange
  split_ifs
  · rw [List.filter_append, filter_plugins id hothers]
  · rw [List.filter_append, filter_plugins id hothers]

/-- An entry put among the built-ins of a section stands at their gap. -/
theorem arrange_insert (id : Text) (entry : Entry) {builtins others : List Entry} {k : ℕ}
    (hothers : ∀ entry ∈ others, entry.plugin = true) (hk : k ≤ builtins.length) :
    arrange col ((builtins.take k).filter (isOther id) ++
        entry :: (builtins.drop k).filter (isOther id)) others =
      ((arrange col builtins others).take (offsetOf col false builtins others + k)).filter
          (isOther id) ++
        entry :: ((arrange col builtins others).drop
          (offsetOf col false builtins others + k)).filter (isOther id) := by
  unfold arrange offsetOf
  by_cases hcol : col = .center
  · rw [if_pos hcol, if_pos hcol, if_pos hcol, if_neg Bool.false_ne_true, Nat.zero_add,
      List.take_append_of_le_length hk, List.drop_append_of_le_length hk, List.filter_append,
      filter_plugins id hothers, List.append_assoc, List.cons_append]
  · rw [if_neg hcol, if_neg hcol, if_neg hcol, if_neg Bool.false_ne_true,
      List.take_length_add_append, List.drop_length_add_append, List.filter_append,
      filter_plugins id hothers, List.append_assoc]

theorem filter_visible (id : Text) (list : List (Widget Bool Detail)) :
    (list.filter (·.id ≠ id)).filter (·.on) = (list.filter (·.on)).filter (·.id ≠ id) :=
  List.filter_comm _ _ _

/-- What is shown once an entry is in its place. -/
theorem Placed.asPlanned {source : Column} {entry : Widget Bool Detail} {index n k : ℕ}
    {after : Layout Detail} (hplaced : Placed mods entry col n after)
    (htake : ((mods col).take n).filter (·.on) = ((mods col).filter (·.on)).take k)
    (hdrop : ((mods col).drop n).filter (·.on) = ((mods col).filter (·.on)).drop k)
    (hk : k ≤ ((mods col).filter (·.on)).length) :
    AsPlanned mods plugins metadata (builtinEntry metadata source entry index) col
      ⟨col.key, n, offsetOf col false (builtinsIn metadata col (mods col))
        (pluginsIn plugins col.key) + k⟩ after where
  target := by
    have hmoved : builtinFace metadata col { entry with on := true } =
        { (builtinEntry metadata source entry index).face with
          col := col.key, enabled := true } := rfl
    have hid : (builtinEntry metadata source entry index).id = entry.id := rfl
    have hoffset : offsetOf col false (builtinsIn metadata col (mods col))
        (pluginsIn plugins col.key) = offsetOf col false
          (((mods col).filter (·.on)).map (builtinFace metadata col))
          ((pluginsIn plugins col.key).map Entry.face) := by
      rw [← builtinsIn_face]
      simp only [offsetOf, List.length_map]
    have hlist : ((after col).filter (·.on)).map (builtinFace metadata col) =
        ((((mods col).filter (·.on)).map (builtinFace metadata col)).take k).filter
            (isOther entry.id) ++
          builtinFace metadata col { entry with on := true } ::
          ((((mods col).filter (·.on)).map (builtinFace metadata col)).drop k).filter
            (isOther entry.id) := by
      rw [hplaced.target, List.filter_append, List.filter_cons_of_pos rfl, filter_visible,
        filter_visible, htake, hdrop, List.map_append, List.map_cons, filter_builtinFace,
        filter_builtinFace, List.map_take, List.map_drop]
    rw [hid, section_face, hlist, arrange_insert entry.id _ plugin_faces
      (by rw [List.length_map]; exact hk), ← hoffset, ← section_face, filter_face, filter_face,
      List.map_take, List.map_drop, hmoved]
  others := by
    intro other hne
    have hid : (builtinEntry metadata source entry index).id = entry.id := rfl
    rw [hid, section_face, hplaced.others other hne, filter_visible, filter_builtinFace,
      ← filter_arrange entry.id plugin_faces, ← section_face, filter_face]
  kept := by
    intro other
    have hid : (builtinEntry metadata source entry index).id = entry.id := rfl
    rw [hid]
    by_cases hother : other = col
    · subst hother
      rw [hplaced.target, List.filter_append, List.filter_cons_of_neg (by simp),
        List.filter_filter, List.filter_filter]
      simp only [Bool.and_self]
      rw [← List.filter_append, List.take_append_drop]
    · rw [hplaced.others other hother, List.filter_filter]
      simp only [Bool.and_self]
  blocks := by
    intro other
    rw [sectionEntries_catalog]
    exact blocks_arrange plugin_builtinsIn plugin_pluginsIn

/-- The index of a plan of a built-in, cut where its gap is. -/
theorem dropPlan_builtin (mods : Layout Detail) (plugins : List PluginWidget)
    (metadata : Text → Option Metadata) (col : Column) (gap : ℤ) (hmoving : moving.plugin = false) :
    ∃ n k, dropPlan (catalog mods plugins metadata) mods moving col gap = ⟨col.key, n,
        offsetOf col false (builtinsIn metadata col (mods col))
          (pluginsIn plugins col.key) + k⟩ ∧
      n ≤ (mods col).length ∧ k ≤ ((mods col).filter (·.on)).length ∧
      ((mods col).take n).filter (·.on) = ((mods col).filter (·.on)).take k ∧
      ((mods col).drop n).filter (·.on) = ((mods col).filter (·.on)).drop k := by
  obtain ⟨k, hle, -, hplan⟩ := dropPlan_catalog mods plugins metadata moving col gap
  rw [hmoving, if_neg Bool.false_ne_true] at hle
  have hlength : (builtinsIn metadata col (mods col)).length =
      ((mods col).filter (·.on)).length := by
    rw [← List.length_map (f := Entry.face), builtinsIn_face, List.length_map]
  rw [hlength] at hle
  obtain ⟨n, hn, hbound, htake, hdrop⟩ := anchor_cut Widget.on (mods col) hle
  refine ⟨n, k, ?_, hbound, hle, htake, hdrop⟩
  have hindex : ((builtinsIn metadata col (mods col))[k]?).elim (mods col).length
      (fun anchor => anchor.index.getD 0) = n := by
    rw [← hn, builtinsIn, List.getElem?_map]
    cases ((mods col).zipIdx.filter fun item => item.1.on)[k]? with
    | none => rfl
    | some item => rfl
  rw [hplan, hmoving]
  simp only [Bool.false_eq_true, if_false, hindex]

theorem mem_catalog_builtin (hmem : moving ∈ catalog mods plugins metadata)
    (hmoving : moving.plugin = false) : ∃ source, ∃ entry ∈ mods source, ∃ index,
      moving = builtinEntry metadata source entry index := by
  rw [catalog, List.mem_append] at hmem
  rcases hmem with hbuiltin | hplugin
  · obtain ⟨source, -, hsource⟩ := List.mem_flatMap.mp hbuiltin
    obtain ⟨item, hitem, rfl⟩ := List.mem_map.mp hsource
    exact ⟨source, item.1, List.fst_mem_of_mem_zipIdx hitem, item.2, rfl⟩
  · obtain ⟨widget, -, rfl⟩ := List.mem_map.mp hplugin
    cases hmoving

/-- A plan is stable, and the drop of a built-in is what the plan shows. -/
theorem dropPlan_previews (h : Distinct mods) (plugins : List PluginWidget)
    (metadata : Text → Option Metadata) (hmem : moving ∈ catalog mods plugins metadata)
    (col : Column) (gap : ℤ) :
    let plan := dropPlan (catalog mods plugins metadata) mods moving col gap
    dropPlan (catalog mods plugins metadata) mods moving col plan.gap = plan ∧
      (moving.plugin = false →
        ∃ moved, moveWidget (whole mods) moving.col moving.id col.key plan.index = some moved ∧
          commitDrag mods plugins metadata moving col plan =
            (if moving.enabled then moved.mods else enable moving.id moved.mods) ∧
          AsPlanned mods plugins metadata moving col plan
            (commitDrag mods plugins metadata moving col plan)) := by
  intro plan
  have hagain : dropPlan (catalog mods plugins metadata) mods moving col plan.gap = plan :=
    dropPlan_again mods plugins metadata moving col gap
  refine ⟨hagain, fun hmoving => ?_⟩
  obtain ⟨source, entry, hentry, index, rfl⟩ := mem_catalog_builtin hmem hmoving
  obtain ⟨n, k, hplan, hbound, hle, htake, hdrop⟩ :=
    dropPlan_builtin mods plugins metadata col gap hmoving
  have hindex : plan.index = n := congrArg Plan.index hplan
  have hcommit : commitDrag mods plugins metadata (builtinEntry metadata source entry index) col
      plan = if (builtinEntry metadata source entry index).enabled
        then moveTo mods (builtinEntry metadata source entry index) col n
        else enable (builtinEntry metadata source entry index).id
          (moveTo mods (builtinEntry metadata source entry index) col n) := by
    rw [commitDrag, hagain, hindex]
  obtain ⟨moved, hmoved, -, -⟩ := moveWidget_columns h hentry rfl hbound
  have hmods : moveTo mods (builtinEntry metadata source entry index) col n = moved.mods := by
    rw [moveTo]
    exact congrArg (Option.elim · mods Moved.mods) hmoved
  refine ⟨moved, hindex ▸ hmoved, by rw [hcommit, hmods], ?_⟩
  have hplaced : Placed mods entry col n
      (if (builtinEntry metadata source entry index).enabled
        then moveTo mods (builtinEntry metadata source entry index) col n
        else enable (builtinEntry metadata source entry index).id
          (moveTo mods (builtinEntry metadata source entry index) col n)) :=
    placed_moveTo h hentry rfl rfl rfl hbound
  rw [hcommit]
  exact (show plan = _ from hplan) ▸ hplaced.asPlanned htake hdrop hle

/-- A bar with a hidden clock on the left and the workspaces in the middle. -/
def smallBar : Layout Unit
  | .left => [⟨ascii "clock", false, ()⟩, ⟨ascii "title", true, ()⟩]
  | .center => [⟨ascii "workspaces", true, ()⟩]
  | .right => [⟨ascii "clipboard", true, ()⟩]

def pomodoro : PluginWidget :=
  ⟨ascii "pomodoro/timer", ascii "timer", ascii "Pomodoro", [], [], ascii "center", true⟩

/-- The clock is dragged from the tray to the end of the middle, past a plugin:
it comes to stand in front of it. -/
theorem dropPlan_previews_clock :
    let clock := builtinEntry (fun _ => none) .left (⟨ascii "clock", false, ()⟩ : Widget Bool Unit) 0
    let plan := dropPlan (catalog smallBar [pomodoro] fun _ => none) smallBar clock .center 2
    plan = ⟨ascii "center", 1, 1⟩ ∧
      AsPlanned smallBar [pomodoro] (fun _ => none) clock .center plan
        (commitDrag smallBar [pomodoro] (fun _ => none) clock .center plan) := by
  refine ⟨by decide +kernel, ?_⟩
  have hsmall : Distinct smallBar := by decide +kernel
  have hmem : builtinEntry (fun _ => none) .left
      (⟨ascii "clock", false, ()⟩ : Widget Bool Unit) 0 ∈
        catalog smallBar [pomodoro] fun _ => none := by decide +kernel
  obtain ⟨-, hdrop⟩ := dropPlan_previews hsmall [pomodoro] (fun _ => none) hmem .center 2
  obtain ⟨moved, -, -, hplanned⟩ := hdrop rfl
  exact hplanned

end Editor

end Bar

end CybexOS
