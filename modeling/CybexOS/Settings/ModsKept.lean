/-
A migrated layout has every module once, and the entries that count of the
stored one where and as they were.
-/
import CybexOS.Settings.Mods

namespace CybexOS

namespace Settings

open Json (JsValue)

/-! ### The entries that count -/

/-- The entries of modules in a column, with their ids. -/
def named (entries : List (Option Entry)) : List (Text × Entry) := entries.filterMap known

def Column.earlier : Column → List Column
  | .left => []
  | .center => [.left]
  | .right => [.left, .center]

/-- The entries of a column that are the first of their module, from left to right. -/
def firstsOf (columns : Columns) (col : Column) : List (Text × Entry) :=
  (firsts Prod.fst (named (columns col))).filter fun item =>
    ∀ before ∈ col.earlier, item.1 ∉ (named (columns before)).map Prod.fst

/-- What a migration has to keep of a column. -/
def kept (raw sourceVersion : Option JsValue) (col : Column) : List Mod :=
  match columnsOf raw with
  | none => []
  | some columns => (firstsOf (effective sourceVersion columns) col).map modOf

/-! ### Taking the stored entries -/

/-- The ids of all columns. -/
def idsOf (mods : Column → List Mod) : List Text := (Column.all.flatMap mods).map Mod.id

theorem idsOf_push (taken : Taken) (col : Column) (mod : Mod) :
    (idsOf (taken.push col mod)).Perm (mod.id :: idsOf taken.next) := by
  rw [List.perm_iff_count]
  intro id
  cases col <;> simp [idsOf, Column.all, Taken.push, List.count_cons] <;> omega

theorem known_mem {entry : Option Entry} {item : Text × Entry} (h : known entry = some item) :
    item.1 ∈ MODULE_IDS := by
  unfold known at h
  split at h
  · split_ifs at h with hmem
    rw [← Option.some.inj h]
    exact hmem
  · cases h

/-- What has been taken is what has been seen, once each. -/
structure Taken.Sound (taken : Taken) : Prop where
  ids : (idsOf taken.next).Perm taken.seen
  nodup : taken.seen.Nodup
  modules : ∀ id ∈ taken.seen, id ∈ MODULE_IDS

theorem Taken.Sound.take {taken : Taken} (h : taken.Sound) (col : Column)
    (entry : Option Entry) : (Taken.take col taken entry).Sound := by
  unfold Taken.take
  split
  · exact h
  · rename_i item hknown
    split_ifs with hseen
    · exact h
    · refine ⟨(idsOf_push taken col (modOf item)).trans (h.ids.cons _), ?_, ?_⟩
      · exact List.nodup_cons.mpr ⟨hseen, h.nodup⟩
      · exact List.forall_mem_cons.mpr ⟨known_mem hknown, h.modules⟩

theorem Taken.Sound.column {taken : Taken} (h : taken.Sound) (col : Column)
    (entries : List (Option Entry)) : (entries.foldl (Taken.take col) taken).Sound := by
  induction entries generalizing taken with
  | nil => exact h
  | cons entry entries ih => exact ih (h.take col entry)

/-- Where the ids of the columns before are seen, the first entries are not. -/
theorem unseen_eq_firstsOf {columns : Columns} {col : Column} {seen : List Text}
    (h : ∀ id, id ∈ seen ↔ ∃ before ∈ col.earlier, id ∈ (named (columns before)).map Prod.fst) :
    unseen Prod.fst seen (named (columns col)) = firstsOf columns col := by
  rw [unseen_eq_filter]
  refine List.filter_congr fun item _ => ?_
  simp only [h, not_exists, not_and]

/-- A column takes its entries that are not seen, in order. -/
theorem foldl_take (taken : Taken) (col : Column) (entries : List (Option Entry)) :
    (entries.foldl (Taken.take col) taken).next = Function.update taken.next col
        (taken.next col ++ (unseen Prod.fst taken.seen (named entries)).map modOf) ∧
      ∀ id, id ∈ (entries.foldl (Taken.take col) taken).seen ↔
        id ∈ taken.seen ∨ id ∈ (named entries).map Prod.fst := by
  induction entries generalizing taken with
  | nil => simp [named, unseen]
  | cons entry entries ih =>
      obtain ⟨hnext, hseen⟩ := ih (Taken.take col taken entry)
      rw [List.foldl_cons, hnext]
      unfold named at *
      rw [List.filterMap_cons]
      unfold Taken.take at *
      cases hknown : known entry with
      | none =>
          rw [hknown] at hseen
          exact ⟨rfl, hseen⟩
      | some item =>
          rw [hknown] at hseen
          dsimp only at hseen ⊢
          rw [unseen]
          split_ifs at hseen ⊢ with hmem
          · refine ⟨rfl, fun id => (hseen id).trans ?_⟩
            rw [List.map_cons, List.mem_cons]
            exact ⟨fun h => h.imp_right .inr, fun h => h.elim .inl fun h =>
              h.elim (fun heq => .inl (heq ▸ hmem)) .inr⟩
          · refine ⟨?_, fun id => (hseen id).trans ?_⟩
            · simp [Taken.push]
            · simp [List.mem_cons, or_assoc, or_comm, or_left_comm]

def taken (columns : Columns) : Taken :=
  Column.all.foldl (fun taken col => (columns col).foldl (Taken.take col) taken)
    ⟨fun _ => [], []⟩

theorem taken_sound (columns : Columns) : (taken columns).Sound := by
  have hempty : (⟨fun _ => [], []⟩ : Taken).Sound := ⟨.refl _, List.nodup_nil, nofun⟩
  exact ((hempty.column .left _).column .center _).column .right _

/-- The modules that were taken are the first ones. -/
theorem taken_next (columns : Columns) (col : Column) :
    (taken columns).next col = (firstsOf columns col).map modOf := by
  obtain ⟨hleft, hleftSeen⟩ := foldl_take ⟨fun _ => [], []⟩ .left (columns .left)
  obtain ⟨hcenter, hcenterSeen⟩ := foldl_take
    ((columns .left).foldl (Taken.take .left) ⟨fun _ => [], []⟩) .center (columns .center)
  obtain ⟨hright, -⟩ := foldl_take ((columns .center).foldl (Taken.take .center)
    ((columns .left).foldl (Taken.take .left) ⟨fun _ => [], []⟩)) .right (columns .right)
  change (((columns .right).foldl (Taken.take .right) _).next) col = _
  rw [hright, hcenter, hleft]
  cases col with
  | left =>
      change [] ++ (unseen Prod.fst [] _).map modOf = _
      rw [List.nil_append, unseen_eq_firstsOf]
      simp [Column.earlier]
  | center =>
      change [] ++ (unseen Prod.fst _ _).map modOf = _
      rw [List.nil_append, unseen_eq_firstsOf]
      exact fun id => (hleftSeen id).trans (by simp [Column.earlier])
  | right =>
      change [] ++ (unseen Prod.fst _ _).map modOf = _
      rw [List.nil_append, unseen_eq_firstsOf]
      exact fun id => (hcenterSeen id).trans ((or_congr_left (hleftSeen id)).trans
        (by simp [Column.earlier]))

/-! ### Completing the layout -/

theorem complete_foldl (start : Taken) (ids : List Text) :
    (ids.foldl Taken.complete start).seen = start.seen ∧
      (idsOf (ids.foldl Taken.complete start).next).Perm
        (ids.filter (· ∉ start.seen) ++ idsOf start.next) ∧
      ∀ col, start.next col <+: (ids.foldl Taken.complete start).next col := by
  induction ids generalizing start with
  | nil => exact ⟨rfl, .refl _, fun col => List.prefix_refl _⟩
  | cons id ids ih =>
      obtain ⟨hseen, hids, hstart⟩ := ih (start.complete id)
      rw [List.foldl_cons, List.filter_cons]
      unfold Taken.complete at hseen hids hstart ⊢
      split_ifs at * with hmem hnot hnot
      · exact absurd hmem (by simpa using hnot)
      · exact ⟨hseen, hids, hstart⟩
      · refine ⟨hseen, hids.trans ?_, fun col => List.IsPrefix.trans ?_ (hstart col)⟩
        · rw [List.cons_append]
          exact ((idsOf_push _ _ _).append_left _).trans List.perm_middle
        · unfold Taken.push
          dsimp only
          by_cases hcol : col = defaultCol id
          · rw [hcol, Function.update_self]
            exact List.prefix_append _ _
          · rw [Function.update_of_ne hcol]
      · exact absurd (by simpa using hmem) hnot

theorem nodup_MODULE_IDS : MODULE_IDS.Nodup := by decide

theorem normalizeMods_some (columns : Columns) :
    normalizeMods (some columns) = (MODULE_IDS.foldl Taken.complete (taken columns)).next := rfl

theorem normalizeMods_ids (columns : Option Columns) :
    (idsOf (normalizeMods columns)).Perm MODULE_IDS := by
  cases columns with
  | none => exact List.Perm.refl MODULE_IDS
  | some columns =>
      have hsound := taken_sound columns
      obtain ⟨-, hids, -⟩ := complete_foldl (taken columns) MODULE_IDS
      rw [normalizeMods_some]
      refine hids.trans ((hsound.ids.append_left _).trans ?_)
      refine (List.perm_ext_iff_of_nodup ?_ nodup_MODULE_IDS).mpr fun id => ?_
      · refine List.nodup_append.mpr ⟨nodup_MODULE_IDS.filter _, hsound.nodup, ?_⟩
        rintro id hid _ hseen rfl
        exact of_decide_eq_true (List.mem_filter.mp hid).2 hseen
      · rw [List.mem_append, List.mem_filter, decide_eq_true_iff]
        by_cases hseen : id ∈ (taken columns).seen
        · simp [hseen, hsound.modules id hseen]
        · simp [hseen]

theorem normalizeMods_starts (columns : Columns) (col : Column) :
    (firstsOf columns col).map modOf <+: normalizeMods (some columns) col := by
  rw [← taken_next, normalizeMods_some]
  exact (complete_foldl (taken columns) MODULE_IDS).2.2 col

/-! ### Adding modules -/

/-- The first layout has of the second one what passes, in order. -/
def Extends (columns more : Columns) : Prop :=
  ∃ p : Text → Bool, ∀ col,
    named (columns col) = (named (more col)).filter fun item => p item.1

theorem Extends.refl (columns : Columns) : Extends columns columns :=
  ⟨fun _ => true, fun _ => by simp⟩

theorem Extends.trans {first second third : Columns} (h : Extends first second)
    (h' : Extends second third) : Extends first third := by
  obtain ⟨p, hp⟩ := h
  obtain ⟨q, hq⟩ := h'
  refine ⟨fun id => p id && q id, fun col => ?_⟩
  rw [hp, hq, List.filter_filter]

theorem Extends.firstsOf_sublist {columns more : Columns} (h : Extends columns more)
    (col : Column) : (firstsOf columns col).Sublist (firstsOf more col) := by
  obtain ⟨p, hp⟩ := h
  have hids (before : Column) {id : Text} (hid : p id = true) :
      id ∈ (named (columns before)).map Prod.fst ↔ id ∈ (named (more before)).map Prod.fst := by
    rw [hp, List.mem_map, List.mem_map]
    constructor
    · rintro ⟨item, hitem, rfl⟩
      exact ⟨item, (List.mem_filter.mp hitem).1, rfl⟩
    · rintro ⟨item, hitem, rfl⟩
      exact ⟨item, List.mem_filter.mpr ⟨hitem, hid⟩, rfl⟩
  have hfirsts : firstsOf columns col = (firstsOf more col).filter fun item => p item.1 := by
    unfold firstsOf
    rw [hp, firsts_filter, List.filter_filter, List.filter_filter]
    refine List.filter_congr fun item _ => ?_
    by_cases hitem : p item.1 = true
    · simp only [hids _ hitem, hitem, Bool.and_true, Bool.true_and]
    · simp [hitem]
  rw [hfirsts]
  exact List.filter_sublist

theorem hasId_of_known {entry : Option Entry} {item : Text × Entry} (h : known entry = some item) :
    Entry.hasId item.1 entry = true := by
  unfold known at h
  split at h
  · split_ifs at h
    rw [← Option.some.inj h]
    simp [Entry.hasId]
  · cases h

theorem present_eq_false {id : Text} {columns : Columns} (h : present id columns = false)
    (col : Column) : ∀ item ∈ named (columns col), item.1 ≠ id := by
  rintro item hitem rfl
  obtain ⟨entry, hentry, hknown⟩ := List.mem_filterMap.mp hitem
  have htrue : present item.1 columns = true :=
    List.any_eq_true.mpr ⟨col, by cases col <;> decide,
      List.any_eq_true.mpr ⟨entry, hentry, hasId_of_known hknown⟩⟩
  exact absurd (h.symm.trans htrue) (by decide)

/-- An entry of a module that the layout lacks leaves the others as they are. -/
theorem extends_splice {columns : Columns} {id : Text} (h : present id columns = false)
    (col : Column) (index : ℕ) {entry : Option Entry} {item : Entry}
    (hentry : known entry = some (id, item)) : Extends columns (splice columns col index entry) := by
  refine ⟨fun other => other ≠ id, fun other => ?_⟩
  have hne (entries : List (Option Entry)) (hsub : entries.Sublist (columns other)) :
      (named entries).filter (fun item => decide (item.1 ≠ id)) = named entries := by
    refine List.filter_eq_self.mpr fun item hitem => decide_eq_true ?_
    exact present_eq_false h other item ((hsub.filterMap known).subset hitem)
  by_cases hcol : other = col
  · obtain rfl := hcol
    unfold splice
    rw [Function.update_self]
    have htake := hne _ (List.take_sublist index (columns other))
    have hdrop := hne _ (List.drop_sublist index (columns other))
    unfold named at *
    rw [List.filterMap_append, List.filterMap_cons, hentry, List.filter_append,
      List.filter_cons_of_neg (by simp), htake, hdrop, ← List.filterMap_append,
      List.take_append_drop]
  · unfold splice
    rw [Function.update_of_ne hcol, hne _ (List.Sublist.refl _)]

theorem extends_beside {columns : Columns} {id : Text} (h : present id columns = false)
    (anchor : String) (offset : ℕ) {entry : Option Entry} {item : Entry}
    (hentry : known entry = some (id, item)) :
    Extends columns (beside anchor offset entry columns) := by
  unfold beside
  split
  · exact .refl _
  · exact extends_splice h _ _ hentry

theorem extends_added {columns : Columns} {version : ℕ} {id : String}
    {sourceVersion : Option JsValue} {insert : Columns → Columns}
    (h : ∀ columns, present (ascii id) columns = false → Extends columns (insert columns)) :
    Extends columns (added version id sourceVersion insert columns) := by
  unfold added
  split_ifs with hadd
  · exact h columns hadd.2
  · exact .refl _

theorem known_entry {id : String} {on : Bool} (h : ascii id ∈ MODULE_IDS) :
    ∃ item, known (entry id on) = some (ascii id, item) := ⟨_, if_pos h⟩

/-- Every module occurs once, no other id occurs, and the entries that count of
the stored layout keep column, order, `on` and `detail`. -/
theorem migrateMods_keeps (raw sourceVersion context : Option JsValue) :
    (∀ id, (idsOf (migrateMods raw sourceVersion context)).count id =
        if id ∈ MODULE_IDS then 1 else 0) ∧
      ∀ col, (kept raw sourceVersion col).Sublist (migrateMods raw sourceVersion context col) := by
  have hcount {mods : Column → List Mod} (h : (idsOf mods).Perm MODULE_IDS) (id : Text) :
      (idsOf mods).count id = if id ∈ MODULE_IDS then 1 else 0 := by
    rw [h.count_eq]
    exact List.Nodup.count nodup_MODULE_IDS
  unfold migrateMods kept
  cases columnsOf raw with
  | none => exact ⟨hcount (normalizeMods_ids none), fun col => List.nil_sublist _⟩
  | some columns =>
      refine ⟨hcount (normalizeMods_ids _), fun col => ?_⟩
      refine List.Sublist.trans (List.Sublist.map modOf ?_) (normalizeMods_starts _ col).sublist
      refine Extends.firstsOf_sublist ?_ col
      obtain ⟨_, hindicators⟩ := @known_entry "indicators" true (by decide)
      obtain ⟨_, hnotifications⟩ := @known_entry "notifications" true (by decide)
      obtain ⟨_, hhermes⟩ := @known_entry "hermes" true (by decide)
      obtain ⟨_, hnotes⟩ := @known_entry "notes" true (by decide)
      obtain ⟨_, husage⟩ := @known_entry "modelusage" (connectedWidgets context) (by decide)
      refine Extends.trans ?_ (extends_added fun _ h => extends_splice h _ _ husage)
      refine Extends.trans ?_ (extends_added fun _ h => extends_beside h _ _ hnotes)
      refine Extends.trans ?_ (extends_added fun _ h => extends_beside h _ _ hhermes)
      refine Extends.trans ?_ (extends_added fun _ h => extends_splice h _ _ hnotifications)
      exact extends_added fun _ h => extends_beside h _ _ hindicators

end Settings

end CybexOS
