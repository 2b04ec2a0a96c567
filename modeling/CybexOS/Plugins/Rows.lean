/-
A mutation of the drawn layout leaves the entries of every other plugin, and
their order in each section.
-/
import CybexOS.Plugins.Layout

namespace CybexOS

namespace Plugins

open Json

/-! ### Checks that raised nothing -/

section

variable {α : Type}

theorem raising_eq_ok {result : Except Text α} {value : α} :
    raising result = .ok value ↔ result = .ok value := mapError_eq_ok

theorem require_eq_ok {condition : Bool} {message : String} {done : Unit} :
    require condition message = .ok done ↔ condition = true := by
  unfold require
  split_ifs with h <;> simp [h]

theorem demand_eq_ok {found : Option α} {message : String} {value : α} :
    demand found message = .ok value ↔ found = some value := by
  cases found <;> simp [demand]

end

theorem hideRest_fst (packages : Packages) (grouped : List Text) (item : Text × PyValue) :
    (hideRest packages grouped item).1 = item.1 := by
  unfold hideRest
  split
  · split_ifs <;> rfl
  · rfl

/-! ### Lists without one entry -/

section

variable {α : Type} {keep : α → Bool}

theorem filter_set_of_not {l : List α} {index : ℕ} {old new : α} (hold : l[index]? = some old)
    (hkeep : keep old = false) (hnew : keep new = false) :
    (l.set index new).filter keep = l.filter keep := by
  induction l generalizing index with
  | nil => rfl
  | cons head tail ih =>
      cases index with
      | zero =>
          obtain rfl := Option.some.inj hold
          simp [hkeep, hnew]
      | succ index =>
          rw [List.getElem?_cons_succ] at hold
          rw [List.set_cons_succ, List.filter_cons, List.filter_cons, ih hold]

theorem filter_eraseIdx_of_not {l : List α} {index : ℕ} {old : α} (hold : l[index]? = some old)
    (hkeep : keep old = false) : (l.eraseIdx index).filter keep = l.filter keep := by
  induction l generalizing index with
  | nil => rfl
  | cons head tail ih =>
      cases index with
      | zero =>
          obtain rfl := Option.some.inj hold
          simp [hkeep]
      | succ index =>
          rw [List.getElem?_cons_succ] at hold
          rw [List.eraseIdx_cons_succ, List.filter_cons, List.filter_cons, ih hold]

theorem filter_insertIdx_of_not {l : List α} {index : ℕ} {new : α} (hnew : keep new = false) :
    (l.insertIdx index new).filter keep = l.filter keep := by
  induction l generalizing index with
  | nil => cases index <;> simp [hnew]
  | cons head tail ih =>
      cases index with
      | zero => simp [hnew]
      | succ index => rw [List.insertIdx_succ_cons, List.filter_cons, List.filter_cons, ih]

end

/-! ### Layouts -/

/-- The entries of a plugin in one section. -/
def Layout.entries (layout : Layout) (place : Section) (id : Text) : List PyDict :=
  (layout.at place).filter fun item => entryId item = some id

/-- Only entries of this plugin differ. -/
def SameOutside (id : Text) (layout edited : Layout) : Prop :=
  ∀ place other, other ≠ id → edited.entries place other = layout.entries place other

@[simp]
theorem Layout.at_setAt (layout : Layout) (place asked : Section) (entries : List PyDict) :
    (layout.setAt place entries).at asked = if asked = place then entries else layout.at asked := by
  cases place <;> cases asked <;> rfl

theorem SameOutside.refl (id : Text) (layout : Layout) : SameOutside id layout layout :=
  fun _ _ _ => rfl

theorem SameOutside.trans {id : Text} {layout edited final : Layout}
    (h : SameOutside id layout edited) (h' : SameOutside id edited final) :
    SameOutside id layout final :=
  fun place other hother => (h' place other hother).trans (h place other hother)

/-- A section whose entries of other plugins stay. -/
theorem SameOutside.setAt {id : Text} {layout : Layout} {place : Section} {entries : List PyDict}
    (h : ∀ other, other ≠ id → entries.filter (fun item => entryId item = some other) =
      layout.entries place other) : SameOutside id layout (layout.setAt place entries) := by
  intro asked other hother
  unfold Layout.entries
  rw [Layout.at_setAt]
  split_ifs with hasked
  · rw [hasked]
    exact h other hother
  · rfl

theorem not_entry_of_ne {id other : Text} {item : PyDict} (hitem : entryId item = some id)
    (hother : other ≠ id) : decide (entryId item = some other) = false := by
  rw [hitem, decide_eq_false_iff_not, Option.some.injEq]
  exact Ne.symm hother

theorem entryId_of_isStr {item : PyDict} {id : Text}
    (h : isStr (item.lookup (ascii "id")) id = true) : entryId item = some id := by
  unfold isStr at h
  unfold entryId
  cases hvalue : item.lookup (ascii "id") with
  | none =>
      rw [hvalue] at h
      cases h
  | some value =>
      rw [hvalue] at h
      cases value with
      | str s => exact congrArg some (eq_of_beq h)
      | _ => cases h

theorem findEntry_eq_some {layout : Layout} {id : Text} {source : PyValue × Option ℕ}
    {place : Section} {index : ℕ} {entry : PyDict}
    (h : findEntry layout id source = some (place, index, entry)) :
    (layout.at place)[index]? = some entry ∧ entryId entry = some id := by
  obtain ⟨searched, -, h⟩ := List.exists_of_findSome?_eq_some h
  split_ifs at h with hsection
  obtain ⟨⟨item, at'⟩, hmem, h⟩ := List.exists_of_findSome?_eq_some h
  split_ifs at h with hitem
  simp only [Option.some.injEq, Prod.mk.injEq] at h
  obtain ⟨rfl, rfl, rfl⟩ := h
  rw [Bool.and_eq_true] at hitem
  exact ⟨List.mem_zipIdx_iff_getElem?.mp hmem, entryId_of_isStr hitem.1⟩

theorem entryId_set {item : PyDict} {key : Text} {value : PyValue} (hkey : key ≠ ascii "id") :
    entryId (Dict.set item key value) = entryId item := by
  unfold entryId
  rw [Dict.lookup_set, if_neg (Ne.symm hkey)]

theorem entryId_set_id {item : PyDict} {id : Text} :
    entryId (Dict.set item (ascii "id") (.str id)) = some id := by
  unfold entryId
  rw [Dict.lookup_set, if_pos rfl]

theorem setEntry_outside {payload entry : PyDict} {layout edited : Layout} {id : Text}
    {place : Section} {index : ℕ} (hfound : (layout.at place)[index]? = some entry)
    (hid : entryId entry = some id)
    (h : setEntry payload layout (place, index, entry) = .ok edited) :
    SameOutside id layout edited := by
  simp only [setEntry, bind_eq_ok, pure_eq_ok, require_eq_ok] at h
  obtain ⟨change, -, -, hkey, rfl⟩ := h
  have hne : change.1 ≠ ascii "id" := by
    rintro heq
    simp [heq] at hkey
  exact .setAt fun other hother => filter_set_of_not hfound (not_entry_of_ne hid hother)
    (not_entry_of_ne ((entryId_set hne).trans hid) hother)

/-- Inserting an entry of the plugin. -/
theorem insert_outside {layout : Layout} {id : Text} {place : Section} {index : ℕ}
    {entry : PyDict} (hid : entryId entry = some id) :
    SameOutside id layout (layout.setAt place ((layout.at place).insertIdx index entry)) :=
  .setAt fun _ hother => filter_insertIdx_of_not (not_entry_of_ne hid hother)

theorem moveEntry_outside {action : Action} {payload settings : PyDict}
    {layout edited : Layout} {id : Text} {default : Section}
    {found : Option (Section × ℕ × PyDict)}
    (hfound : ∀ place index entry, found = some (place, index, entry) →
      (layout.at place)[index]? = some entry ∧ entryId entry = some id)
    (h : moveEntry action payload layout id settings default found = .ok edited) :
    SameOutside id layout edited := by
  simp only [moveEntry, bind_eq_ok, pure_eq_ok] at h
  obtain ⟨place, -, -, -, h⟩ := h
  cases found with
  | none =>
      obtain ⟨target, -, rfl⟩ := h
      exact insert_outside entryId_set_id
  | some found =>
      obtain ⟨source, index, entry⟩ := found
      obtain ⟨hentry, hid⟩ := hfound source index entry rfl
      obtain ⟨target, -, rfl⟩ := h
      refine SameOutside.trans ?_ (insert_outside hid)
      exact .setAt fun other hother => filter_eraseIdx_of_not hentry (not_entry_of_ne hid hother)

/-! ### Rows -/

theorem rowsAt_eq_ok {entries : List PyDict} {place : Section} {rows : List (Text × Row)}
    {start : ℕ} (h : ((entries.zipIdx start).mapM fun entry => do
      let id ← demand (entryId entry.1) "layout entries must contain an id"
      pure (id, (⟨place, entry.2, entry.1⟩ : Row))) = Except.ok rows) (id : Text) :
    (rowsFor rows id).map (fun row => (row.place, row.item)) =
      (entries.filter fun item => entryId item = some id).map fun item => (place, item) := by
  induction entries generalizing start rows with
  | nil =>
      rw [List.zipIdx_nil, List.mapM_nil, pure_eq_ok] at h
      rw [← h]
      rfl
  | cons item entries ih =>
      rw [List.zipIdx_cons, List.mapM_cons] at h
      simp only [bind_eq_ok, pure_eq_ok, demand_eq_ok] at h
      obtain ⟨row, ⟨held, hheld, rfl⟩, rest, hrest, rfl⟩ := h
      have hih := ih hrest
      unfold rowsFor at hih ⊢
      rw [List.filter_cons, List.filter_cons]
      by_cases hid : held = id
      · rw [if_pos (by simpa using hid), if_pos (by simpa [hheld] using hid)]
        simp [hih]
      · rw [if_neg (by simpa using hid), if_neg (by simpa [hheld] using hid), hih]

/-- The rows of a plugin are its entries, section by section. -/
theorem rowsOf_eq_ok {layout : Layout} {rows : List (Text × Row)}
    (h : rowsOf layout = .ok rows) (id : Text) :
    (rowsFor rows id).map (fun row => (row.place, row.item)) =
      SECTIONS.flatMap fun place => (layout.entries place id).map fun item => (place, item) := by
  simp only [rowsOf, SECTIONS, List.mapM_cons, List.mapM_nil, bind_eq_ok, pure_eq_ok] at h
  obtain ⟨_, ⟨left, hleft, _, ⟨center, hcenter, _, ⟨right, hright, _, rfl, rfl⟩, rfl⟩, rfl⟩, rfl⟩ :=
    h
  have hrows : rowsFor ([left, center, right].flatten) id =
      rowsFor left id ++ (rowsFor center id ++ rowsFor right id) := by
    simp [rowsFor]
  rw [hrows, List.map_append, List.map_append, rowsAt_eq_ok hleft id, rowsAt_eq_ok hcenter id,
    rowsAt_eq_ok hright id]
  simp [SECTIONS, Layout.entries]

/-! ### Edits -/

/-- The widget to put is drawn already. -/
def Idle (info : Scan) (action : Action) (id : Text) (payload : PyDict) : Prop :=
  action = .put ∧ ∃ source, sourceOf action payload = .ok source ∧
    (findEntry (drawnLayout info.widgets) id source).isSome

/-- An edit that is not idle applies a layout in which only entries of its own
plugin differ from what is drawn. -/
theorem editLayout_eq_ok {registry edited : Registry} {packages : Packages} {action : Action}
    {id : Text} {payload : PyDict} (h : editLayout registry packages action id payload = .ok edited) :
    ∃ info, scan registry packages = .ok info ∧
      (Idle info action id payload ∧ edited = registry ∨
        ¬ Idle info action id payload ∧ ∃ layout, SameOutside id (drawnLayout info.widgets) layout ∧
          applyLayout registry layout packages = .ok edited) := by
  simp only [editLayout, bind_eq_ok, raising_eq_ok] at h
  obtain ⟨info, hinfo, item, -, candidate, -, source, hsource, h⟩ := h
  refine ⟨info, hinfo, ?_⟩
  split at h
  · next found hfound =>
    exact Or.inl ⟨⟨rfl, source, hsource, by simp [hfound]⟩, (pure_eq_ok.mp h).symm⟩
  · cases h
  · cases h
  · next found hfound =>
    obtain ⟨place, index, entry⟩ := found
    obtain ⟨hentry, hid⟩ := findEntry_eq_some hfound
    simp only [bind_eq_ok, raising_eq_ok] at h
    obtain ⟨layout, hlayout, h⟩ := h
    refine Or.inr ⟨fun hidle => ?_, layout, setEntry_outside hentry hid hlayout, h⟩
    cases hidle.1
  · next hput _ _ _ =>
    rw [bind_eq_ok] at h
    obtain ⟨layout, hlayout, h⟩ := h
    refine Or.inr ⟨?_, layout, moveEntry_outside (fun _ _ _ => findEntry_eq_some) hlayout, h⟩
    rintro ⟨rfl, other, hother, hfound⟩
    rw [hsource, Except.ok.injEq] at hother
    obtain ⟨found, hfound⟩ := Option.isSome_iff_exists.mp hfound
    exact hput found rfl (hother ▸ hfound)

end Plugins

end CybexOS
