/-
What applying a layout leaves of each plugin's entry: the rows of the plugin
decide it, or that it has none.
-/
import CybexOS.Plugins.Rows

namespace CybexOS

namespace Plugins

open Json

theorem nodup_eraseDups {α : Type} [BEq α] [LawfulBEq α] :
    ∀ l : List α, l.eraseDups.Nodup
  | [] => by simp
  | head :: tail => by
      rw [List.eraseDups_cons, List.nodup_cons]
      refine ⟨fun hmem => ?_, nodup_eraseDups _⟩
      rw [List.mem_eraseDups, List.mem_filter] at hmem
      simp at hmem
  termination_by l => l.length
  decreasing_by
    simp only [List.length_cons]
    exact Nat.lt_succ_of_le (List.length_filter_le _ _)

/-! ### One plugin -/

/-- What applying the rows of a plugin to the registry's entry takes. -/
def Applied (rows : List (Text × Row)) (plugins : PyDict) (id : Text)
    (saved : PyDict) : Prop :=
  ∃ multiple entry, entryAt plugins id = some entry ∧
    applyRows multiple entry (rowsFor rows id) = .ok saved

section

variable {packages : Packages} {rows : List (Text × Row)} {plugins applied : PyDict} {id : Text}

theorem applyPlugin_eq_ok (h : applyPlugin packages rows plugins id = .ok applied) :
    ∃ saved, Applied rows plugins id saved ∧
      applied = Dict.set plugins id (.obj saved) := by
  simp only [applyPlugin, bind_eq_ok, pure_eq_ok, raising_eq_ok, demand_eq_ok] at h
  obtain ⟨candidate, -, -, -, multiple, -, -, -, entry, hentry, saved, hsaved, rfl⟩ := h
  exact ⟨saved, ⟨multiple, entry, hentry, hsaved⟩, rfl⟩

theorem entryAt_set_of_ne {other : Text} {value : PyValue} (hother : other ≠ id) :
    entryAt (Dict.set plugins id value) other = entryAt plugins other := by
  unfold entryAt
  rw [Dict.lookup_set, if_neg hother]

/-- Each plugin with rows gets its own entry, and no other plugin's changes. -/
theorem applyPlugins_eq_ok {ids : List Text} (hids : ids.Nodup)
    (h : ids.foldlM (applyPlugin packages rows) plugins = .ok applied) (other : Text) :
    if other ∈ ids then ∃ saved, Applied rows plugins other saved ∧
      applied.lookup other = some (.obj saved)
    else applied.lookup other = plugins.lookup other := by
  induction ids generalizing plugins with
  | nil =>
      rw [List.foldlM_nil, pure_eq_ok] at h
      simp [h]
  | cons id ids ih =>
      rw [List.foldlM_cons, bind_eq_ok] at h
      obtain ⟨next, hnext, hrest⟩ := h
      rw [List.nodup_cons] at hids
      obtain ⟨saved, hsaved, rfl⟩ := applyPlugin_eq_ok hnext
      have hih := ih hids.2 hrest
      by_cases hother : other = id
      · subst hother
        rw [if_neg hids.1, Dict.lookup_set, if_pos rfl] at hih
        rw [if_pos List.mem_cons_self]
        exact ⟨saved, hsaved, hih⟩
      · by_cases hmem : other ∈ ids
        · rw [if_pos hmem] at hih
          rw [if_pos (List.mem_cons_of_mem _ hmem)]
          obtain ⟨final, ⟨multiple, entry, hentry, hrows⟩, hlookup⟩ := hih
          rw [entryAt_set_of_ne hother] at hentry
          exact ⟨final, ⟨multiple, entry, hentry, hrows⟩, hlookup⟩
        · rw [if_neg hmem, Dict.lookup_set, if_neg hother] at hih
          rw [if_neg (by simp [hother, hmem]), hih]

end

/-- The plugin has an Omarchy bar widget. -/
def HasWidget (packages : Packages) (id : Text) : Prop :=
  ∃ candidate, package packages id = .ok candidate ∧ candidate.omarchy = true ∧
    BAR_WIDGET ∈ candidate.kinds

theorem hideRest_eq {packages : Packages} {grouped : List Text} {id : Text} {value : PyValue} :
    (id ∉ grouped ∧ HasWidget packages id →
      ∀ entry, value = .obj entry → hideRest packages grouped (id, value) =
        (id, .obj (Dict.set entry (ascii "widgetEnabled") (.bool false)))) ∧
    (id ∈ grouped ∨ ¬ HasWidget packages id ∨ (∀ entry, value ≠ .obj entry) →
      hideRest packages grouped (id, value) = (id, value)) := by
  constructor
  · rintro ⟨hgrouped, candidate, hcandidate, homarchy, hkind⟩ entry rfl
    unfold hideRest
    simp only [hcandidate]
    exact if_pos ⟨hgrouped, homarchy, hkind⟩
  · intro hrest
    unfold hideRest
    split
    · next entry candidate hentry hcandidate =>
      simp only at hentry
      refine if_neg ?_
      rintro ⟨hgrouped, homarchy, hkind⟩
      rcases hrest with hmem | hnone | hvalue
      · exact hgrouped hmem
      · exact hnone ⟨candidate, hcandidate, homarchy, hkind⟩
      · exact hvalue entry hentry
    · rfl

/-! ### The rows of one plugin -/

theorem placed_nodup (row : Row) : (Dict.keys (placed row)).Nodup := by
  simp only [placed, Dict.keys, List.map_cons, List.map_nil]
  decide

/-- What a row leaves of a dictionary it is merged into. -/
theorem lookup_merge_placed (d : PyDict) (row : Row) (key : Text) :
    (Dict.merge d (placed row)).lookup key =
      if key = ascii "section" then some (.str row.place.name)
      else if key = ascii "order" then some (.num (.int row.order))
      else if key = ascii "settings" then some (.obj (settingsOf row.item))
      else d.lookup key := by
  rw [Dict.lookup_merge (placed_nodup row)]
  simp only [placed, Dict.lookup_item, List.lookup_nil]
  split_ifs <;> rfl

theorem mem_keys_of_eq {d : PyDict} {key : Text} {value : PyValue}
    (h : d.lookup key = some value) : key ∈ Dict.keys d :=
  Dict.lookup_isSome.mp (by rw [h]; rfl)

theorem dictAt_set_of_ne {d : PyDict} {key : String} {other : Text} {value : PyValue}
    (hother : ascii key ≠ other) : dictAt (Dict.set d other value) key = dictAt d key := by
  rw [dictAt, Dict.lookup_set, if_neg hother, dictAt]

/-- The entry of a plugin whose one row names no instance. -/
theorem applyRows_plain {multiple : Bool} {entry saved : PyDict} {row : Row}
    (hname : row.item.lookup INSTANCE = some (.str []))
    (h : applyRows multiple entry [row] = .ok saved) (key : Text) :
    saved.lookup key =
      if key = ascii "instances" then (entry.lookup key).map fun _ => .obj []
      else if key = ascii "section" then some (.str row.place.name)
      else if key = ascii "order" then some (.num (.int row.order))
      else if key = ascii "settings" then some (.obj (settingsOf row.item))
      else if key = ascii "enabled" ∨ key = ascii "widgetEnabled" then some (.bool true)
      else entry.lookup key := by
  simp only [applyRows, bind_eq_ok, pure_eq_ok, List.foldlM_cons, List.foldlM_nil] at h
  obtain ⟨previous, -, ⟨flagged, instances⟩, ⟨state, hrow, hstate⟩, -, -, rfl⟩ := h
  obtain rfl := hstate
  have hplain : truthy (rowName false ([] : PyDict).length row.item) = false := by
    simp [rowName, hname, truthy]
  unfold applyRow at hrow
  simp only [List.length_singleton, Nat.lt_irrefl, decide_false] at hrow
  rw [hplain] at hrow
  simp only [Bool.false_eq_true, ↓reduceIte, pure_eq_ok, Prod.mk.injEq] at hrow
  obtain ⟨rfl, rfl⟩ := hrow
  have hmerged : ∀ asked, (Dict.merge (Dict.set (Dict.set entry (ascii "enabled") (.bool true))
      (ascii "widgetEnabled") (.bool true)) (placed row)).lookup asked =
        if asked = ascii "section" then some (.str row.place.name)
        else if asked = ascii "order" then some (.num (.int row.order))
        else if asked = ascii "settings" then some (.obj (settingsOf row.item))
        else if asked = ascii "enabled" ∨ asked = ascii "widgetEnabled" then some (.bool true)
        else entry.lookup asked := by
    intro asked
    rw [lookup_merge_placed, Dict.lookup_set, Dict.lookup_set]
    split_ifs <;> simp_all
  generalize Dict.merge (Dict.set (Dict.set entry (ascii "enabled") (.bool true))
    (ascii "widgetEnabled") (.bool true)) (placed row) = merged at hmerged
  have hinstances := hmerged (ascii "instances")
  rw [if_neg (by decide), if_neg (by decide), if_neg (by decide), if_neg (by decide)] at hinstances
  simp only [ne_eq, not_true_eq_false, false_or]
  by_cases hpresent : ascii "instances" ∈ Dict.keys merged
  · rw [if_pos hpresent, Dict.lookup_set]
    by_cases hkey : key = ascii "instances"
    · obtain ⟨value, hvalue⟩ := Option.isSome_iff_exists.mp (Dict.lookup_isSome.mpr hpresent)
      rw [if_pos hkey, if_pos hkey, hkey, ← hinstances, hvalue, Option.map_some]
    · rw [if_neg hkey, if_neg hkey, hmerged]
  · rw [if_neg hpresent]
    by_cases hkey : key = ascii "instances"
    · rw [if_pos hkey, hkey, ← hinstances, Dict.lookup_eq_none.mpr hpresent, Option.map_none]
    · rw [if_neg hkey, hmerged]

/-- The instance that a row leaves. -/
def instanceOf (before : PyDict) (row : Row) : PyDict :=
  Dict.merge (Dict.set before (ascii "enabled") (.bool true)) (placed row)

/-- Rows that name instances leave the entry and make one instance each. -/
theorem foldlM_applyRow {multiple several : Bool} {previous saved made : PyDict}
    {rows : List Row} {state : PyDict × PyDict}
    (hnames : ∀ row ∈ rows, ∃ name, name ≠ [] ∧ row.item.lookup INSTANCE = some (.str name))
    (h : rows.foldlM (applyRow multiple several previous) (saved, made) = .ok state) :
    state.1 = saved ∧ (∀ name ∈ Dict.keys made, state.2.lookup name = made.lookup name) ∧
      (∀ row ∈ rows, ∀ name, row.item.lookup INSTANCE = some (.str name) →
        ∃ before, asDict ((previous.lookup name).getD (.obj [])) = some before ∧
          state.2.lookup name = some (.obj (instanceOf before row))) ∧
      ∀ name ∈ Dict.keys state.2, name ∈ Dict.keys made ∨
        ∃ row ∈ rows, row.item.lookup INSTANCE = some (.str name) := by
  induction rows generalizing made with
  | nil =>
      rw [List.foldlM_nil, pure_eq_ok] at h
      subst h
      exact ⟨rfl, fun _ _ => rfl, by simp, fun _ hname => Or.inl hname⟩
  | cons row rows ih =>
      rw [List.foldlM_cons, bind_eq_ok] at h
      obtain ⟨next, hrow, hrest⟩ := h
      obtain ⟨name, hne, hname⟩ := hnames row List.mem_cons_self
      have hasked : rowName several made.length row.item = .str name := by
        simp [rowName, hname, truthy, hne]
      have htrue : truthy (.str name) = true := by simpa [truthy] using hne
      unfold applyRow at hrow
      simp only [hasked, htrue, ↓reduceIte, bind_eq_ok, pure_eq_ok, demand_eq_ok] at hrow
      obtain ⟨chosen, hchosen, before, hbefore, found, -, rfl⟩ := hrow
      split_ifs at hchosen with hvalid
      obtain rfl := Option.some.inj hchosen
      simp only [Bool.and_eq_true, decide_eq_true_eq] at hvalid
      obtain ⟨hsaved, hkept, hmade, hkeys⟩ :=
        ih (fun other hother => hnames other (List.mem_cons_of_mem _ hother)) hrest
      refine ⟨hsaved, fun other hother => ?_, ?_, fun other hother => ?_⟩
      · rw [hkept other (Dict.mem_keys_set.mpr (Or.inr hother)), Dict.lookup_set, if_neg]
        rintro rfl
        exact hvalid.2 hother
      · rw [List.forall_mem_cons]
        refine ⟨fun asked hsame => ?_, hmade⟩
        obtain rfl : name = asked := by
          rw [hname] at hsame
          exact Value.str.inj (Option.some.inj hsame)
        refine ⟨before, hbefore, ?_⟩
        rw [hkept name (Dict.mem_keys_set.mpr (Or.inl rfl)), Dict.lookup_set, if_pos rfl]
        rfl
      · rcases hkeys other hother with hmem | ⟨later, hlater, hname'⟩
        · rcases Dict.mem_keys_set.mp hmem with rfl | hold
          · exact Or.inr ⟨row, List.mem_cons_self, hname⟩
          · exact Or.inl hold
        · exact Or.inr ⟨later, List.mem_cons_of_mem _ hlater, hname'⟩

/-- The entry of a plugin whose rows all name instances. -/
theorem applyRows_named {multiple : Bool} {entry saved : PyDict} {rows : List Row}
    (hnames : ∀ row ∈ rows, ∃ name, name ≠ [] ∧ row.item.lookup INSTANCE = some (.str name))
    (hrows : rows ≠ []) (h : applyRows multiple entry rows = .ok saved) :
    ∃ previous instances, dictAt entry "instances" = some previous ∧
      (∀ key, saved.lookup key =
        if key = ascii "instances" then some (.obj instances)
        else if key = ascii "enabled" ∨ key = ascii "widgetEnabled" then some (.bool true)
        else entry.lookup key) ∧
      (∀ row ∈ rows, ∀ name, row.item.lookup INSTANCE = some (.str name) →
        ∃ before, asDict ((previous.lookup name).getD (.obj [])) = some before ∧
          instances.lookup name = some (.obj (instanceOf before row))) ∧
      ∀ name ∈ Dict.keys instances,
        ∃ row ∈ rows, row.item.lookup INSTANCE = some (.str name) := by
  simp only [applyRows, bind_eq_ok, pure_eq_ok, demand_eq_ok] at h
  obtain ⟨previous, hprevious, state, hstate, -, -, rfl⟩ := h
  rw [dictAt_set_of_ne (by decide), dictAt_set_of_ne (by decide)] at hprevious
  obtain ⟨hsaved, -, hmade, hkeys⟩ := foldlM_applyRow hnames hstate
  have hsome : state.2 ≠ [] := by
    obtain ⟨row, hrow⟩ := List.exists_mem_of_ne_nil _ hrows
    obtain ⟨name, -, hname⟩ := hnames row hrow
    obtain ⟨before, -, hlookup⟩ := hmade row hrow name hname
    rintro hnil
    simp [hnil] at hlookup
  refine ⟨previous, state.2, hprevious, fun key => ?_, hmade, fun name hname => ?_⟩
  · rw [if_pos (Or.inl hsome), Dict.lookup_set, hsaved, Dict.lookup_set, Dict.lookup_set]
    split_ifs <;> simp_all
  · exact (hkeys name hname).resolve_left (by simp [Dict.keys])

/-! ### All plugins -/

theorem rowsFor_ne_nil {rows : List (Text × Row)} {id : Text} :
    rowsFor rows id ≠ [] ↔ id ∈ (rows.map Prod.fst).eraseDups := by
  rw [List.mem_eraseDups, List.mem_map, rowsFor, ne_eq, List.map_eq_nil_iff,
    List.filter_eq_nil_iff]
  simp

/-- The entries that a layout leaves. -/
theorem applyLayout_eq_ok {registry edited : Registry} {layout : Layout} {packages : Packages}
    (h : applyLayout registry layout packages = .ok edited) :
    ∃ rows, rowsOf layout = .ok rows ∧ ∀ other,
      (rowsFor rows other ≠ [] → ∃ saved, Applied rows registry.plugins other saved ∧
        edited.plugins.lookup other = some (.obj saved)) ∧
      (rowsFor rows other = [] → ∀ value, registry.plugins.lookup other = some value →
        (∀ entry, value = .obj entry → HasWidget packages other →
          edited.plugins.lookup other =
            some (.obj (Dict.set entry (ascii "widgetEnabled") (.bool false)))) ∧
        (¬ HasWidget packages other ∨ (∀ entry, value ≠ .obj entry) →
          edited.plugins.lookup other = some value)) := by
  simp only [applyLayout, bind_eq_ok, pure_eq_ok, raising_eq_ok] at h
  obtain ⟨rows, hrows, plugins, hplugins, rfl⟩ := h
  refine ⟨rows, hrows, fun other => ?_⟩
  have happlied := applyPlugins_eq_ok (nodup_eraseDups _) hplugins other
  have hlookup : ∀ value, plugins.lookup other = some value →
      (plugins.map (hideRest packages (rows.map Prod.fst).eraseDups)).lookup other =
        some (hideRest packages (rows.map Prod.fst).eraseDups (other, value)).2 := by
    intro value hvalue
    rw [Dict.lookup_map_item fun item => hideRest_fst packages _ item, hvalue, Option.map_some]
  constructor
  · intro hne
    have hmem := rowsFor_ne_nil.mp hne
    rw [if_pos hmem] at happlied
    obtain ⟨saved, hsaved, hfound⟩ := happlied
    refine ⟨saved, hsaved, ?_⟩
    rw [hlookup _ hfound, hideRest_eq.2 (Or.inl hmem)]
  · intro hnil value hvalue
    have hmem : other ∉ (rows.map Prod.fst).eraseDups := fun hmem => rowsFor_ne_nil.mpr hmem hnil
    rw [if_neg hmem, hvalue] at happlied
    refine ⟨fun entry hentry hwidget => ?_, fun hrest => ?_⟩
    · rw [hlookup _ happlied, hideRest_eq.1 ⟨hmem, hwidget⟩ entry hentry]
    · rw [hlookup _ happlied, hideRest_eq.2 (Or.inr hrest)]

end Plugins

end CybexOS
