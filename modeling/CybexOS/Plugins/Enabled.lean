/-
Which plugins each command leaves enabled.
-/
import CybexOS.Plugins.Commands
import CybexOS.Plugins.Drawn

namespace CybexOS

namespace Plugins

open Json

section

variable {α : Type}

theorem check_eq_ok {condition : Bool} {message : String} {done : Unit} :
    check condition message = .ok done ↔ condition = true :=
  raising_eq_ok.trans require_eq_ok

theorem expect_eq_ok {found : Option α} {message : String} {value : α} :
    expect found message = .ok value ↔ found = some value :=
  raising_eq_ok.trans demand_eq_ok

theorem insist_eq_ok {found : Option α} {value : α} :
    insist found = .ok value ↔ found = some value := by
  cases found <;> simp [insist]

end

/-! ### Entries -/

section

variable {plugins entry : PyDict} {id asked : Text}

@[simp]
theorem isOn_set : isOn (Dict.set plugins id (.obj entry)) asked =
    if asked = id then isTrue (entry.lookup ENABLED) else isOn plugins asked := by
  unfold isOn
  rw [Dict.lookup_set]
  split_ifs <;> rfl

/-- Another key leaves the flag alone. -/
theorem isTrue_set {key : Text} {value : PyValue} (hkey : ENABLED ≠ key) :
    isTrue ((Dict.set entry key value).lookup ENABLED) = isTrue (entry.lookup ENABLED) := by
  rw [Dict.lookup_set, if_neg hkey]

theorem isTrue_set_enabled {value : Bool} :
    isTrue ((Dict.set entry ENABLED (.bool value)).lookup ENABLED) = value := by
  rw [Dict.lookup_set, if_pos rfl]
  rfl

theorem isOn_map {change : Text × PyValue → Text × PyValue}
    (hchange : ∀ item, (change item).1 = item.1)
    (hflag : ∀ value, isOn [change (asked, value)] asked = true → isOn [(asked, value)] asked = true)
    (h : isOn (plugins.map change) asked = true) : isOn plugins asked = true := by
  unfold isOn at h hflag ⊢
  rw [Dict.lookup_map_item hchange] at h
  cases hfound : plugins.lookup asked with
  | none => simp [hfound] at h
  | some value =>
      rw [hfound, Option.map_some] at h
      have hvalue := hflag value
      have hitem : change (asked, value) = (asked, (change (asked, value)).2) :=
        Prod.ext (hchange _) rfl
      rw [hitem, Dict.lookup_item, Dict.lookup_item, if_pos rfl, if_pos rfl] at hvalue
      exact hvalue h

end

/-! ### enable, disable, bar -/

section

variable {w after : World} {id asked : Text}

theorem disableSiblings_fst (packages : Packages) (id origin : Text) (item : Text × PyValue) :
    (disableSiblings packages id origin item).1 = item.1 := by
  unfold disableSiblings
  split
  · split_ifs <;> rfl
  · rfl

theorem isOn_disableSiblings {packages : Packages} {origin : Text} {plugins : PyDict}
    (h : isOn (plugins.map (disableSiblings packages id origin)) asked = true) :
    isOn plugins asked = true ∧ isSibling packages id origin asked = false := by
  constructor
  · refine isOn_map (disableSiblings_fst packages id origin) (fun value hvalue => ?_) h
    cases value with
    | obj entry =>
        simp only [disableSiblings] at hvalue
        split_ifs at hvalue with hsibling
        · simp [isOn, isTrue] at hvalue
        · exact hvalue
    | _ => exact hvalue
  · unfold isOn at h
    rw [Dict.lookup_map_item (disableSiblings_fst packages id origin)] at h
    cases hfound : plugins.lookup asked with
    | none => simp [hfound] at h
    | some value =>
        rw [hfound, Option.map_some] at h
        rw [← Bool.not_eq_true]
        intro hsibling
        cases value with
        | obj entry => simp [disableSiblings, hsibling, isTrue] at h
        | _ => simp [disableSiblings] at h

theorem commandEnable_isOn {placement : Placement}
    (h : commandEnable w id placement = .ok after)
    (hon : isOn after.registry.plugins asked = true) :
    asked = id ∨ isOn w.registry.plugins asked = true ∧
      ∃ candidate, package w.packages id = .ok candidate ∧
        isSibling w.packages id candidate.origin asked = false := by
  simp only [commandEnable, bind_eq_ok, pure_eq_ok, raising_eq_ok] at h
  obtain ⟨-, -, entry, -, candidate, hcandidate, options, -, rfl⟩ := h
  simp only [Registry.setEntry, isOn_set] at hon
  split_ifs at hon with hasked
  · exact Or.inl hasked
  · have hrest := isOn_disableSiblings hon
    exact Or.inr ⟨hrest.1, candidate, hcandidate, hrest.2⟩

theorem commandDisable_isOn (h : commandDisable w id = .ok after)
    (hon : isOn after.registry.plugins asked = true) :
    asked ≠ id ∧ isOn w.registry.plugins asked = true := by
  simp only [commandDisable, bind_eq_ok, pure_eq_ok] at h
  obtain ⟨-, -, entry, -, rfl⟩ := h
  simp only [Registry.setEntry, isOn_set, isTrue_set_enabled] at hon
  split_ifs at hon with hasked
  exact ⟨hasked, hon⟩

theorem commandBar_isOn {position : Option Text} (h : commandBar w id position = .ok after)
    (hon : isOn after.registry.plugins asked = true) :
    isOn w.registry.plugins asked = true ∨ asked = id ∧ id ≠ NATIVE := by
  simp only [commandBar, bind_eq_ok, pure_eq_ok] at h
  obtain ⟨-, -, registry, hregistry, bar, -, rfl⟩ := h
  unfold enableBar at hregistry
  split_ifs at hregistry with hnative
  · rw [pure_eq_ok] at hregistry
    rw [← hregistry] at hon
    exact Or.inl hon
  · simp only [bind_eq_ok, pure_eq_ok] at hregistry
    obtain ⟨candidate, -, -, -, entry, -, rfl⟩ := hregistry
    simp only [Registry.setEntry, isOn_set] at hon
    split_ifs at hon with hasked
    · exact Or.inr ⟨hasked, hnative⟩
    · exact Or.inl hon

/-! ### clone and remove -/

theorem commandClone_isOn {newId : Text} {source : CloneSource} {copied : Text → Bool}
    (h : commandClone w id newId source copied = .ok after)
    (hon : isOn after.registry.plugins asked = true) :
    asked = newId ∨ isOn w.registry.plugins asked = true ∧ asked ≠ id := by
  simp only [commandClone, bind_eq_ok, pure_eq_ok] at h
  obtain ⟨-, -, -, -, options, -, original, horiginal, packages, -, bar, -, rfl⟩ := h
  simp only [Registry.passBar_plugins] at hon
  by_cases hnew : asked = newId
  · exact Or.inl hnew
  · refine Or.inr ?_
    split at hon
    · next entry hentry =>
      simp only [Registry.setEntry, isOn_set, isTrue_set_enabled] at hon
      split_ifs at hon with hasked
      exact ⟨hon, hasked⟩
    · next hentry =>
      simp only [Registry.setEntry, isOn_set, if_neg hnew] at hon
      refine ⟨hon, ?_⟩
      rintro rfl
      unfold isOn at hon
      split at hon
      · next entry hfound =>
        exact hentry entry (by
          simp only [Registry.setEntry]
          rw [Dict.lookup_set, if_neg hnew, hfound])
      · simp at hon

/-- The plugin that removing a clone enables again. -/
def restores (plugins : PyDict) (id : Text) : Option Text := do
  let entry ← entryAt plugins id
  let restore ← restoreOf entry
  match restore.lookup (ascii "id"), restore.lookup ENABLED with
  | some (.str original), some (.bool true) => some original
  | _, _ => none

theorem restored_eq_some {plugins restore entry : PyDict} {original : Text} {enabled : Bool}
    (h : restored plugins restore = .ok (some (original, entry, enabled))) :
    restore.lookup (ascii "id") = some (.str original) ∧
      restore.lookup ENABLED = some (.bool enabled) := by
  unfold restored at h
  split at h
  · next id hid =>
    split at h
    · simp [pure_eq_ok] at h
    · next value hvalue =>
      simp only [bind_eq_ok, pure_eq_ok, expect_eq_ok] at h
      obtain ⟨restoring, hrestoring, h⟩ := h
      rw [h] at hrestoring
      split at hrestoring
      · next fields flag _ hflag =>
        simp only [Option.some.injEq, Prod.mk.injEq] at hrestoring
        obtain ⟨rfl, -, rfl⟩ := hrestoring
        exact ⟨hid, hflag⟩
      · cases hrestoring
  · cases h
  · cases h
  · simp [pure_eq_ok] at h

theorem commandRemove_isOn {deletes : Bool} (h : commandRemove w id deletes = .ok after)
    (hon : isOn after.registry.plugins asked = true) :
    asked ≠ id ∧ (isOn w.registry.plugins asked = true ∨
      restores w.registry.plugins id = some asked) := by
  simp only [commandRemove, bind_eq_ok, pure_eq_ok, expect_eq_ok] at h
  obtain ⟨-, -, directory, -, removed, hremoved, restore, hrestore, restoring, hrestoring,
    entry, -, bar, -, rfl⟩ := h
  simp only [Registry.passBar_plugins, Registry.setEntry, isOn_set, isTrue_set_enabled] at hon
  split_ifs at hon with hasked
  refine ⟨hasked, ?_⟩
  cases restoring with
  | none =>
      simp only [isOn_set, if_neg hasked] at hon
      exact Or.inl hon
  | some restoring =>
      obtain ⟨original, fields, enabled⟩ := restoring
      simp only [isOn_set, isTrue_set_enabled, if_neg hasked] at hon
      split_ifs at hon with horiginal
      · obtain ⟨hid, hflag⟩ := restored_eq_some hrestoring
        refine Or.inr ?_
        simp only [restores, hremoved, hrestore, Option.bind_eq_bind, Option.bind_some, hid, hflag,
          hon, horiginal]
      · exact Or.inl hon

/-! ### configure-widget -/

theorem changeTarget_isOn {plugins changed : PyDict} {name : Text} {change : PyDict → PyDict}
    (h : changeTarget plugins id name change = some changed)
    (hchange : name ≠ [] ∨
      ∀ entry, isTrue ((change entry).lookup ENABLED) = isTrue (entry.lookup ENABLED)) :
    isOn changed asked = isOn plugins asked := by
  simp only [changeTarget, Option.bind_eq_bind, Option.bind_eq_some_iff] at h
  obtain ⟨entry, hentry, h⟩ := h
  have hsame := isOn_entryAt hentry
  split_ifs at h with hname
  · rw [← Option.some.inj h, isOn_set]
    split_ifs with hasked
    · rw [hasked, hsame]
      exact (hchange.resolve_left (not_not.mpr hname)) entry
    · rfl
  · simp only [Option.bind_eq_some_iff] at h
    obtain ⟨instances, -, fields, -, h⟩ := h
    rw [← Option.some.inj h, isOn_set, isTrue_set (by decide)]
    split_ifs with hasked
    · rw [hasked, hsame]
    · rfl

theorem orderPeers_isOn {plugins changed : PyDict} {peers : List Widget}
    (h : orderPeers plugins peers = some changed) : isOn changed asked = isOn plugins asked := by
  unfold orderPeers at h
  generalize peers.zipIdx = numbered at h
  induction numbered generalizing plugins with
  | nil =>
      rw [List.foldlM_nil, Option.pure_def, Option.some.injEq] at h
      rw [h]
  | cons peer numbered ih =>
      rw [List.foldlM_cons, Option.bind_eq_bind, Option.bind_eq_some_iff] at h
      obtain ⟨next, hnext, hrest⟩ := h
      rw [ih hrest]
      exact changeTarget_isOn hnext (Or.inr fun entry => isTrue_set (by decide))

theorem enableWidget_isOn {plugins changed : PyDict} {widget : Widget} {enabled : Bool}
    (h : enableWidget plugins widget enabled = some changed)
    (hon : isOn changed asked = true) :
    isOn plugins asked = true ∨ asked = widget.id ∧ enabled = true := by
  simp only [enableWidget, Option.bind_eq_bind, Option.bind_eq_some_iff] at h
  obtain ⟨flagged, hflagged, h⟩ := h
  have hsame : isOn flagged asked = isOn plugins asked := by
    unfold flagWidget at hflagged
    split_ifs at hflagged with hname
    · exact changeTarget_isOn hflagged (Or.inr fun entry => isTrue_set (by decide))
    · exact changeTarget_isOn hflagged (Or.inl hname)
  split_ifs at h with henabled
  · by_cases hasked : asked = widget.id
    · exact Or.inr ⟨hasked, henabled⟩
    · simp only [changeTarget, ↓reduceIte, Option.bind_eq_bind, Option.bind_eq_some_iff] at h
      obtain ⟨entry, -, h⟩ := h
      rw [← Option.some.inj h, isOn_set, if_neg hasked, hsame] at hon
      exact Or.inl hon
  · rw [← Option.some.inj h, hsame] at hon
    exact Or.inl hon

theorem placeWidget_isOn {plugins changed : PyDict} {widgets : List Widget} {widget : Widget}
    {place : Section} (h : placeWidget plugins widgets widget place = some changed) :
    isOn changed asked = isOn plugins asked := by
  simp only [placeWidget, Option.bind_eq_bind, Option.bind_eq_some_iff] at h
  obtain ⟨ordered, hordered, h⟩ := h
  rw [← orderPeers_isOn hordered]
  refine changeTarget_isOn h (Or.inr fun entry => ?_)
  rw [isTrue_set (by decide), isTrue_set (by decide)]

theorem configured_isOn {plugins changed : PyDict} {widgets : List Widget} {widget : Widget}
    {changes : Changes} (h : configured plugins widgets widget changes = some changed)
    (hon : isOn changed asked = true) :
    isOn plugins asked = true ∨ asked = widget.id ∧ changes.enabled = some true := by
  simp only [configured, Option.bind_eq_bind, Option.bind_eq_some_iff] at h
  obtain ⟨sized, hsized, sited, hsited, h⟩ := h
  have hsize : isOn sized asked = isOn plugins asked := by
    cases hwidth : changes.width with
    | none => simp_all
    | some width =>
        rw [hwidth, Option.elim_some] at hsized
        exact changeTarget_isOn hsized (Or.inr fun entry => isTrue_set (by decide))
  have hsite : isOn sited asked = isOn sized asked := by
    cases hplace : changes.place with
    | none => simp_all
    | some place =>
        rw [hplace, Option.elim_some] at hsited
        exact placeWidget_isOn hsited
  cases henabled : changes.enabled with
  | none =>
      rw [henabled, Option.elim_none, Option.some.injEq] at h
      rw [← h, hsite, hsize] at hon
      exact Or.inl hon
  | some enabled =>
      rw [henabled, Option.elim_some] at h
      rcases enableWidget_isOn h hon with hsame | ⟨hasked, htrue⟩
      · rw [hsite, hsize] at hsame
        exact Or.inl hsame
      · exact Or.inr ⟨hasked, by rw [htrue]⟩

/-! ### layout-edit -/

theorem applyPlugin_isOn {packages : Packages} {rows : List (Text × Row)}
    {plugins applied : PyDict} (h : applyPlugin packages rows plugins id = .ok applied)
    (hon : isOn applied asked = true) : isOn plugins asked = true ∨ asked = id := by
  simp only [applyPlugin, bind_eq_ok, pure_eq_ok] at h
  obtain ⟨candidate, -, -, -, multiple, -, -, -, entry, -, saved, -, rfl⟩ := h
  rw [isOn_set] at hon
  split_ifs at hon with hasked
  · exact Or.inr hasked
  · exact Or.inl hon

theorem isOn_hideRest {packages : Packages} {grouped : List Text} {plugins : PyDict}
    (h : isOn (plugins.map (hideRest packages grouped)) asked = true) :
    isOn plugins asked = true := by
  refine isOn_map (hideRest_fst packages grouped) (fun value hvalue => ?_) h
  unfold hideRest at hvalue
  split at hvalue
  · next entry candidate hentry hcandidate =>
    simp only at hentry
    subst hentry
    split_ifs at hvalue with hhide
    · have hother : ENABLED ≠ ascii "widgetEnabled" := by decide
      simpa [isOn, hother] using hvalue
    · exact hvalue
  · exact hvalue

theorem applyLayout_isOn {registry applied : Registry} {layout : Layout} {packages : Packages}
    (h : applyLayout registry layout packages = .ok applied)
    (hon : isOn applied.plugins asked = true) :
    isOn registry.plugins asked = true ∨ ∃ place, layout.entries place asked ≠ [] := by
  simp only [applyLayout, bind_eq_ok, pure_eq_ok, raising_eq_ok] at h
  obtain ⟨rows, hrows, plugins, hplugins, rfl⟩ := h
  have hkept := foldlM_keeps
    (fun d => isOn d asked = true → isOn registry.plugins asked = true ∨
      asked ∈ (rows.map Prod.fst).eraseDups)
    (fun s id hid t hs hstep ht => by
      rcases applyPlugin_isOn hstep ht with hsame | rfl
      · exact hs hsame
      · exact Or.inr hid)
    Or.inl hplugins (isOn_hideRest hon)
  refine hkept.imp_right fun hgrouped => ?_
  rw [List.mem_eraseDups, List.mem_map] at hgrouped
  obtain ⟨⟨held, row⟩, hmem, rfl⟩ := hgrouped
  have hrow : (row.place, row.item) ∈
      (rowsFor rows held).map (fun row => (row.place, row.item)) := by
    refine List.mem_map.mpr ⟨row, ?_, rfl⟩
    exact List.mem_map.mpr ⟨(held, row), by simpa using hmem, rfl⟩
  rw [rowsOf_eq_ok hrows, List.mem_flatMap] at hrow
  obtain ⟨place, -, hentry⟩ := hrow
  refine ⟨place, fun hempty => ?_⟩
  rw [hempty] at hentry
  cases hentry

theorem editLayout_isOn {registry edited : Registry} {packages : Packages} {action : Action}
    {payload : PyDict} (h : editLayout registry packages action id payload = .ok edited)
    (hon : isOn edited.plugins asked = true) : isOn registry.plugins asked = true ∨ asked = id := by
  obtain ⟨info, hinfo, ⟨-, rfl⟩ | ⟨-, layout, hsame, happlied⟩⟩ := editLayout_eq_ok h
  · exact Or.inl hon
  rcases applyLayout_isOn happlied hon with hkept | ⟨place, hentries⟩
  · exact Or.inl hkept
  rw [or_iff_not_imp_right]
  intro hasked
  -- an entry of another plugin was drawn before
  rw [hsame place asked hasked] at hentries
  obtain ⟨entry, hentry⟩ := List.exists_mem_of_ne_nil _ hentries
  obtain ⟨hmem, hid⟩ := List.mem_filter.mp hentry
  obtain ⟨widget, hwidget, hdrawn⟩ := mem_drawnLayout.mp hmem
  obtain ⟨henabled, -, hheld⟩ := drawnEntry_eq_some hdrawn
  rw [hheld, decide_eq_true_eq, Option.some.injEq] at hid
  exact hid ▸ scan_isOn hinfo hwidget henabled

end

end Plugins

end CybexOS
