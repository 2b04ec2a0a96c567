/-
What each inbox operation leaves under a key: reading a saved state again,
pruning it, and reconciling a page.
-/
import CybexOS.GitHub.Inbox

namespace CybexOS

namespace GitHub

open Json (JsValue)

/-! ### Rows -/

/-- What makes a row the snapshot it is, its notes and texts apart. -/
structure Row.Same (a b : Row) : Prop where
  key : a.key = b.key
  revision : a.revision = b.revision
  source : a.source = b.source
  kind : a.kind = b.kind
  repo : a.repo = b.repo
  active : a.active = b.active
  lifecycle : a.lifecycle = b.lifecycle
  at' : a.at' = b.at'

theorem Row.Same.refl (row : Row) : row.Same row := ⟨rfl, rfl, rfl, rfl, rfl, rfl, rfl, rfl⟩

theorem Row.Same.trans {a b c : Row} (h : a.Same b) (h' : b.Same c) : a.Same c :=
  ⟨h.key.trans h'.key, h.revision.trans h'.revision, h.source.trans h'.source,
    h.kind.trans h'.kind, h.repo.trans h'.repo, h.active.trans h'.active,
    h.lifecycle.trans h'.lifecycle, h.at'.trans h'.at'⟩

/-- A row as normalising and reconciling leave it. -/
structure Row.Formed (row : Row) : Prop where
  key : row.key ≠ [] ∧ keyPrefixed row.key = true
  revision : row.revision ≠ []
  kind : row.kind ∈ INBOX_KINDS
  repo : row.repo ≠ []
  source : row.source ≠ []
  active : row.active = true → row.kind = ascii "run"
  lifecycle : row.lifecycle = .active ↔ row.active = true

section

variable (dateParse : Text → Option ℤ) (localeCompare : Text → Text → Ordering)

/-- What identifies the row is clean: cleaning it again changes nothing. -/
structure Row.Steady (row : Row) : Prop where
  key : cleanText (some (.str row.key)) 600 = row.key
  revision : cleanText (some (.str row.revision)) 600 = row.revision
  repo : repoSlug (some (.str row.repo)) = row.repo
  source : validInboxSource (some (.str row.source)) = row.source
  at' : cleanStamp dateParse (some (.str row.at')) = row.at'

/-- A state that normalising leaves as it is, up to notes and texts. -/
structure Items.Normal (items : Items) : Prop where
  distinct : (Dict.keys items).Nodup
  rows : ∀ item ∈ items, item.1 = item.2.key ∧ item.2.Formed ∧ item.2.Steady dateParse

variable {dateParse localeCompare}

theorem Row.Same.formed {a b : Row} (h : a.Same b) (hb : b.Formed) : a.Formed := by
  obtain ⟨hkey, hrevision, hsource, hkind, hrepo, hactive, hlifecycle, -⟩ := h
  refine ⟨?_, ?_, ?_, ?_, ?_, ?_, ?_⟩
  · rw [hkey]
    exact hb.key
  · rw [hrevision]
    exact hb.revision
  · rw [hkind]
    exact hb.kind
  · rw [hrepo]
    exact hb.repo
  · rw [hsource]
    exact hb.source
  · rw [hactive, hkind]
    exact hb.active
  · rw [hlifecycle, hactive]
    exact hb.lifecycle

theorem Row.Same.steady {a b : Row} (h : a.Same b) (hb : b.Steady dateParse) :
    a.Steady dateParse := by
  refine ⟨?_, ?_, ?_, ?_, ?_⟩
  · rw [h.key, hb.key]
  · rw [h.revision, hb.revision]
  · rw [h.repo, hb.repo]
  · rw [h.source, hb.source]
  · rw [h.at', hb.at']

/-- Steadiness is about what identifies a row. -/
theorem Row.Steady.withNotes {row : Row} (h : row.Steady dateParse) (lifecycle : Lifecycle)
    (noticedAt settledAt : Text) :
    Row.Steady dateParse { row with
      lifecycle := lifecycle, noticedAt := noticedAt, settledAt := settledAt } :=
  ⟨h.key, h.revision, h.repo, h.source, h.at'⟩

theorem Row.Formed.withNotes {row : Row} (h : row.Formed) {lifecycle : Lifecycle}
    (hlifecycle : lifecycle = .active ↔ row.active = true) (noticedAt settledAt : Text) :
    Row.Formed { row with
      lifecycle := lifecycle, noticedAt := noticedAt, settledAt := settledAt } :=
  ⟨h.key, h.revision, h.kind, h.repo, h.source, h.active, hlifecycle⟩

theorem cleanText_kind : ∀ kind ∈ INBOX_KINDS, cleanText (some (.str kind)) 40 = kind := by
  decide +kernel

theorem lifecycle_active_iff (active settled : Bool) :
    (if active then Lifecycle.active else if settled then .settled else .unsettled) = .active ↔
      active = true := by
  cases active <;> cases settled <;> decide

theorem normalizeInboxSnapshot_formed {raw : JsValue} {source : Text} {row : Row}
    (h : normalizeInboxSnapshot dateParse raw source = some row) : row.Formed := by
  simp only [normalizeInboxSnapshot, Option.ite_none_left_eq_some, not_or, Bool.not_eq_true',
    Bool.not_eq_false, not_not, Option.some.injEq] at h
  obtain ⟨hbad, rfl⟩ := h
  obtain ⟨hkey, hrevision, hkind, hrepo, hprefixed, hsource⟩ := hbad
  refine ⟨⟨hkey, hprefixed⟩, hrevision, hkind, hrepo, hsource, ?_, ?_⟩
  · intro hactive
    exact of_decide_eq_true (Bool.and_eq_true_iff.mp hactive).1
  · exact lifecycle_active_iff _ _

/-- A saved row is read back. -/
theorem normalizeInboxSnapshot_value {row : Row} (hformed : row.Formed)
    (hsteady : row.Steady dateParse) :
    ∃ again, normalizeInboxSnapshot dateParse row.value [] = some again ∧ again.Same row := by
  have hkey : field row.value "key" = some (.str row.key) := rfl
  have hrevision : field row.value "revision" = some (.str row.revision) := rfl
  have hkind : field row.value "kind" = some (.str row.kind) := rfl
  have hrepo : field row.value "repo" = some (.str row.repo) := rfl
  have hsource : field row.value "source" = some (.str row.source) := rfl
  have hstamp : field row.value "at" = some (.str row.at') := rfl
  have hactive : isTrue row.value "active" = row.active := rfl
  have hsettled : isSettled row.value = (row.lifecycle.name == ascii "settled") := rfl
  have hoverride : validInboxSource (some (.str [])) = [] := by decide
  have hrun : (decide (row.kind = ascii "run") && row.active) = row.active := by
    cases hrow : row.active with
    | false => simp
    | true => simp [hformed.active hrow]
  simp only [normalizeInboxSnapshot, hkey, hrevision, hkind, hrepo, hsource, hstamp, hactive,
    hsettled, hoverride, hsteady.key, hsteady.revision, cleanText_kind _ hformed.kind,
    hsteady.repo, hsteady.source, hsteady.at', orText, if_true, if_neg hformed.source, hrun]
  rw [if_neg]
  · refine ⟨_, rfl, rfl, rfl, rfl, rfl, rfl, rfl, ?_, rfl⟩
    have hlifecycle := hformed.lifecycle
    show (if row.active then Lifecycle.active
      else if row.lifecycle.name == ascii "settled" then .settled else .unsettled) = row.lifecycle
    cases hrow : row.lifecycle with
    | active => rw [if_pos (hlifecycle.mp hrow)]
    | settled =>
        rw [hrow] at hlifecycle
        rw [if_neg fun hactive => absurd (hlifecycle.mpr hactive) (by decide)]
        decide
    | unsettled =>
        rw [hrow] at hlifecycle
        rw [if_neg fun hactive => absurd (hlifecycle.mpr hactive) (by decide)]
        decide
  · simp only [not_or, Bool.not_eq_true', Bool.not_eq_false, not_not]
    exact ⟨hformed.key.1, hformed.revision, hformed.kind, hformed.repo, hformed.key.2,
      hformed.source⟩

/-! ### Saved states -/

/-- The items that pruning keeps are items, and it drops settled ones only. -/
theorem pruneSettledInbox_lookup {items : Items} (hdistinct : (Dict.keys items).Nodup)
    {limit : Nat} {key : Text} {row : Row} :
    ((pruneSettledInbox dateParse localeCompare items limit).lookup key = some row →
      items.lookup key = some row) ∧
    (items.lookup key = some row → row.lifecycle ≠ .settled →
      (pruneSettledInbox dateParse localeCompare items limit).lookup key = some row) := by
  refine ⟨Dict.lookup_of_lookup_filter hdistinct, fun hlookup hrow => ?_⟩
  exact Dict.lookup_filter_of_keep hdistinct hlookup (decide_eq_true (Or.inl hrow))

theorem Items.Normal.filter {items : Items} (h : items.Normal dateParse)
    (keep : Text × Row → Bool) : Items.Normal dateParse (items.filter keep) :=
  ⟨Dict.nodup_filter h.distinct keep, fun item hitem => h.rows item (List.mem_filter.mp hitem).1⟩

theorem Items.Normal.set {items : Items} (h : items.Normal dateParse) {row : Row}
    (hformed : row.Formed) (hsteady : row.Steady dateParse) :
    Items.Normal dateParse (Dict.set items row.key row) := by
  refine ⟨Dict.nodup_set h.distinct, fun item hitem => ?_⟩
  rcases Dict.mem_of_mem_set hitem with rfl | hold
  · exact ⟨rfl, hformed, hsteady⟩
  · exact h.rows item hold

theorem Items.Normal.row {items : Items} (h : items.Normal dateParse) {key : Text} {row : Row}
    (hrow : items.lookup key = some row) :
    row.key = key ∧ row.Formed ∧ row.Steady dateParse := by
  obtain ⟨hkey, hboth⟩ := h.rows _ (Dict.mem_of_lookup hrow)
  exact ⟨hkey.symm, hboth⟩

/-- A saved row as it is read back. -/
def reread (dateParse : Text → Option ℤ) (row : Row) : Row :=
  (normalizeInboxSnapshot dateParse row.value []).getD row

theorem reread_same {row : Row} (hformed : row.Formed) (hsteady : row.Steady dateParse) :
    normalizeInboxSnapshot dateParse row.value [] = some (reread dateParse row) ∧
      (reread dateParse row).Same row := by
  obtain ⟨again, hagain, hsame⟩ := normalizeInboxSnapshot_value hformed hsteady
  rw [reread, hagain]
  exact ⟨rfl, hsame⟩

/-- Rows with distinct keys are all read back, in their order. -/
theorem foldl_reread {items done : Items}
    (hrows : ∀ item ∈ items, item.1 = item.2.key ∧ item.2.Formed ∧ item.2.Steady dateParse)
    (hdistinct : (Dict.keys (done ++ items)).Nodup) :
    items.values.foldl (putSnapshot dateParse) done =
      done ++ items.map fun item => (item.1, reread dateParse item.2) := by
  induction items generalizing done with
  | nil => simp [Items.values]
  | cons item items ih =>
      obtain ⟨hkey, hformed, hsteady⟩ := hrows item List.mem_cons_self
      obtain ⟨hagain, hsame⟩ := reread_same hformed hsteady
      have hreread : (reread dateParse item.2).key = item.1 := hsame.key.trans hkey.symm
      have hkeys : Dict.keys (done ++ item :: items) =
          Dict.keys done ++ item.1 :: Dict.keys items := by
        simp [Dict.keys]
      rw [hkeys, List.nodup_middle, List.nodup_cons, List.mem_append, not_or] at hdistinct
      have hnext : (Dict.keys ((done ++ [(item.1, reread dateParse item.2)]) ++ items)).Nodup := by
        have hsplit : Dict.keys ((done ++ [(item.1, reread dateParse item.2)]) ++ items) =
            Dict.keys done ++ item.1 :: Dict.keys items := by
          simp [Dict.keys]
        rw [hsplit, List.nodup_middle, List.nodup_cons, List.mem_append, not_or]
        exact hdistinct
      have hvalues : Items.values (item :: items) = item.2.value :: Items.values items := rfl
      rw [hvalues, List.foldl_cons, putSnapshot, hagain]
      simp only
      rw [hreread, Dict.set_new hdistinct.1.1,
        ih (fun other hother => hrows other (List.mem_cons_of_mem _ hother)) hnext,
        List.map_cons, List.append_assoc, List.singleton_append]

/-- What reading a normal state again gives: the same rows, without settled
ones beyond the limit. -/
theorem normalizeInboxItems_spec {items : Items} (h : items.Normal dateParse) :
    Items.Normal dateParse (normalizeInboxItems dateParse localeCompare items.values) ∧
    (∀ key row, items.lookup key = some row → row.lifecycle ≠ .settled → ∃ again,
      (normalizeInboxItems dateParse localeCompare items.values).lookup key = some again ∧
        again.Same row) ∧
    ∀ key again,
      (normalizeInboxItems dateParse localeCompare items.values).lookup key = some again →
        ∃ row, items.lookup key = some row ∧ again.Same row := by
  have hread := @foldl_reread dateParse items [] h.rows (by simpa using h.distinct)
  rw [List.nil_append] at hread
  have hlookup : ∀ key, (items.map fun item => (item.1, reread dateParse item.2)).lookup key =
      (items.lookup key).map (reread dateParse) :=
    fun key => Dict.lookup_map_item fun item => rfl
  have hnormal : Items.Normal dateParse
      (items.map fun item => (item.1, reread dateParse item.2)) := by
    refine ⟨?_, fun item hitem => ?_⟩
    · have hkeys : Dict.keys (items.map fun item => (item.1, reread dateParse item.2)) =
          Dict.keys items := by
        simp [Dict.keys]
      rw [hkeys]
      exact h.distinct
    · obtain ⟨old, hold, rfl⟩ := List.mem_map.mp hitem
      obtain ⟨hkey, hformed, hsteady⟩ := h.rows old hold
      obtain ⟨-, hsame⟩ := reread_same hformed hsteady
      exact ⟨hkey.trans hsame.key.symm, hsame.formed hformed, hsame.steady hsteady⟩
  unfold normalizeInboxItems
  rw [hread]
  refine ⟨hnormal.filter _, fun key row hrow hlifecycle => ?_, fun key again hagain => ?_⟩
  · obtain ⟨-, hformed, hsteady⟩ := h.row hrow
    obtain ⟨-, hsame⟩ := reread_same hformed hsteady
    refine ⟨reread dateParse row, ?_, hsame⟩
    refine (pruneSettledInbox_lookup hnormal.distinct).2 ?_ ?_
    · rw [hlookup, hrow, Option.map_some]
    · rw [hsame.lifecycle]
      exact hlifecycle
  · have hkept := (pruneSettledInbox_lookup hnormal.distinct).1 hagain
    rw [hlookup, Option.map_eq_some_iff] at hkept
    obtain ⟨row, hrow, rfl⟩ := hkept
    obtain ⟨-, hformed, hsteady⟩ := h.row hrow
    exact ⟨row, hrow, (reread_same hformed hsteady).2⟩

/-! ### Pages -/

theorem putNewest_keyed {byKey : Items} (hdistinct : (Dict.keys byKey).Nodup)
    (hkeyed : ∀ item ∈ byKey, item.1 = item.2.key) (row : Row) :
    (Dict.keys (putNewest dateParse byKey row)).Nodup ∧
      ∀ item ∈ putNewest dateParse byKey row,
        item.1 = item.2.key ∧ (item ∈ byKey ∨ item.2 = row) := by
  have hset : (Dict.keys (Dict.set byKey row.key row)).Nodup ∧
      ∀ item ∈ Dict.set byKey row.key row,
        item.1 = item.2.key ∧ (item ∈ byKey ∨ item.2 = row) := by
    refine ⟨Dict.nodup_set hdistinct, fun item hitem => ?_⟩
    rcases Dict.mem_of_mem_set hitem with rfl | hold
    · exact ⟨rfl, Or.inr rfl⟩
    · exact ⟨hkeyed item hold, Or.inl hold⟩
  unfold putNewest
  cases byKey.lookup row.key with
  | none => exact hset
  | some current =>
      simp only
      split_ifs
      · exact hset
      · exact ⟨hdistinct, fun item hitem => ⟨hkeyed item hitem, Or.inl hitem⟩⟩

theorem foldl_putNewest {rows : List Row} {byKey : Items} (hdistinct : (Dict.keys byKey).Nodup)
    (hkeyed : ∀ item ∈ byKey, item.1 = item.2.key) :
    (Dict.keys (rows.foldl (putNewest dateParse) byKey)).Nodup ∧
      ∀ item ∈ rows.foldl (putNewest dateParse) byKey,
        item.1 = item.2.key ∧ (item ∈ byKey ∨ item.2 ∈ rows) := by
  induction rows generalizing byKey with
  | nil => exact ⟨hdistinct, fun item hitem => ⟨hkeyed item hitem, Or.inl hitem⟩⟩
  | cons row rows ih =>
      obtain ⟨hnext, hrow⟩ := putNewest_keyed hdistinct hkeyed row
      obtain ⟨hlast, hrows⟩ := ih hnext fun item hitem => (hrow item hitem).1
      refine ⟨hlast, fun item hitem => ?_⟩
      obtain ⟨hkey, hmem | hmem⟩ := hrows item hitem
      · rcases (hrow item hmem).2 with hold | hnew
        · exact ⟨hkey, Or.inl hold⟩
        · exact ⟨hkey, Or.inr (hnew ▸ List.mem_cons_self)⟩
      · exact ⟨hkey, Or.inr (List.mem_cons_of_mem _ hmem)⟩

/-- The newest rows have distinct keys and are rows of the page. -/
theorem newestEntityRows_spec (rows : List Row) :
    ((newestEntityRows dateParse rows).map Row.key).Nodup ∧
      ∀ row ∈ newestEntityRows dateParse rows, row ∈ rows := by
  obtain ⟨hdistinct, hrows⟩ := @foldl_putNewest dateParse rows [] List.nodup_nil (by simp)
  unfold newestEntityRows
  constructor
  · have hkeys : ((rows.foldl (putNewest dateParse) []).map Prod.snd).map Row.key =
        Dict.keys (rows.foldl (putNewest dateParse) []) := by
      rw [List.map_map]
      exact List.map_congr_left fun item hitem => (hrows item hitem).1.symm
    rw [hkeys]
    exact hdistinct
  · intro row hrow
    obtain ⟨item, hitem, rfl⟩ := List.mem_map.mp hrow
    exact (hrows item hitem).2.resolve_left (by simp)

/-- What reconciling a row leaves under its key. -/
def outcome (dateParse : Text → Option ℤ) (source : Text) (known : Bool) (oldMap : Revisions)
    (stamp : Text) (existing : Option Row) (row : Row) : Option Row :=
  let same := sameRevision oldMap existing row
  if existing.any (fun existing => !same && lagging dateParse source existing row) then existing
  else if known && same && existing.isNone && !row.active then none
  else some (reconciledRow known same existing stamp row)

section

variable {source stamp : Text} {known : Bool} {oldMap : Revisions}

theorem reconcileRow_lookup {state : Items × Revisions} {row : Row} (key : Text) :
    (reconcileRow dateParse source known oldMap stamp state row).1.lookup key =
      if key = row.key then
        outcome dateParse source known oldMap stamp (state.1.lookup key) row
      else state.1.lookup key := by
  unfold reconcileRow outcome
  simp only
  by_cases hkey : key = row.key
  · subst hkey
    rw [if_pos rfl]
    cases hexisting : state.1.lookup row.key with
    | none =>
        simp only [Option.filter_none, Option.any_none, Bool.false_eq_true, if_false]
        split_ifs with hskip
        · exact hexisting
        · rw [Dict.lookup_set, if_pos rfl]
    | some existing =>
        rw [Option.filter_some, Option.any_some]
        by_cases hlag : (!sameRevision oldMap (some existing) row &&
            lagging dateParse source existing row) = true
        · rw [if_pos hlag, if_pos hlag]
          exact hexisting
        · rw [if_neg hlag, if_neg hlag]
          simp only [Option.isNone_some, Bool.and_false, Bool.false_and, Bool.false_eq_true,
            if_false]
          rw [Dict.lookup_set, if_pos rfl]
  · rw [if_neg hkey]
    split
    · rfl
    · simp only
      split_ifs
      · rfl
      · rw [Dict.lookup_set, if_neg hkey]

/-- A page changes what its rows are about, one row at a time. -/
theorem foldl_reconcileRow_lookup {incoming : List Row} {state : Items × Revisions}
    (hkeys : (incoming.map Row.key).Nodup) (key : Text) :
    ((∀ row ∈ incoming, row.key ≠ key) →
      (incoming.foldl (reconcileRow dateParse source known oldMap stamp) state).1.lookup key =
        state.1.lookup key) ∧
    ∀ row ∈ incoming, row.key = key →
      (incoming.foldl (reconcileRow dateParse source known oldMap stamp) state).1.lookup key =
        outcome dateParse source known oldMap stamp (state.1.lookup key) row := by
  induction incoming generalizing state with
  | nil => simp
  | cons first rest ih =>
      rw [List.map_cons, List.nodup_cons] at hkeys
      obtain ⟨hother, hmine⟩ := @ih (reconcileRow dateParse source known oldMap stamp state first)
        hkeys.2
      rw [List.foldl_cons]
      constructor
      · intro hnone
        rw [hother fun row hrow => hnone row (List.mem_cons_of_mem _ hrow), reconcileRow_lookup,
          if_neg (Ne.symm (hnone first List.mem_cons_self))]
      · intro row hrow hkey
        rcases List.mem_cons.mp hrow with rfl | hrow
        · have hlater : ∀ later ∈ rest, later.key ≠ key := by
            rintro later hlater rfl
            exact hkeys.1 (hkey ▸ List.mem_map_of_mem hlater)
          rw [hother hlater, reconcileRow_lookup, if_pos hkey.symm]
        · have hne : key ≠ first.key := by
            rintro rfl
            exact hkeys.1 (hkey ▸ List.mem_map_of_mem hrow)
          rw [hmine row hrow hkey, reconcileRow_lookup, if_neg hne]

/-- A reconciled row is the row with a lifecycle that fits it. -/
theorem reconciledRow_eq (same : Bool) (existing : Option Row) (row : Row) :
    ∃ lifecycle noticedAt settledAt, (lifecycle = .active ↔ row.active = true) ∧
      reconciledRow known same existing stamp row =
        { row with
          lifecycle := lifecycle, noticedAt := noticedAt, settledAt := settledAt } := by
  unfold reconciledRow
  simp only
  cases known with
  | false =>
      rw [if_pos (by decide)]
      cases hkept : existing.filter fun existing =>
          !row.active && existing.lifecycle ≠ .active with
      | some kept =>
          have hboth := (Option.filter_eq_some_iff.mp hkept).2
          simp only [ne_eq, decide_not, Bool.and_eq_true, Bool.not_eq_true', decide_eq_false_iff_not]
            at hboth
          refine ⟨_, _, _, ?_, rfl⟩
          rw [hboth.1]
          exact iff_of_false hboth.2 (by decide)
      | none =>
          refine ⟨_, _, _, ?_, rfl⟩
          cases row.active <;> decide
  | true =>
      rw [if_neg (by decide)]
      by_cases hactive : row.active = true
      · rw [if_pos hactive]
        exact ⟨_, _, _, iff_of_true rfl hactive, rfl⟩
      · rw [if_neg hactive]
        cases hkept : existing.filter fun existing => same && existing.lifecycle ≠ .active with
        | some kept =>
            have hboth := (Option.filter_eq_some_iff.mp hkept).2
            simp only [ne_eq, decide_not, Bool.and_eq_true, Bool.not_eq_true',
              decide_eq_false_iff_not] at hboth
            exact ⟨_, _, _, iff_of_false hboth.2 hactive, rfl⟩
        | none => exact ⟨_, _, _, iff_of_false (by decide) hactive, rfl⟩

theorem reconcileRow_normal {state : Items × Revisions} {row : Row}
    (h : Items.Normal dateParse state.1) (hformed : row.Formed) (hsteady : row.Steady dateParse) :
    Items.Normal dateParse
      (reconcileRow dateParse source known oldMap stamp state row).1 := by
  have hset : Items.Normal dateParse (Dict.set state.1 row.key
      (reconciledRow known (sameRevision oldMap (state.1.lookup row.key) row)
        (state.1.lookup row.key) stamp row)) := by
    obtain ⟨lifecycle, noticedAt, settledAt, hlifecycle, heq⟩ := reconciledRow_eq (sameRevision oldMap (state.1.lookup row.key) row)
      (state.1.lookup row.key) row
    rw [heq]
    exact h.set (hformed.withNotes hlifecycle noticedAt settledAt)
      (hsteady.withNotes lifecycle noticedAt settledAt)
  unfold reconcileRow
  simp only
  split
  · exact h
  · simp only
    split_ifs
    · exact h
    · exact hset

theorem foldl_reconcileRow_normal {incoming : List Row} {state : Items × Revisions}
    (h : Items.Normal dateParse state.1)
    (hincoming : ∀ row ∈ incoming, row.Formed ∧ row.Steady dateParse) :
    Items.Normal dateParse
      (incoming.foldl (reconcileRow dateParse source known oldMap stamp) state).1 := by
  induction incoming generalizing state with
  | nil => exact h
  | cons row rest ih =>
      obtain ⟨hformed, hsteady⟩ := hincoming row List.mem_cons_self
      exact ih (reconcileRow_normal h hformed hsteady)
        fun other hother => hincoming other (List.mem_cons_of_mem _ hother)

/-- An unsettled row stays unsettled unless its run is active again. -/
theorem outcome_stays {existing row : Row} (h : existing.lifecycle = .unsettled)
    (hactive : row.active = false) :
    ∃ left, outcome dateParse source known oldMap stamp (some existing) row = some left ∧
      left.lifecycle = .unsettled := by
  unfold outcome
  simp only [Option.any_some, Option.isNone_some, Bool.and_false, Bool.false_and,
    Bool.false_eq_true, if_false]
  split_ifs with hlag
  · exact ⟨existing, rfl, h⟩
  · refine ⟨_, rfl, ?_⟩
    unfold reconciledRow
    simp only [hactive, Option.filter_some, h, ne_eq, reduceCtorEq, not_false_eq_true, decide_true,
      Bool.not_false, Bool.and_true, Bool.false_eq_true, if_false, if_true]
    cases known with
    | false => simp
    | true =>
        cases sameRevision oldMap (some existing) row <;> simp [h]

/-- How a row becomes unsettled. -/
theorem outcome_wakes {existing : Option Row} {row left : Row}
    (hexisting : ∀ kept, existing = some kept → kept.lifecycle ≠ .unsettled)
    (h : outcome dateParse source known oldMap stamp existing row = some left)
    (hleft : left.lifecycle = .unsettled) :
    known = true ∧ row.active = false ∧
      (sameRevision oldMap existing row = true →
        ∃ kept, existing = some kept ∧ kept.lifecycle = .active) ∧
      (sameRevision oldMap existing row = false →
        ∀ kept, existing = some kept → lagging dateParse source kept row = false) := by
  unfold outcome at h
  simp only at h
  generalize hsame : sameRevision oldMap existing row = same at h
  by_cases hlag : existing.any (fun kept => !same && lagging dateParse source kept row) = true
  · rw [if_pos hlag] at h
    exact absurd hleft (hexisting left h)
  rw [if_neg hlag] at h
  by_cases hskip : (known && same && existing.isNone && !row.active) = true
  · rw [if_pos hskip] at h
    cases h
  rw [if_neg hskip] at h
  obtain rfl := Option.some.inj h
  unfold reconciledRow at hleft
  simp only at hleft
  cases known with
  | false =>
      rw [if_pos (by decide)] at hleft
      split at hleft
      · next kept hkept =>
        exact absurd hleft (hexisting kept (Option.filter_eq_some_iff.mp hkept).1)
      · simp only at hleft
        split_ifs at hleft
  | true =>
      rw [if_neg (by decide)] at hleft
      by_cases hactive : row.active = true
      · rw [if_pos hactive] at hleft
        cases hleft
      rw [if_neg hactive] at hleft
      rw [Bool.not_eq_true] at hactive
      split at hleft
      · next kept hkept =>
        exact absurd hleft (hexisting kept (Option.filter_eq_some_iff.mp hkept).1)
      · next hfilter =>
        refine ⟨rfl, hactive, ?_, ?_⟩
        · rintro rfl
          cases existing with
          | none => simp [hactive] at hskip
          | some kept =>
              refine ⟨kept, rfl, ?_⟩
              simpa using hfilter
        · rintro rfl kept rfl
          simpa using hlag

end

end

end GitHub

end CybexOS
