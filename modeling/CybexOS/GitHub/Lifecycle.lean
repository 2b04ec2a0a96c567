/-
Runs of the inbox: what the user has not settled stays, and what the user
settled comes back only for the user or for news.
-/
import CybexOS.GitHub.InboxSteps
import CybexOS.Runs

namespace CybexOS

namespace GitHub

open Json (JsValue)

inductive Call where
  | reconcile (source : JsValue) (rows : Option (List JsValue)) (noticedAt : JsValue)
  | settlement (key : JsValue) (settled : Bool) (at' : JsValue)
  | settleAll (at' : JsValue)
  | removeSources (start : JsValue)

def isUnsettled (items : Items) (key : Text) : Bool :=
  (items.lookup key).any fun row => row.lifecycle = .unsettled

/-- The inbox and, for each entity the user settled, the row that was settled. -/
structure Tracked where
  inbox : Inbox
  settledAs : Text → Option Row

section

variable (dateParse : Text → Option ℤ) (localeCompare : Text → Text → Ordering)

/-! ### Runs -/

def Call.exec (inbox : Inbox) : Call → Inbox
  | .reconcile source rows noticedAt =>
      (reconcileInboxSource dateParse localeCompare inbox source rows noticedAt).1
  | .settlement key settled at' =>
      { inbox with
        items := setInboxSettlement dateParse localeCompare inbox.items key settled at' }
  | .settleAll at' =>
      { inbox with items := settleAllInboxItems dateParse localeCompare inbox.items at' }
  | .removeSources start => removeInboxSources dateParse localeCompare inbox start

/-- The items an operation works on. -/
def Inbox.view (inbox : Inbox) : Items :=
  normalizeInboxItems dateParse localeCompare inbox.items.values

/-- The items after a page, before settled ones are pruned. -/
def Inbox.reconciled (inbox : Inbox) (source stamp : Text) (rows : List Row) : Items :=
  let revisions := normalizeSourceRevisions inbox.sourceRevisions
  (rows.foldl (reconcileRow dateParse source (decide (source ∈ Dict.keys revisions))
      ((revisions.lookup source).getD []) stamp)
    (withoutVanished source rows (inbox.view dateParse localeCompare), [])).1

/-- The row that the user settles under a key. -/
def Call.settles (inbox : Inbox) (call : Call) (key : Text) : Option Row :=
  let row := ((inbox.view dateParse localeCompare).lookup key).filter Row.canSettle
  match call with
  | .settlement keyValue true _ => if cleanText (some keyValue) 600 = key then row else none
  | .settleAll _ => row.filter fun row => row.lifecycle = .unsettled
  | _ => none

def Tracked.step (t : Tracked) (call : Call) : Tracked :=
  let next := call.exec dateParse localeCompare t.inbox
  { inbox := next
    settledAs := fun key =>
      if isUnsettled next.items key then none
      else (call.settles dateParse localeCompare t.inbox key).or (t.settledAs key) }

/-! ### The law -/

/-- The source of a page that can be reconciled, and its rows. -/
def Call.page : Call → Option (Text × List Row)
  | .reconcile sourceValue (some rows) _ =>
      let source := validInboxSource (some sourceValue)
      if source = [] then none else some (source, incomingRows dateParse source rows)
  | _ => none

def Call.incoming (call : Call) : List Row := (call.page dateParse).elim [] Prod.snd

/-- The user settles the item of a key, or all items. -/
def Call.UserSettles (call : Call) (key : Text) : Prop :=
  match call with
  | .settlement keyValue settled _ => settled = true ∧ cleanText (some keyValue) 600 = key
  | .settleAll _ => True
  | _ => False

def Call.UserUnsettles (call : Call) (key : Text) : Prop :=
  match call with
  | .settlement keyValue settled _ => settled = false ∧ cleanText (some keyValue) 600 = key
  | _ => False

/-- A row of the same source that differs from a snapshot and is not older, by
time and then by event revision. -/
structure News (was row : Row) : Prop where
  source : row.source = was.source
  differs : row.revision ≠ was.revision
  newer : lagging dateParse was.source was row = false

/-- What a call may do to unsettled items and to settled entities. -/
structure Lawful (t : Tracked) (call : Call) : Prop where
  stays : ∀ key, isUnsettled t.inbox.items key = true →
    isUnsettled (call.exec dateParse localeCompare t.inbox).items key = true ∨
      call.UserSettles key ∨ ∃ row ∈ call.incoming dateParse, row.key = key ∧ row.active = true
  wakes : ∀ key was, t.settledAs key = some was →
    isUnsettled (call.exec dateParse localeCompare t.inbox).items key = true →
      call.UserUnsettles key ∨ ∃ row ∈ call.incoming dateParse, row.key = key ∧
        News dateParse was row

/-! ### When it holds -/

/-- The snapshot that was settled is still kept, as settled. -/
def Inbox.Keeps (inbox : Inbox) (was : Row) (key : Text) : Prop :=
  ∃ kept, (inbox.view dateParse localeCompare).lookup key = some kept ∧
    kept.lifecycle = .settled ∧ kept.source = was.source ∧ kept.revision = was.revision ∧
      kept.at' = was.at'

/-- The row takes the branch that leaves it unsettled. -/
def Inbox.Wakes (inbox : Inbox) (source : Text) (row : Row) : Prop :=
  let revisions := normalizeSourceRevisions inbox.sourceRevisions
  let existing := (inbox.view dateParse localeCompare).lookup row.key
  let same := sameRevision ((revisions.lookup source).getD []) existing row
  source ∈ Dict.keys revisions ∧ row.active = false ∧
    (same = true → ∃ kept, existing = some kept ∧ kept.lifecycle = .active) ∧
    (same = false → ∀ kept, existing = some kept → lagging dateParse source kept row = false)

/-- A page whose rows are clean and belong to its source, and of which no row
but news wakes an entity whose settled snapshot is no longer kept. -/
structure Calm (t : Tracked) (call : Call) : Prop where
  rows : ∀ source rows, call.page dateParse = some (source, rows) → ∀ row ∈ rows,
    row.source = source ∧ row.Steady dateParse ∧
      ∀ kept, (t.inbox.view dateParse localeCompare).lookup row.key = some kept →
        kept.source = source
  news : ∀ source rows, call.page dateParse = some (source, rows) → ∀ row ∈ rows, ∀ was,
    t.settledAs row.key = some was → ¬ t.inbox.Keeps dateParse localeCompare was row.key →
      t.inbox.Wakes dateParse localeCompare source row → News dateParse was row

/-- A normal state in which no settled entity is unsettled. -/
structure Tracked.Normal (t : Tracked) : Prop where
  items : t.inbox.items.Normal dateParse
  settled : ∀ key was, t.settledAs key = some was → isUnsettled t.inbox.items key = false

variable {dateParse localeCompare}

/-! ### Unsettled items -/

theorem isUnsettled_iff {items : Items} {key : Text} :
    isUnsettled items key = true ↔
      ∃ row, items.lookup key = some row ∧ row.lifecycle = .unsettled := by
  unfold isUnsettled
  cases items.lookup key <;> simp

theorem isUnsettled_filter {items : Items} (hdistinct : (Dict.keys items).Nodup)
    {keep : Text × Row → Bool}
    (hkeep : ∀ item : Text × Row, item.2.lifecycle = .unsettled → keep item = true) (key : Text) :
    isUnsettled (items.filter keep) key = isUnsettled items key := by
  rw [Bool.eq_iff_iff, isUnsettled_iff, isUnsettled_iff]
  constructor
  · rintro ⟨row, hrow, hlifecycle⟩
    exact ⟨row, Dict.lookup_of_lookup_filter hdistinct hrow, hlifecycle⟩
  · rintro ⟨row, hrow, hlifecycle⟩
    exact ⟨row, Dict.lookup_filter_of_keep hdistinct hrow (hkeep (key, row) hlifecycle), hlifecycle⟩

theorem isUnsettled_prune {items : Items} (hdistinct : (Dict.keys items).Nodup) {limit : Nat}
    (key : Text) :
    isUnsettled (pruneSettledInbox dateParse localeCompare items limit) key =
      isUnsettled items key := by
  refine isUnsettled_filter hdistinct (fun item hitem => ?_) key
  exact decide_eq_true (Or.inl (by rw [hitem]; decide))

/-- Reading a normal state again settles and unsettles nothing. -/
theorem isUnsettled_view {inbox : Inbox} (h : inbox.items.Normal dateParse) (key : Text) :
    isUnsettled (inbox.view dateParse localeCompare) key = isUnsettled inbox.items key := by
  obtain ⟨-, hthere, hback⟩ := @normalizeInboxItems_spec dateParse localeCompare _ h
  rw [Bool.eq_iff_iff, isUnsettled_iff, isUnsettled_iff]
  constructor
  · rintro ⟨again, hagain, hlifecycle⟩
    obtain ⟨row, hrow, hsame⟩ := hback key again hagain
    exact ⟨row, hrow, hsame.lifecycle ▸ hlifecycle⟩
  · rintro ⟨row, hrow, hlifecycle⟩
    obtain ⟨again, hagain, hsame⟩ := hthere key row hrow (by rw [hlifecycle]; decide)
    exact ⟨again, hagain, hsame.lifecycle.trans hlifecycle⟩

theorem view_normal {inbox : Inbox} (h : inbox.items.Normal dateParse) :
    Items.Normal dateParse (inbox.view dateParse localeCompare) :=
  (normalizeInboxItems_spec h).1

/-! ### The user's calls -/

theorem removeSources_spec {inbox : Inbox} (h : inbox.items.Normal dateParse) (start : JsValue) :
    Items.Normal dateParse (Call.exec dateParse localeCompare inbox (.removeSources start)).items ∧
      ∀ key, isUnsettled (Call.exec dateParse localeCompare inbox (.removeSources start)).items key =
        isUnsettled inbox.items key := by
  have hview : Items.Normal dateParse (inbox.view dateParse localeCompare) := view_normal h
  refine ⟨hview.filter _, fun key => ?_⟩
  rw [← @isUnsettled_view dateParse localeCompare inbox h]
  refine isUnsettled_filter hview.distinct (fun item hitem => ?_) key
  simp [hitem]

theorem settlement_spec {inbox : Inbox} (h : inbox.items.Normal dateParse) (keyValue : JsValue)
    (settled : Bool) (at' : JsValue) :
    Items.Normal dateParse
      (Call.exec dateParse localeCompare inbox (.settlement keyValue settled at')).items ∧
    ∀ key, (isUnsettled
        (Call.exec dateParse localeCompare inbox (.settlement keyValue settled at')).items key =
          isUnsettled inbox.items key) ∨
      cleanText (some keyValue) 600 = key ∧ isUnsettled
        (Call.exec dateParse localeCompare inbox (.settlement keyValue settled at')).items key =
          !settled := by
  have hview : Items.Normal dateParse (inbox.view dateParse localeCompare) := view_normal h
  have hsame : ∀ key, isUnsettled (inbox.view dateParse localeCompare) key =
      isUnsettled inbox.items key := isUnsettled_view h
  unfold Inbox.view at hview hsame
  simp only [Call.exec, setInboxSettlement]
  generalize cleanText (some keyValue) 600 = clean
  cases hrow : ((normalizeInboxItems dateParse localeCompare inbox.items.values).lookup
      clean).filter Row.canSettle with
  | none => exact ⟨hview, fun key => Or.inl (hsame key)⟩
  | some row =>
      obtain ⟨hlookup, hsettle⟩ := Option.filter_eq_some_iff.mp hrow
      obtain ⟨rfl, hformed, hsteady⟩ := hview.row hlookup
      have hactive : row.active = false := by simpa [Row.canSettle] using hsettle
      have hlifecycle : (if settled then Lifecycle.settled else .unsettled) = .active ↔
          row.active = true := by
        rw [hactive]
        cases settled <;> decide
      have hnext := hview.set (hformed.withNotes hlifecycle row.noticedAt (if settled then
          orText (cleanStamp dateParse (some at')) (orText row.settledAt row.noticedAt) else []))
        (hsteady.withNotes _ _ _)
      refine ⟨hnext.filter _, fun key => ?_⟩
      simp only
      rw [isUnsettled_prune hnext.distinct]
      by_cases hasked : key = row.key
      · refine Or.inr ⟨hasked.symm, ?_⟩
        rw [isUnsettled, Dict.lookup_set, if_pos hasked]
        cases settled <;> rfl
      · refine Or.inl ?_
        rw [isUnsettled, Dict.lookup_set, if_neg hasked]
        exact hsame key

/-- A row settled with all others is the row, its notes apart. -/
theorem settleRow_eq (stamp : Text) {row : Row} (hformed : row.Formed) :
    ∃ lifecycle noticedAt settledAt, (lifecycle = .active ↔ row.active = true) ∧
      lifecycle ≠ .unsettled ∧ settleRow stamp row = { row with
        lifecycle := lifecycle, noticedAt := noticedAt, settledAt := settledAt } := by
  unfold settleRow
  have hlifecycle := hformed.lifecycle
  split_ifs with hsettle
  · have hactive : row.active = false := by simpa [Row.canSettle] using hsettle.1
    refine ⟨_, _, _, ?_, by decide, rfl⟩
    rw [hactive]
    decide
  · refine ⟨row.lifecycle, row.noticedAt, row.settledAt, hlifecycle, fun hunsettled => ?_, rfl⟩
    refine hsettle ⟨?_, hunsettled⟩
    rw [hunsettled] at hlifecycle
    simpa [Row.canSettle] using hlifecycle

theorem settleAll_spec {inbox : Inbox} (h : inbox.items.Normal dateParse) (at' : JsValue) :
    Items.Normal dateParse (Call.exec dateParse localeCompare inbox (.settleAll at')).items ∧
      ∀ key, isUnsettled (Call.exec dateParse localeCompare inbox (.settleAll at')).items key =
        false := by
  have hview : Items.Normal dateParse (inbox.view dateParse localeCompare) := view_normal h
  unfold Inbox.view at hview
  simp only [Call.exec, settleAllInboxItems]
  have hnext : Items.Normal dateParse
      ((normalizeInboxItems dateParse localeCompare inbox.items.values).map fun item =>
        (item.1, settleRow (cleanStamp dateParse (some at')) item.2)) := by
    refine ⟨?_, fun item hitem => ?_⟩
    · have hkeys : ∀ items : Items, Dict.keys (items.map fun item =>
          (item.1, settleRow (cleanStamp dateParse (some at')) item.2)) = Dict.keys items := by
        simp [Dict.keys]
      rw [hkeys]
      exact hview.distinct
    · obtain ⟨old, hold, rfl⟩ := List.mem_map.mp hitem
      obtain ⟨hkey, hformed, hsteady⟩ := hview.rows old hold
      obtain ⟨lifecycle, noticedAt, settledAt, hlifecycle, -, heq⟩ :=
        settleRow_eq (cleanStamp dateParse (some at')) hformed
      simp only [heq]
      exact ⟨hkey, hformed.withNotes hlifecycle _ _, hsteady.withNotes _ _ _⟩
  refine ⟨hnext.filter _, fun key => ?_⟩
  have hmap : ((normalizeInboxItems dateParse localeCompare inbox.items.values).map fun item =>
      (item.1, settleRow (cleanStamp dateParse (some at')) item.2)).lookup key =
        ((normalizeInboxItems dateParse localeCompare inbox.items.values).lookup key).map
          (settleRow (cleanStamp dateParse (some at'))) := Dict.lookup_map_item fun item => rfl
  rw [isUnsettled_prune hnext.distinct, isUnsettled, hmap]
  cases hlookup : (normalizeInboxItems dateParse localeCompare inbox.items.values).lookup key with
  | none => rfl
  | some row =>
      obtain ⟨-, hformed, -⟩ := hview.row hlookup
      obtain ⟨lifecycle, noticedAt, settledAt, -, hne, heq⟩ :=
        settleRow_eq (cleanStamp dateParse (some at')) hformed
      simp only [Option.map_some, heq, Option.any_some]
      exact decide_eq_false hne

/-! ### Pages -/

theorem exec_page {inbox : Inbox} {call : Call} {source : Text} {rows : List Row}
    (h : call.page dateParse = some (source, rows)) :
    (rows.map Row.key).Nodup ∧ (∀ row ∈ rows, row.Formed) ∧ ∃ stamp,
      (call.exec dateParse localeCompare inbox).items =
        pruneSettledInbox dateParse localeCompare
          (inbox.reconciled dateParse localeCompare source stamp rows) MAX_SETTLED_INBOX_ITEMS := by
  cases call with
  | reconcile sourceValue raws noticedAt =>
      cases raws with
      | none => cases h
      | some raws =>
          simp only [Call.page] at h
          by_cases hsource : validInboxSource (some sourceValue) = []
          · rw [if_pos hsource] at h
            cases h
          · rw [if_neg hsource, Option.some.injEq, Prod.mk.injEq] at h
            obtain ⟨rfl, rfl⟩ := h
            obtain ⟨hkeys, hmem⟩ := @newestEntityRows_spec dateParse
              (raws.filterMap (normalizeInboxSnapshot dateParse · (validInboxSource
                (some sourceValue))))
            refine ⟨hkeys, fun row hrow => ?_, cleanStamp dateParse (some noticedAt), ?_⟩
            · obtain ⟨raw, -, hraw⟩ := List.mem_filterMap.mp (hmem row hrow)
              exact normalizeInboxSnapshot_formed hraw
            · have hrows : (some raws).filter (fun _ => decide
                  (validInboxSource (some sourceValue) ≠ [])) = some raws := by
                rw [Option.filter_some, if_pos (decide_eq_true hsource)]
              simp only [Call.exec, reconcileInboxSource]
              rw [hrows]
              rfl
  | settlement _ _ _ => cases h
  | settleAll _ => cases h
  | removeSources _ => cases h

theorem exec_of_no_page {inbox : Inbox} {source noticedAt : JsValue} {rows : Option (List JsValue)}
    (h : Call.page dateParse (.reconcile source rows noticedAt) = none) :
    (Call.exec dateParse localeCompare inbox (.reconcile source rows noticedAt)).items =
      inbox.view dateParse localeCompare := by
  simp only [Call.exec, reconcileInboxSource]
  cases rows with
  | none => rfl
  | some rows =>
      by_cases hsource : validInboxSource (some source) = []
      · simp only [hsource, ne_eq, not_true_eq_false, decide_false, Option.filter_some,
          Bool.false_eq_true, if_false]
        rfl
      · simp only [Call.page, if_neg hsource] at h
        cases h

section

variable {inbox : Inbox} {source stamp : Text} {rows : List Row}

/-- Rows that the page is about are still there when it is reconciled. -/
theorem withoutVanished_lookup {items : Items} (hdistinct : (Dict.keys items).Nodup) {row : Row}
    (hrow : row ∈ rows) :
    (withoutVanished source rows items).lookup row.key = items.lookup row.key := by
  rw [withoutVanished, Dict.lookup_filter hdistinct]
  cases items.lookup row.key with
  | none => rfl
  | some kept =>
      rw [Option.filter_some, if_pos]
      have hmem : row.key ∈ rows.map Row.key := List.mem_map_of_mem hrow
      simp [hmem]

theorem reconciled_lookup (h : inbox.items.Normal dateParse) (hkeys : (rows.map Row.key).Nodup)
    {row : Row} (hrow : row ∈ rows) :
    (inbox.reconciled dateParse localeCompare source stamp rows).lookup row.key =
      outcome dateParse source
        (decide (source ∈ Dict.keys (normalizeSourceRevisions inbox.sourceRevisions)))
        (((normalizeSourceRevisions inbox.sourceRevisions).lookup source).getD []) stamp
        ((inbox.view dateParse localeCompare).lookup row.key) row := by
  have hview : Items.Normal dateParse (inbox.view dateParse localeCompare) := view_normal h
  unfold Inbox.reconciled
  simp only
  rw [(foldl_reconcileRow_lookup hkeys row.key).2 row hrow rfl]
  simp only
  rw [withoutVanished_lookup hview.distinct hrow]

theorem isUnsettled_reconciled_of_ne (h : inbox.items.Normal dateParse)
    (hkeys : (rows.map Row.key).Nodup) {key : Text} (hkey : ∀ row ∈ rows, row.key ≠ key) :
    isUnsettled (inbox.reconciled dateParse localeCompare source stamp rows) key =
      isUnsettled inbox.items key := by
  have hview : Items.Normal dateParse (inbox.view dateParse localeCompare) := view_normal h
  rw [← @isUnsettled_view dateParse localeCompare inbox h]
  have hvanished : isUnsettled (withoutVanished source rows (inbox.view dateParse localeCompare))
      key = isUnsettled (inbox.view dateParse localeCompare) key := by
    refine isUnsettled_filter hview.distinct (fun item hitem => ?_) key
    simp [hitem]
  rw [← hvanished]
  unfold isUnsettled Inbox.reconciled
  simp only
  rw [(foldl_reconcileRow_lookup hkeys key).1 hkey]

theorem reconciled_normal (h : inbox.items.Normal dateParse)
    (hrows : ∀ row ∈ rows, row.Formed ∧ row.Steady dateParse) :
    Items.Normal dateParse (inbox.reconciled dateParse localeCompare source stamp rows) := by
  have hview : Items.Normal dateParse (inbox.view dateParse localeCompare) := view_normal h
  exact foldl_reconcileRow_normal (hview.filter _) hrows

end

/-! ### One call -/

/-- Pages of clean rows leave a normal state, and so does every other call. -/
theorem exec_normal {inbox : Inbox} {call : Call} (h : inbox.items.Normal dateParse)
    (hsteady : ∀ row ∈ call.incoming dateParse, row.Steady dateParse) :
    Items.Normal dateParse (call.exec dateParse localeCompare inbox).items := by
  cases hpage : call.page dateParse with
  | some page =>
      obtain ⟨source, rows⟩ := page
      have hincoming : call.incoming dateParse = rows := by
        rw [Call.incoming, hpage]
        rfl
      obtain ⟨-, hformed, stamp, hitems⟩ := @exec_page dateParse localeCompare inbox _ _ _ hpage
      rw [hitems]
      refine Items.Normal.filter (reconciled_normal h fun row hrow => ?_) _
      exact ⟨hformed row hrow, hsteady row (hincoming.symm ▸ hrow)⟩
  | none =>
      cases call with
      | reconcile source rows noticedAt =>
          rw [exec_of_no_page hpage]
          exact view_normal h
      | settlement key settled at' => exact (settlement_spec h key settled at').1
      | settleAll at' => exact (settleAll_spec h at').1
      | removeSources start => exact (removeSources_spec h start).1

theorem Calm.steady {t : Tracked} {call : Call} (hcalm : Calm dateParse localeCompare t call) :
    ∀ row ∈ call.incoming dateParse, row.Steady dateParse := by
  intro row hrow
  unfold Call.incoming at hrow
  cases hpage : call.page dateParse with
  | none =>
      rw [hpage] at hrow
      cases hrow
  | some page =>
      rw [hpage] at hrow
      exact (hcalm.rows page.1 page.2 hpage row hrow).2.1

theorem Tracked.Normal.step {t : Tracked} {call : Call} (h : t.Normal dateParse)
    (hcalm : Calm dateParse localeCompare t call) :
    Tracked.Normal dateParse (t.step dateParse localeCompare call) := by
  constructor
  · exact exec_normal h.items hcalm.steady
  · intro key was hwas
    simp only [Tracked.step] at hwas ⊢
    split_ifs at hwas with hunsettled
    exact Bool.eq_false_iff.mpr hunsettled

/-- The items a calm page leaves, before and after pruning. -/
theorem Calm.page {t : Tracked} {call : Call} (h : t.Normal dateParse)
    (hcalm : Calm dateParse localeCompare t call) {source : Text} {rows : List Row}
    (hpage : call.page dateParse = some (source, rows)) :
    (rows.map Row.key).Nodup ∧ call.incoming dateParse = rows ∧ ∃ stamp, ∀ key,
      isUnsettled (call.exec dateParse localeCompare t.inbox).items key =
        isUnsettled (t.inbox.reconciled dateParse localeCompare source stamp rows) key := by
  obtain ⟨hkeys, hformed, stamp, hitems⟩ := @exec_page dateParse localeCompare t.inbox _ _ _ hpage
  have hnormal : Items.Normal dateParse
      (t.inbox.reconciled dateParse localeCompare source stamp rows) :=
    reconciled_normal h.items fun row hrow =>
      ⟨hformed row hrow, (hcalm.rows source rows hpage row hrow).2.1⟩
  refine ⟨hkeys, ?_, stamp, fun key => ?_⟩
  · rw [Call.incoming, hpage]
    rfl
  · rw [hitems, isUnsettled_prune hnormal.distinct]

theorem Calm.stays {t : Tracked} {call : Call} (h : t.Normal dateParse)
    (hcalm : Calm dateParse localeCompare t call) {key : Text}
    (hkey : isUnsettled t.inbox.items key = true) :
    isUnsettled (call.exec dateParse localeCompare t.inbox).items key = true ∨
      call.UserSettles key ∨
        ∃ row ∈ call.incoming dateParse, row.key = key ∧ row.active = true := by
  cases hpage : call.page dateParse with
  | some page =>
      obtain ⟨source, rows⟩ := page
      obtain ⟨hkeys, hincoming, stamp, hunsettled⟩ := hcalm.page h hpage
      rw [hunsettled, hincoming]
      by_cases hrow : ∃ row ∈ rows, row.key = key
      · obtain ⟨row, hmem, rfl⟩ := hrow
        by_cases hactive : row.active = true
        · exact Or.inr (Or.inr ⟨row, hmem, rfl, hactive⟩)
        · refine Or.inl (isUnsettled_iff.mpr ?_)
          rw [← @isUnsettled_view dateParse localeCompare _ h.items, isUnsettled_iff] at hkey
          obtain ⟨existing, hexisting, hlifecycle⟩ := hkey
          rw [reconciled_lookup h.items hkeys hmem, hexisting]
          exact outcome_stays hlifecycle (Bool.not_eq_true _ ▸ hactive)
      · refine Or.inl ?_
        rw [isUnsettled_reconciled_of_ne h.items hkeys fun row hmem heq => hrow ⟨row, hmem, heq⟩]
        exact hkey
  | none =>
      cases call with
      | reconcile source rows noticedAt =>
          rw [exec_of_no_page hpage, isUnsettled_view h.items]
          exact Or.inl hkey
      | settlement keyValue settled at' =>
          rcases (settlement_spec h.items keyValue settled at').2 key with hsame | ⟨hclean, hset⟩
          · rw [hsame]
            exact Or.inl hkey
          · rw [hset]
            cases settled with
            | true => exact Or.inr (Or.inl ⟨rfl, hclean⟩)
            | false => exact Or.inl rfl
      | settleAll at' => exact Or.inr (Or.inl trivial)
      | removeSources start =>
          rw [(removeSources_spec h.items start).2]
          exact Or.inl hkey

theorem Calm.wakes {t : Tracked} {call : Call} (h : t.Normal dateParse)
    (hcalm : Calm dateParse localeCompare t call) {key : Text} {was : Row}
    (hwas : t.settledAs key = some was)
    (hkey : isUnsettled (call.exec dateParse localeCompare t.inbox).items key = true) :
    call.UserUnsettles key ∨
      ∃ row ∈ call.incoming dateParse, row.key = key ∧ News dateParse was row := by
  have hbefore := h.settled key was hwas
  cases hpage : call.page dateParse with
  | some page =>
      obtain ⟨source, rows⟩ := page
      obtain ⟨hkeys, hincoming, stamp, hunsettled⟩ := hcalm.page h hpage
      rw [hunsettled] at hkey
      rw [hincoming]
      by_cases hrow : ∃ row ∈ rows, row.key = key
      · obtain ⟨row, hmem, rfl⟩ := hrow
        refine Or.inr ⟨row, hmem, rfl, ?_⟩
        obtain ⟨hsource, -, hkept⟩ := hcalm.rows source rows hpage row hmem
        obtain ⟨left, hleft, hlifecycle⟩ := isUnsettled_iff.mp hkey
        rw [reconciled_lookup h.items hkeys hmem] at hleft
        rw [← @isUnsettled_view dateParse localeCompare _ h.items] at hbefore
        have hexisting : ∀ kept, (t.inbox.view dateParse localeCompare).lookup row.key = some kept →
            kept.lifecycle ≠ .unsettled := by
          intro kept hlookup hunsettled
          exact Bool.eq_false_iff.mp hbefore (isUnsettled_iff.mpr ⟨kept, hlookup, hunsettled⟩)
        obtain ⟨hknown, hactive, hsame, hlag⟩ := outcome_wakes hexisting hleft hlifecycle
        by_cases hkeeps : t.inbox.Keeps dateParse localeCompare was row.key
        · -- the kept snapshot is the one that was settled, and the code compares with it
          obtain ⟨kept, hlookup, hsettled, hfrom, hrevision, hat⟩ := hkeeps
          rw [hlookup] at hsame hlag
          have hdiffers : sameRevision (((normalizeSourceRevisions
              t.inbox.sourceRevisions).lookup source).getD []) (some kept) row = false := by
            refine Bool.eq_false_iff.mpr fun htrue => ?_
            obtain ⟨other, hother, hlive⟩ := hsame htrue
            rw [← Option.some.inj hother, hsettled] at hlive
            cases hlive
          have holder := hlag hdiffers kept rfl
          rw [sameRevision, Bool.or_eq_false_iff, Option.any_some, decide_eq_false_iff_not,
            hrevision] at hdiffers
          refine ⟨?_, Ne.symm (of_decide_eq_false hdiffers.2), ?_⟩
          · rw [hsource, ← hkept kept hlookup, hfrom]
          · rw [← hfrom, hkept kept hlookup]
            unfold lagging atMs at holder ⊢
            rw [← hat, ← hrevision]
            exact holder
        · exact hcalm.news source rows hpage row hmem was hwas hkeeps
            ⟨of_decide_eq_true hknown, hactive, hsame, hlag⟩
      · rw [isUnsettled_reconciled_of_ne h.items hkeys
          fun row hmem heq => hrow ⟨row, hmem, heq⟩, hbefore] at hkey
        cases hkey
  | none =>
      cases call with
      | reconcile source rows noticedAt =>
          rw [exec_of_no_page hpage, isUnsettled_view h.items, hbefore] at hkey
          cases hkey
      | settlement keyValue settled at' =>
          rcases (settlement_spec h.items keyValue settled at').2 key with hsame | ⟨hclean, hset⟩
          · rw [hsame, hbefore] at hkey
            cases hkey
          · refine Or.inl ⟨?_, hclean⟩
            rw [hset] at hkey
            simpa using hkey
      | settleAll at' =>
          rw [(settleAll_spec h.items at').2] at hkey
          cases hkey
      | removeSources start =>
          rw [(removeSources_spec h.items start).2, hbefore] at hkey
          cases hkey

/-- In a run of calm calls the inbox keeps the law at every call. -/
theorem inbox_runs_lawful {t : Tracked} (h : t.Normal dateParse) {calls : List Call}
    (hcalm : EachStep (Tracked.step dateParse localeCompare) (Calm dateParse localeCompare) t
      calls) :
    EachStep (Tracked.step dateParse localeCompare) (Lawful dateParse localeCompare) t calls := by
  refine EachStep.of_invariant (fun t call h hcalm => h.step hcalm) (fun t call h hcalm => ?_) h
    hcalm
  exact ⟨fun key hkey => hcalm.stays h hkey, fun key was hwas hkey => hcalm.wakes h hwas hkey⟩

end

/-! ### A settled row that is pruned -/

def DAY_1 : Text := ascii "2026-01-01T00:00:00Z"

def DAY_2 : Text := ascii "2026-01-02T00:00:00Z"

def DAY_3 : Text := ascii "2026-01-03T00:00:00Z"

/-- `Date.parse` on these three days. -/
def parseDay (text : Text) : Option ℤ :=
  if text = DAY_1 then some 1767225600000
  else if text = DAY_2 then some 1767312000000
  else if text = DAY_3 then some 1767398400000
  else none

def order (a b : Text) : Ordering := if a < b then .lt else if a = b then .eq else .gt

def issueKey (number : Nat) : Text := ascii "issue:o/r:" ++ digitsOf number

/-- A page's row about an issue. -/
def issueRaw (number : Nat) (revision at' : Text) : JsValue :=
  .obj [(ascii "key", .str (issueKey number)), (ascii "revision", .str revision),
    (ascii "kind", .str (ascii "issue")), (ascii "repo", .str (ascii "o/r")),
    (ascii "at", .str at')]

def issueRow (number : Nat) (lifecycle : Lifecycle) (settledAt : Text) : Row :=
  { key := issueKey number
    revision := ascii "2"
    source := ascii "events:o/r"
    kind := ascii "issue"
    repo := ascii "o/r"
    title := ascii "GitHub update"
    detail := []
    status := []
    conclusion := []
    active := false
    attention := false
    tone := ascii "muted"
    lifecycle := lifecycle
    noticedAt := []
    settledAt := settledAt
    at' := DAY_2
    url := ascii "https://github.com/o/r"
    actor := []
    number := .ofRat 0
    branch := []
    event := []
    runId := []
    attempt := .ofRat 1
    createdAt := []
    startedAt := []
    reason := []
    subjectType := []
    security := false
    githubUnread := true
    ref := []
    refType := []
    eventType := [] }

/-- Thirty settled issues and one that is not. -/
def crowded : Tracked :=
  { inbox :=
      { items := (List.range 30).map (fun number =>
            (issueKey number, issueRow number .settled DAY_3)) ++
          [(issueKey 99, issueRow 99 .unsettled [])]
        sourceRevisions := [(ascii "events:o/r", [(issueKey 99, ascii "2")])] }
    settledAs := fun _ => none }

def settleIt : Call := .settlement (.str (issueKey 99)) true (.str DAY_2)

/-- A page with an older event of the issue. -/
def laggingPage : Call :=
  .reconcile (.str (ascii "events:o/r")) (some [issueRaw 99 (ascii "1") DAY_1]) (.str DAY_3)

theorem issueRow_formed (number : Nat) {lifecycle : Lifecycle} (hlifecycle : lifecycle ≠ .active)
    (settledAt : Text) : (issueRow number lifecycle settledAt).Formed := by
  have hprefixed : keyPrefixed (issueKey number) = true := by
    unfold keyPrefixed issueKey
    rw [List.any_eq_true]
    exact ⟨ascii "issue:", by decide, by simp [ascii]⟩
  refine ⟨⟨?_, hprefixed⟩, (by decide : ascii "2" ≠ []), (by decide : ascii "issue" ∈ INBOX_KINDS),
    (by decide : ascii "o/r" ≠ []), (by decide : ascii "events:o/r" ≠ []), ?_, ?_⟩
  · simp [issueRow, issueKey, ascii]
  · intro hactive
    cases hactive
  · exact iff_of_false hlifecycle (by decide : ¬ false = true)

theorem issueRow_steady {number : Nat} (lifecycle : Lifecycle) (settledAt : Text)
    (hkey : cleanText (some (.str (issueKey number))) 600 = issueKey number) :
    (issueRow number lifecycle settledAt).Steady parseDay where
  key := hkey
  revision := (by decide : cleanText (some (.str (ascii "2"))) 600 = ascii "2")
  repo := (by decide +kernel : repoSlug (some (.str (ascii "o/r"))) = ascii "o/r")
  source := (by decide +kernel :
    validInboxSource (some (.str (ascii "events:o/r"))) = ascii "events:o/r")
  at' := (by decide +kernel : cleanStamp parseDay (some (.str DAY_2)) = DAY_2)

theorem crowded_normal : crowded.Normal parseDay := by
  have hkeys : ∀ number ∈ 99 :: List.range 30,
      cleanText (some (.str (issueKey number))) 600 = issueKey number := by
    decide +kernel
  refine ⟨⟨by decide +kernel, fun item hitem => ?_⟩, fun key was hwas => by cases hwas⟩
  rcases List.mem_append.mp hitem with hitem | hitem
  · obtain ⟨number, hnumber, rfl⟩ := List.mem_map.mp hitem
    exact ⟨rfl, issueRow_formed number (by decide) _,
      issueRow_steady _ _ (hkeys number (List.mem_cons_of_mem _ hnumber))⟩
  · rw [List.mem_singleton.mp hitem]
    exact ⟨rfl, issueRow_formed 99 (by decide) _, issueRow_steady _ _ (hkeys 99 List.mem_cons_self)⟩

/-- The issue the user settled is pruned, and the older event brings it back. -/
theorem laggingPage_wakes_pruned : crowded.Normal parseDay ∧
    ¬ EachStep (Tracked.step parseDay order) (Lawful parseDay order) crowded
      [settleIt, laggingPage] := by
  refine ⟨crowded_normal, fun hlawful => ?_⟩
  have hwoken : isUnsettled (laggingPage.exec parseDay order
      (crowded.step parseDay order settleIt).inbox).items (issueKey 99) = true := by
    decide +kernel
  have holder : ((crowded.step parseDay order settleIt).settledAs (issueKey 99)).any (fun was =>
      (laggingPage.incoming parseDay).all fun row => lagging parseDay was.source was row) =
        true := by
    decide +kernel
  rw [Option.any_eq_true] at holder
  obtain ⟨was, hwas, hrows⟩ := holder
  rcases hlawful.2.1.wakes _ was hwas hwoken with huser | ⟨row, hrow, -, hnews⟩
  · exact huser
  · have hlag := List.all_eq_true.mp hrows row hrow
    rw [hnews.newer] at hlag
    cases hlag

/-- One issue, where there is room. -/
def roomy : Tracked :=
  { inbox :=
      { items := [(issueKey 99, issueRow 99 .unsettled [])]
        sourceRevisions := [(ascii "events:o/r", [(issueKey 99, ascii "2")])] }
    settledAs := fun _ => none }

/-- A page with a newer event of the issue. -/
def newsPage : Call :=
  .reconcile (.str (ascii "events:o/r")) (some [issueRaw 99 (ascii "3") DAY_3]) (.str DAY_3)

def newsRow : Row := { issueRow 99 .unsettled [] with revision := ascii "3", at' := DAY_3 }

theorem newsPage_page : newsPage.page parseDay = some (ascii "events:o/r", [newsRow]) := by
  decide +kernel

theorem newsRow_steady : newsRow.Steady parseDay where
  key := (by decide +kernel : cleanText (some (.str (issueKey 99))) 600 = issueKey 99)
  revision := (by decide : cleanText (some (.str (ascii "3"))) 600 = ascii "3")
  repo := (by decide +kernel : repoSlug (some (.str (ascii "o/r"))) = ascii "o/r")
  source := (by decide +kernel :
    validInboxSource (some (.str (ascii "events:o/r"))) = ascii "events:o/r")
  at' := (by decide +kernel : cleanStamp parseDay (some (.str DAY_3)) = DAY_3)

/-- Settling the issue and news of it are calm. -/
theorem inbox_runs_lawful_news :
    EachStep (Tracked.step parseDay order) (Lawful parseDay order) roomy [settleIt, newsPage] := by
  have hkey : cleanText (some (.str (issueKey 99))) 600 = issueKey 99 := by decide +kernel
  have hnormal : roomy.Normal parseDay := by
    refine ⟨⟨by decide +kernel, fun item hitem => ?_⟩, fun key was hwas => by cases hwas⟩
    rw [List.mem_singleton.mp hitem]
    exact ⟨rfl, issueRow_formed 99 (by decide) _, issueRow_steady _ _ hkey⟩
  refine inbox_runs_lawful hnormal ⟨⟨?_, ?_⟩, ⟨?_, ?_⟩, trivial⟩
  · intro source rows hpage
    cases hpage
  · intro source rows hpage
    cases hpage
  · intro source rows hpage row hrow
    rw [newsPage_page] at hpage
    obtain ⟨rfl, rfl⟩ := Prod.mk.inj (Option.some.inj hpage)
    obtain rfl := List.mem_singleton.mp hrow
    have hkept : (((roomy.step parseDay order settleIt).inbox.view parseDay order).lookup
        newsRow.key).all (fun kept => kept.source = ascii "events:o/r") = true := by
      decide +kernel
    refine ⟨rfl, newsRow_steady, fun kept hlookup => ?_⟩
    rw [hlookup] at hkept
    exact of_decide_eq_true hkept
  · intro source rows hpage row hrow was hwas _ _
    rw [newsPage_page] at hpage
    obtain ⟨rfl, rfl⟩ := Prod.mk.inj (Option.some.inj hpage)
    obtain rfl := List.mem_singleton.mp hrow
    have hnews : ((roomy.step parseDay order settleIt).settledAs newsRow.key).all (fun was =>
        newsRow.source = was.source && newsRow.revision ≠ was.revision &&
          !lagging parseDay was.source was newsRow) = true := by
      decide +kernel
    rw [hwas] at hnews
    simp only [Option.all_some, Bool.and_eq_true, decide_eq_true_eq, Bool.not_eq_true'] at hnews
    exact ⟨hnews.1.1, hnews.1.2, hnews.2⟩

end GitHub

end CybexOS
