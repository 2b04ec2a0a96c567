/-
Baselines of inbox sources: a source is baselined once, as long as the sources
fit into what normalising keeps of them.
-/
import CybexOS.GitHub.Lifecycle

namespace CybexOS

namespace GitHub

open Json (JsValue)

/-- The inbox, the sources reconciled since the start or since they were last
removed, and all keys seen so far. -/
structure Watched where
  inbox : Inbox
  reconciled : List Text
  seen : List Text

section

variable (dateParse : Text → Option ℤ) (localeCompare : Text → Text → Ordering)

/-- The flag that the call returns. -/
def Call.baseline (inbox : Inbox) : Call → Bool
  | .reconcile source rows noticedAt =>
      (reconcileInboxSource dateParse localeCompare inbox source rows noticedAt).2
  | _ => false

def Watched.step (w : Watched) (call : Call) : Watched :=
  { inbox := call.exec dateParse localeCompare w.inbox
    reconciled := match call, call.page dateParse with
      | .removeSources start, _ =>
          w.reconciled.filter fun source => !(wantedPrefix start).isPrefixOf source
      | _, some (source, _) => source :: w.reconciled
      | _, none => w.reconciled
    seen := (call.incoming dateParse).map Row.key ++ w.seen }

/-- A source is baselined only if it has not been reconciled, and afterwards
terminal rows with new keys arrive unsettled. -/
structure BaselinedOnce (w : Watched) (call : Call) : Prop where
  once : ∀ source rows, call.page dateParse = some (source, rows) →
    call.baseline dateParse localeCompare w.inbox = true → source ∉ w.reconciled
  arrives : ∀ source rows, call.page dateParse = some (source, rows) → source ∈ w.reconciled →
    ∀ row ∈ rows, row.active = false → row.key ∉ w.seen →
      isUnsettled (call.exec dateParse localeCompare w.inbox).items row.key = true

/-- A page of a source that normalising leaves as it is and still has room for. -/
structure Fits (w : Watched) (call : Call) : Prop where
  rows : ∀ row ∈ call.incoming dateParse, row.Steady dateParse
  source : ∀ source rows, call.page dateParse = some (source, rows) →
    validInboxSource (some (.str source)) = source ∧
      (source ∈ Dict.keys w.inbox.sourceRevisions ∨
        w.inbox.sourceRevisions.length < MAX_INBOX_SOURCES)

/-- Sources that normalising leaves as they are, with seen keys only. -/
structure Tidy (seen : List Text) (revisions : List (Text × Revisions)) : Prop where
  distinct : (Dict.keys revisions).Nodup
  length : revisions.length ≤ MAX_INBOX_SOURCES
  sources : ∀ item ∈ revisions, validInboxSource (some (.str item.1)) = item.1 ∧ item.1 ≠ []
  keys : ∀ item ∈ revisions, ∀ key ∈ Dict.keys item.2,
    cleanText (some (.str key)) 600 = key ∧ key ∈ seen

/-- A normal state whose keys have all been seen. -/
structure Watched.Normal (w : Watched) : Prop where
  items : w.inbox.items.Normal dateParse
  seen : ∀ key ∈ Dict.keys w.inbox.items, key ∈ w.seen
  tidy : Tidy w.seen w.inbox.sourceRevisions
  known : ∀ source ∈ w.reconciled, source ∈ Dict.keys w.inbox.sourceRevisions

variable {dateParse localeCompare}

/-! ### Revision maps -/

theorem mem_keys_assign {object : Revisions} {key value asked : Text}
    (h : asked ∈ Dict.keys (assign object key value)) : asked = key ∨ asked ∈ Dict.keys object := by
  unfold assign at h
  split_ifs at h with hprototype
  · exact Or.inr h
  · obtain ⟨item, hitem, rfl⟩ := List.mem_map.mp h
    have hset : item ∈ Dict.set object key value := by
      rcases List.mem_append.mp hitem with hleft | hright
      · rw [List.mem_insertionSort] at hleft
        exact (List.mem_filter.mp hleft).1
      · exact (List.mem_filter.mp hright).1
    exact Dict.mem_keys_set.mp (List.mem_map_of_mem hset)

/-- What each step of a loop may add to the keys, the loop may add. -/
theorem mem_keys_foldl {α : Type} {step : Revisions → α → Revisions} (name : α → Text)
    (hstep : ∀ out item, ∀ key ∈ Dict.keys (step out item), key = name item ∨ key ∈ Dict.keys out)
    {items : List α} {out : Revisions} {key : Text} (h : key ∈ Dict.keys (items.foldl step out)) :
    key ∈ Dict.keys out ∨ ∃ item ∈ items, key = name item := by
  induction items generalizing out with
  | nil => exact Or.inl h
  | cons item items ih =>
      rcases ih h with hnext | ⟨other, hother, rfl⟩
      · rcases hstep out item key hnext with rfl | hold
        · exact Or.inr ⟨item, List.mem_cons_self, rfl⟩
        · exact Or.inl hold
      · exact Or.inr ⟨other, List.mem_cons_of_mem _ hother, rfl⟩

theorem mem_keys_sourceRevisionMap {oldMap incoming : Revisions} {items : Items}
    {source key : Text} (h : key ∈ Dict.keys (sourceRevisionMap oldMap incoming items source)) :
    key ∈ Dict.keys incoming ∨ key ∈ Dict.keys items ∨ key ∈ Dict.keys oldMap := by
  unfold sourceRevisionMap at h
  refine Or.elim (mem_keys_foldl id (fun out asked key hkey => ?_) h) (fun hnil => ?_)
    fun hasked => ?_
  · split_ifs at hkey with hskip
    · exact Or.inr hkey
    · split at hkey
      · split_ifs at hkey with hempty
        · exact Or.inr hkey
        · exact mem_keys_assign hkey
      · exact Or.inr hkey
  · cases hnil
  · obtain ⟨asked, hasked, rfl⟩ := hasked
    rcases List.mem_append.mp hasked with hboth | hold
    · rcases List.mem_append.mp hboth with hnew | hitem
      · exact Or.inl hnew
      · obtain ⟨item, hmem, rfl⟩ := List.mem_map.mp hitem
        exact Or.inr (Or.inl (List.mem_map_of_mem (List.mem_filter.mp hmem).1))
    · exact Or.inr (Or.inr hold)

/-- The revisions of one source as normalising leaves them. -/
def cleanRevisions (entries : Revisions) : Revisions :=
  (entries.take MAX_SOURCE_REVISIONS).foldl (fun revisions entry =>
    let revision := cleanText (some (.str entry.2)) 600
    if revision = [] then revisions
    else assign revisions (cleanText (some (.str entry.1)) 600) revision) []

theorem mem_keys_cleanRevisions {entries : Revisions} {key : Text}
    (hentries : ∀ key ∈ Dict.keys entries, cleanText (some (.str key)) 600 = key)
    (h : key ∈ Dict.keys (cleanRevisions entries)) : key ∈ Dict.keys entries := by
  unfold cleanRevisions at h
  have hstep : ∀ (out : Revisions) (entry : Text × Text), ∀ key ∈ Dict.keys
      (let revision := cleanText (some (.str entry.2)) 600
      if revision = [] then out
      else assign out (cleanText (some (.str entry.1)) 600) revision),
      key = cleanText (some (.str entry.1)) 600 ∨ key ∈ Dict.keys out := by
    intro out entry key hkey
    simp only at hkey
    split_ifs at hkey with hempty
    · exact Or.inr hkey
    · exact mem_keys_assign hkey
  rcases mem_keys_foldl (fun entry : Text × Text => cleanText (some (.str entry.1)) 600) hstep h
    with hnil | ⟨entry, hentry, rfl⟩
  · cases hnil
  · have hmem : entry.1 ∈ Dict.keys entries :=
      List.mem_map_of_mem ((List.take_sublist _ _).subset hentry)
    rw [hentries _ hmem]
    exact hmem

/-- Distinct stable sources are read back in their order. -/
theorem foldl_cleanRevisions {items done : List (Text × Revisions)}
    (hsources : ∀ item ∈ items, validInboxSource (some (.str item.1)) = item.1 ∧ item.1 ≠ [])
    (hdistinct : (Dict.keys (done ++ items)).Nodup) :
    items.foldl (fun out item =>
      let source := validInboxSource (some (.str item.1))
      if source = [] then out else Dict.set out source (cleanRevisions item.2)) done =
      done ++ items.map fun item => (item.1, cleanRevisions item.2) := by
  induction items generalizing done with
  | nil => simp
  | cons item items ih =>
      obtain ⟨hvalid, hsource⟩ := hsources item List.mem_cons_self
      have hkeys : ∀ revisions : Revisions, Dict.keys ((done ++ [(item.1, revisions)]) ++ items) =
          Dict.keys (done ++ item :: items) := by
        simp [Dict.keys]
      have hnew : item.1 ∉ Dict.keys done := by
        intro hmem
        have hsplit : Dict.keys (done ++ item :: items) =
            Dict.keys done ++ item.1 :: Dict.keys items := by
          simp [Dict.keys]
        rw [hsplit, List.nodup_append] at hdistinct
        exact hdistinct.2.2 _ hmem _ List.mem_cons_self rfl
      rw [List.foldl_cons]
      simp only [hvalid, if_neg hsource]
      rw [Dict.set_new hnew, ih (fun other hother => hsources other (List.mem_cons_of_mem _ hother))
        (by rw [hkeys]; exact hdistinct), List.map_cons, List.append_assoc, List.singleton_append]

section

variable {seen : List Text} {revisions : List (Text × Revisions)}

/-- Normalising a tidy map keeps all its sources. -/
theorem Tidy.normalize_eq (h : Tidy seen revisions) : normalizeSourceRevisions revisions =
    revisions.map fun item => (item.1, cleanRevisions item.2) := by
  have hfold := @foldl_cleanRevisions revisions [] h.sources (by simpa using h.distinct)
  rw [List.nil_append] at hfold
  rw [normalizeSourceRevisions, List.take_of_length_le h.length]
  exact hfold

theorem Tidy.keys_normalize (h : Tidy seen revisions) :
    Dict.keys (normalizeSourceRevisions revisions) = Dict.keys revisions := by
  rw [h.normalize_eq]
  simp [Dict.keys]

theorem Tidy.normalize (h : Tidy seen revisions) :
    Tidy seen (normalizeSourceRevisions revisions) := by
  have hkeys := h.keys_normalize
  refine ⟨?_, ?_, fun item hitem => ?_, fun item hitem key hkey => ?_⟩
  · rw [hkeys]
    exact h.distinct
  · rw [h.normalize_eq, List.length_map]
    exact h.length
  · rw [h.normalize_eq] at hitem
    obtain ⟨old, hold, rfl⟩ := List.mem_map.mp hitem
    exact h.sources old hold
  · rw [h.normalize_eq] at hitem
    obtain ⟨old, hold, rfl⟩ := List.mem_map.mp hitem
    exact h.keys old hold key
      (mem_keys_cleanRevisions (fun key hkey => (h.keys old hold key hkey).1) hkey)

theorem Tidy.mono {more : List Text} (h : Tidy seen revisions) (hmore : ∀ key ∈ seen, key ∈ more) :
    Tidy more revisions :=
  ⟨h.distinct, h.length, h.sources, fun item hitem key hkey =>
    ⟨(h.keys item hitem key hkey).1, hmore key (h.keys item hitem key hkey).2⟩⟩

theorem Tidy.filter (h : Tidy seen revisions) (keep : Text × Revisions → Bool) :
    Tidy seen (revisions.filter keep) :=
  ⟨Dict.nodup_filter h.distinct keep, (List.length_filter_le _ _).trans h.length,
    fun item hitem => h.sources item (List.mem_filter.mp hitem).1,
    fun item hitem => h.keys item (List.mem_filter.mp hitem).1⟩

/-- The keys of the old revisions of a source have been seen. -/
theorem Tidy.seen_of_lookup (h : Tidy seen revisions) {source key : Text}
    (hkey : key ∈ Dict.keys ((revisions.lookup source).getD [])) :
    cleanText (some (.str key)) 600 = key ∧ key ∈ seen := by
  cases hlookup : revisions.lookup source with
  | none =>
      rw [hlookup] at hkey
      cases hkey
  | some entries =>
      rw [hlookup] at hkey
      exact h.keys _ (Dict.mem_of_lookup hlookup) key hkey

/-- A source that is known, or for which there is room, is added. -/
theorem Tidy.set (h : Tidy seen revisions) {source : Text} {entries : Revisions}
    (hvalid : validInboxSource (some (.str source)) = source) (hsource : source ≠ [])
    (hroom : source ∈ Dict.keys revisions ∨ revisions.length < MAX_INBOX_SOURCES)
    (hentries : ∀ key ∈ Dict.keys entries, cleanText (some (.str key)) 600 = key ∧ key ∈ seen) :
    Tidy seen (Dict.set revisions source entries) := by
  refine ⟨Dict.nodup_set h.distinct, ?_, fun item hitem => ?_, fun item hitem => ?_⟩
  · have hlength : ∀ d : List (Text × Revisions), d.length = (Dict.keys d).length := by
      simp [Dict.keys]
    have hbound := h.length
    rw [hlength, Dict.keys_set]
    split_ifs with hmem
    · rw [← hlength]
      exact hbound
    · rw [List.length_append, ← hlength, List.length_singleton]
      exact hroom.resolve_left hmem
  · rcases Dict.mem_of_mem_set hitem with rfl | hold
    · exact ⟨hvalid, hsource⟩
    · exact h.sources item hold
  · rcases Dict.mem_of_mem_set hitem with rfl | hold
    · exact hentries
    · exact h.keys item hold

end

/-! ### One call -/

theorem keys_foldl_reconcileRow {source stamp : Text} {known : Bool} {oldMap : Revisions}
    {rows : List Row} {state : Items × Revisions} :
    Dict.keys (rows.foldl (reconcileRow dateParse source known oldMap stamp) state).2 =
      Dict.keys state.2 ++ rows.map Row.key := by
  induction rows generalizing state with
  | nil => simp
  | cons row rows ih =>
      have hrow : Dict.keys (reconcileRow dateParse source known oldMap stamp state row).2 =
          Dict.keys state.2 ++ [row.key] := by
        unfold reconcileRow
        simp only
        split <;> simp [Dict.keys]
      rw [List.foldl_cons, ih, hrow, List.append_assoc, List.map_cons, List.singleton_append]

theorem mem_keys_view {inbox : Inbox} (h : inbox.items.Normal dateParse) {key : Text}
    (hkey : key ∈ Dict.keys (inbox.view dateParse localeCompare)) :
    key ∈ Dict.keys inbox.items := by
  obtain ⟨again, hagain⟩ := Option.isSome_iff_exists.mp (Dict.lookup_isSome.mpr hkey)
  obtain ⟨row, hrow, -⟩ := (normalizeInboxItems_spec h).2.2 key again hagain
  exact Dict.lookup_isSome.mp (by rw [hrow]; rfl)

theorem mem_keys_filter {items : Items} {keep : Text × Row → Bool} {key : Text}
    (hkey : key ∈ Dict.keys (items.filter keep)) : key ∈ Dict.keys items :=
  (List.filter_sublist.map Prod.fst).subset hkey

theorem mem_keys_reconciled {inbox : Inbox} (h : inbox.items.Normal dateParse)
    {source stamp key : Text} {rows : List Row} (hkeys : (rows.map Row.key).Nodup)
    (hkey : key ∈ Dict.keys (inbox.reconciled dateParse localeCompare source stamp rows)) :
    key ∈ rows.map Row.key ∨ key ∈ Dict.keys inbox.items := by
  by_cases hrow : ∃ row ∈ rows, row.key = key
  · obtain ⟨row, hmem, rfl⟩ := hrow
    exact Or.inl (List.mem_map_of_mem hmem)
  · have hnone : ∀ row ∈ rows, row.key ≠ key := fun row hmem heq => hrow ⟨row, hmem, heq⟩
    rw [← Dict.lookup_isSome] at hkey
    unfold Inbox.reconciled at hkey
    simp only at hkey
    rw [(foldl_reconcileRow_lookup hkeys key).1 hnone, Dict.lookup_isSome] at hkey
    exact Or.inr (mem_keys_view h (mem_keys_filter hkey))

/-- A page sets the revisions of its source, of keys it knows, and returns
whether the source was unknown. -/
theorem exec_page_revisions {inbox : Inbox} {call : Call} {source : Text} {rows : List Row}
    (hpage : call.page dateParse = some (source, rows)) :
    source ≠ [] ∧
    (call.baseline dateParse localeCompare inbox =
      !decide (source ∈ Dict.keys (normalizeSourceRevisions inbox.sourceRevisions))) ∧
    ∃ stamp entries,
      (call.exec dateParse localeCompare inbox).sourceRevisions =
        Dict.set (normalizeSourceRevisions inbox.sourceRevisions) source entries ∧
      ∀ key ∈ Dict.keys entries, key ∈ rows.map Row.key ∨
        key ∈ Dict.keys (inbox.reconciled dateParse localeCompare source stamp rows) ∨
        key ∈ Dict.keys
          (((normalizeSourceRevisions inbox.sourceRevisions).lookup source).getD []) := by
  cases call with
  | reconcile sourceValue raws noticedAt =>
      cases raws with
      | none => cases hpage
      | some raws =>
          simp only [Call.page] at hpage
          by_cases hsource : validInboxSource (some sourceValue) = []
          · rw [if_pos hsource] at hpage
            cases hpage
          · rw [if_neg hsource, Option.some.injEq, Prod.mk.injEq] at hpage
            obtain ⟨rfl, rfl⟩ := hpage
            have hrows : (some raws).filter (fun _ => decide
                (validInboxSource (some sourceValue) ≠ [])) = some raws := by
              rw [Option.filter_some, if_pos (decide_eq_true hsource)]
            simp only [Call.exec, Call.baseline, reconcileInboxSource]
            rw [hrows]
            refine ⟨hsource, rfl, cleanStamp dateParse (some noticedAt), _, rfl, fun key hkey => ?_⟩
            rcases mem_keys_sourceRevisionMap hkey with hnew | hitem | hold
            · rw [keys_foldl_reconcileRow] at hnew
              exact Or.inl hnew
            · exact Or.inr (Or.inl hitem)
            · exact Or.inr (Or.inr hold)
  | settlement _ _ _ => cases hpage
  | settleAll _ => cases hpage
  | removeSources _ => cases hpage

/-- A call adds no items but those of its rows. -/
theorem mem_keys_exec {inbox : Inbox} (h : inbox.items.Normal dateParse) {call : Call} {key : Text}
    (hkey : key ∈ Dict.keys (call.exec dateParse localeCompare inbox).items) :
    key ∈ (call.incoming dateParse).map Row.key ∨ key ∈ Dict.keys inbox.items := by
  cases hpage : call.page dateParse with
  | some page =>
      obtain ⟨source, rows⟩ := page
      obtain ⟨hkeys, -, stamp, hitems⟩ := @exec_page dateParse localeCompare inbox _ _ _ hpage
      rw [hitems] at hkey
      rw [Call.incoming, hpage]
      exact mem_keys_reconciled h hkeys (mem_keys_filter hkey)
  | none =>
      refine Or.inr ?_
      cases call with
      | reconcile source rows noticedAt =>
          rw [exec_of_no_page hpage] at hkey
          exact mem_keys_view h hkey
      | settlement keyValue settled at' =>
          simp only [Call.exec, setInboxSettlement] at hkey
          split at hkey
          · exact mem_keys_view h hkey
          · next row hrow =>
            rcases Dict.mem_keys_set.mp (mem_keys_filter hkey) with rfl | hold
            · refine @mem_keys_view _ localeCompare _ h _ (Dict.lookup_isSome.mp ?_)
              exact Option.isSome_iff_exists.mpr ⟨row, (Option.filter_eq_some_iff.mp hrow).1⟩
            · exact mem_keys_view h hold
      | settleAll at' =>
          simp only [Call.exec, settleAllInboxItems] at hkey
          have hmap := mem_keys_filter hkey
          rw [Dict.keys, List.map_map] at hmap
          exact mem_keys_view h hmap
      | removeSources start => exact mem_keys_view h (mem_keys_filter hkey)

/-- The sources of a call that reads no page: normalised or untouched, and
without those that it removes. -/
theorem exec_revisions_of_no_page {inbox : Inbox} {call : Call}
    (hpage : call.page dateParse = none) :
    ∃ keep : Text × Revisions → Bool,
      ((call.exec dateParse localeCompare inbox).sourceRevisions =
          inbox.sourceRevisions.filter keep ∨
        (call.exec dateParse localeCompare inbox).sourceRevisions =
          (normalizeSourceRevisions inbox.sourceRevisions).filter keep) ∧
      keep = match call with
        | .removeSources start => fun item => !(wantedPrefix start).isPrefixOf item.1
        | _ => fun _ => true := by
  refine ⟨_, ?_, rfl⟩
  cases call with
  | reconcile source raws noticedAt =>
      refine Or.inr ?_
      rw [List.filter_true]
      simp only [Call.exec, reconcileInboxSource]
      cases raws with
      | none => rfl
      | some raws =>
          by_cases hsource : validInboxSource (some source) = []
          · simp only [hsource, ne_eq, not_true_eq_false, decide_false, Option.filter_some,
              Bool.false_eq_true, if_false]
          · simp only [Call.page, if_neg hsource] at hpage
            cases hpage
  | settlement _ _ _ => exact Or.inl (List.filter_true _).symm
  | settleAll _ => exact Or.inl (List.filter_true _).symm
  | removeSources _ => exact Or.inr rfl

/-! ### Runs -/

/-- Keys of a page and of the items it leaves are clean and seen. -/
theorem Fits.seen {w : Watched} {call : Call} (h : w.Normal dateParse)
    (hfits : Fits dateParse w call) {key : Text}
    (hkey : key ∈ (call.incoming dateParse).map Row.key ∨ key ∈ Dict.keys w.inbox.items) :
    cleanText (some (.str key)) 600 = key ∧
      key ∈ (call.incoming dateParse).map Row.key ++ w.seen := by
  rcases hkey with hnew | hold
  · obtain ⟨row, hrow, rfl⟩ := List.mem_map.mp hnew
    exact ⟨(hfits.rows row hrow).key, List.mem_append_left _ hnew⟩
  · obtain ⟨item, hitem, rfl⟩ := List.mem_map.mp hold
    obtain ⟨hkey, -, hsteady⟩ := h.items.rows item hitem
    exact ⟨hkey ▸ hsteady.key, List.mem_append_right _ (h.seen _ hold)⟩

theorem Watched.Normal.step {w : Watched} {call : Call} (h : w.Normal dateParse)
    (hfits : Fits dateParse w call) :
    Watched.Normal dateParse (w.step dateParse localeCompare call) := by
  have hmore : Tidy ((call.incoming dateParse).map Row.key ++ w.seen) w.inbox.sourceRevisions :=
    h.tidy.mono fun key hkey => List.mem_append_right _ hkey
  refine ⟨exec_normal h.items hfits.rows, fun key hkey => ?_, ?_, ?_⟩
  · exact (hfits.seen h (mem_keys_exec h.items hkey)).2
  · simp only [Watched.step]
    cases hpage : call.page dateParse with
    | some page =>
        obtain ⟨source, rows⟩ := page
        obtain ⟨hvalid, hroom⟩ := hfits.source source rows hpage
        obtain ⟨hsource, -, stamp, entries, hset, hentries⟩ :=
          @exec_page_revisions dateParse localeCompare w.inbox _ _ _ hpage
        obtain ⟨hkeys, -, -, -⟩ := @exec_page dateParse localeCompare w.inbox _ _ _ hpage
        have hincoming : call.incoming dateParse = rows := by
          rw [Call.incoming, hpage]
          rfl
        rw [hset]
        refine hmore.normalize.set hvalid hsource ?_ fun key hkey => ?_
        · rw [hmore.keys_normalize, hmore.normalize_eq, List.length_map]
          exact hroom
        · rcases hentries key hkey with hnew | hitem | hold
          · exact hfits.seen h (Or.inl (hincoming.symm ▸ hnew))
          · exact hfits.seen h (hincoming.symm ▸ mem_keys_reconciled h.items hkeys hitem)
          · exact hmore.normalize.seen_of_lookup hold
    | none =>
        obtain ⟨keep, hfilter | hfilter, -⟩ :=
          @exec_revisions_of_no_page dateParse localeCompare w.inbox _ hpage
        · rw [hfilter]
          exact hmore.filter keep
        · rw [hfilter]
          exact hmore.normalize.filter keep
  · intro source hsource
    have hkeys := h.tidy.keys_normalize
    simp only [Watched.step] at hsource ⊢
    cases hpage : call.page dateParse with
    | some page =>
        obtain ⟨read, rows⟩ := page
        obtain ⟨-, -, stamp, entries, hset, -⟩ :=
          @exec_page_revisions dateParse localeCompare w.inbox _ _ _ hpage
        have hmem : source = read ∨ source ∈ w.reconciled := by
          rw [hpage] at hsource
          cases call with
          | reconcile _ _ _ => exact List.mem_cons.mp hsource
          | settlement _ _ _ => cases hpage
          | settleAll _ => cases hpage
          | removeSources _ => cases hpage
        rw [hset, Dict.mem_keys_set, hkeys]
        exact hmem.imp_right (h.known source)
    | none =>
        obtain ⟨keep, hfilter, hkeep⟩ :=
          @exec_revisions_of_no_page dateParse localeCompare w.inbox _ hpage
        have hmem : source ∈ w.reconciled ∧ ∀ entries, keep (source, entries) = true := by
          rw [hpage] at hsource
          subst hkeep
          cases call with
          | reconcile _ _ _ => exact ⟨hsource, fun _ => rfl⟩
          | settlement _ _ _ => exact ⟨hsource, fun _ => rfl⟩
          | settleAll _ => exact ⟨hsource, fun _ => rfl⟩
          | removeSources start => exact (List.mem_filter.mp hsource).imp_right fun h _ => h
        have hkept : ∀ revisions : List (Text × Revisions), source ∈ Dict.keys revisions →
            source ∈ Dict.keys (revisions.filter keep) := by
          intro revisions hthere
          obtain ⟨item, hitem, rfl⟩ := List.mem_map.mp hthere
          exact List.mem_map_of_mem (List.mem_filter.mpr ⟨hitem, hmem.2 item.2⟩)
        have hknown := h.known source hmem.1
        rcases hfilter with hfilter | hfilter
        · rw [hfilter]
          exact hkept _ hknown
        · rw [hfilter]
          exact hkept _ (hkeys ▸ hknown)

/-- A terminal row with a new key is unsettled if its source is known. -/
theorem outcome_new {source stamp : Text} {oldMap : Revisions} {row : Row}
    (hold : row.key ∉ Dict.keys oldMap) (hactive : row.active = false) :
    ∃ left, outcome dateParse source true oldMap stamp none row = some left ∧
      left.lifecycle = .unsettled := by
  have hsame : sameRevision oldMap none row = false := by
    rw [sameRevision, Dict.lookup_eq_none.mpr hold]
    rfl
  unfold outcome reconciledRow
  simp only [hsame, hactive]
  exact ⟨_, rfl, rfl⟩

theorem Watched.Normal.baselinedOnce {w : Watched} {call : Call} (h : w.Normal dateParse)
    (hfits : Fits dateParse w call) : BaselinedOnce dateParse localeCompare w call := by
  constructor
  · intro source rows hpage hbaseline hreconciled
    obtain ⟨-, hflag, -⟩ := @exec_page_revisions dateParse localeCompare w.inbox _ _ _ hpage
    have hknown := h.known source hreconciled
    rw [← h.tidy.keys_normalize] at hknown
    rw [hflag, decide_eq_true hknown] at hbaseline
    cases hbaseline
  · intro source rows hpage hreconciled row hrow hactive hnew
    have hincoming : call.incoming dateParse = rows := by
      rw [Call.incoming, hpage]
      rfl
    obtain ⟨hkeys, hformed, stamp, hitems⟩ :=
      @exec_page dateParse localeCompare w.inbox _ _ _ hpage
    have hnormal : Items.Normal dateParse
        (w.inbox.reconciled dateParse localeCompare source stamp rows) :=
      reconciled_normal h.items fun row hrow =>
        ⟨hformed row hrow, hfits.rows row (hincoming.symm ▸ hrow)⟩
    have hknown := h.known source hreconciled
    rw [← h.tidy.keys_normalize] at hknown
    have hexisting : (w.inbox.view dateParse localeCompare).lookup row.key = none :=
      Dict.lookup_eq_none.mpr fun hmem => hnew (h.seen _ (mem_keys_view h.items hmem))
    have hold : row.key ∉ Dict.keys
        (((normalizeSourceRevisions w.inbox.sourceRevisions).lookup source).getD []) :=
      fun hmem => hnew (h.tidy.normalize.seen_of_lookup hmem).2
    rw [hitems, isUnsettled_prune hnormal.distinct, isUnsettled_iff,
      reconciled_lookup h.items hkeys hrow, hexisting, decide_eq_true hknown]
    exact outcome_new hold hactive

/-- Among sources that fit, each is baselined once, and what is new on a later
page arrives unsettled. -/
theorem sources_baselined_once {w : Watched} (h : w.Normal dateParse) {calls : List Call}
    (hfits : EachStep (Watched.step dateParse localeCompare) (Fits dateParse) w calls) :
    EachStep (Watched.step dateParse localeCompare) (BaselinedOnce dateParse localeCompare) w
      calls := by
  refine EachStep.of_invariant (fun w call hnormal hcall => ?_) (fun w call hnormal hcall => ?_) h
    hfits
  · exact hnormal.step hcall
  · exact hnormal.baselinedOnce hcall

end

/-! ### One source too many -/

def repoEvents (number : Nat) : Text := ascii "events:o/r" ++ digitsOf number

def emptyPage (number : Nat) : Call :=
  .reconcile (.str (repoEvents number)) (some []) (.str DAY_1)

/-- An empty inbox with the first sources known. -/
def fed (number : Nat) : Watched :=
  { inbox := ⟨[], (List.range number).map fun known => (repoEvents known, [])⟩
    reconciled := ((List.range number).map repoEvents).reverse
    seen := [] }

theorem repoEvents_valid {number : Nat} (h : number < 101) :
    validInboxSource (some (.str (repoEvents number))) = repoEvents number ∧
      repoEvents number ≠ [] := by
  have hall : ∀ number ∈ List.range 101,
      validInboxSource (some (.str (repoEvents number))) = repoEvents number ∧
        repoEvents number ≠ [] := by
    decide +kernel
  exact hall number (List.mem_range.mpr h)

theorem repoEvents_injective : Function.Injective repoEvents := by
  intro left right h
  have hdigits := congrArg decimal (List.append_cancel_left h)
  rwa [decimal_digitsOf, decimal_digitsOf] at hdigits

theorem keys_fed (number : Nat) :
    Dict.keys (fed number).inbox.sourceRevisions = (List.range number).map repoEvents := by
  simp [fed, Dict.keys]

theorem fed_tidy {number : Nat} (h : number ≤ 100) : Tidy [] (fed number).inbox.sourceRevisions := by
  refine ⟨?_, ?_, fun item hitem => ?_, fun item hitem key hkey => ?_⟩
  · rw [keys_fed]
    exact List.nodup_range.map repoEvents_injective
  · rw [fed, List.length_map, List.length_range]
    exact h
  · obtain ⟨known, hknown, rfl⟩ := List.mem_map.mp hitem
    exact repoEvents_valid (by have := List.mem_range.mp hknown; omega)
  · obtain ⟨known, hknown, rfl⟩ := List.mem_map.mp hitem
    cases hkey

theorem fed_normalize {number : Nat} (h : number ≤ 100) :
    normalizeSourceRevisions (fed number).inbox.sourceRevisions =
      (fed number).inbox.sourceRevisions := by
  rw [(fed_tidy h).normalize_eq, fed, List.map_map]
  rfl

theorem repoEvents_notMem (number : Nat) :
    repoEvents number ∉ Dict.keys (fed number).inbox.sourceRevisions := by
  rw [keys_fed, List.mem_map]
  rintro ⟨known, hknown, heq⟩
  rw [repoEvents_injective heq, List.mem_range] at hknown
  exact lt_irrefl _ hknown

/-- The page of a new source baselines it. -/
theorem fed_step {number : Nat} (h : number ≤ 100) :
    (fed number).step parseDay order (emptyPage number) = fed (number + 1) := by
  obtain ⟨hvalid, hsource⟩ := repoEvents_valid (Nat.lt_succ_of_le h)
  have hnew := repoEvents_notMem number
  have hexec : (emptyPage number).exec parseDay order (fed number).inbox =
      ⟨[], Dict.set (fed number).inbox.sourceRevisions (repoEvents number) []⟩ := by
    simp only [emptyPage, Call.exec, reconcileInboxSource, hvalid, fed_normalize h]
    rw [Dict.lookup_eq_none.mpr hnew, Option.filter_some, if_pos (decide_eq_true hsource)]
    rfl
  have hpage : (emptyPage number).page parseDay = some (repoEvents number, []) := by
    simp only [emptyPage, Call.page, hvalid, if_neg hsource]
    rfl
  unfold Watched.step
  rw [hexec, Call.incoming, hpage, Dict.set_new hnew]
  simp [fed, emptyPage, List.range_succ]

theorem fed_run {number : Nat} (h : number ≤ 101) :
    ((List.range number).map emptyPage).foldl (Watched.step parseDay order) (fed 0) =
      fed number := by
  induction number with
  | zero => rfl
  | succ number ih =>
      rw [List.range_succ, List.map_append, List.foldl_append, ih (Nat.le_of_succ_le h),
        List.map_singleton, List.foldl_cons, List.foldl_nil]
      exact fed_step (Nat.le_of_succ_le_succ h)

/-- The source that comes after a hundred others is baselined again. -/
theorem emptyPage_baselines_again : ¬ EachStep (Watched.step parseDay order)
    (BaselinedOnce parseDay order) (fed 0) ((List.range 101 ++ [100]).map emptyPage) := by
  rw [List.map_append, EachStep.append_iff, fed_run le_rfl]
  rintro ⟨-, hlast, -⟩
  obtain ⟨hvalid, hsource⟩ := repoEvents_valid (by decide : 100 < 101)
  have hpage : (emptyPage 100).page parseDay = some (repoEvents 100, []) := by
    simp only [emptyPage, Call.page, hvalid, if_neg hsource]
    rfl
  refine hlast.once (repoEvents 100) [] hpage ?_ ?_
  · obtain ⟨-, hflag, -⟩ := @exec_page_revisions parseDay order (fed 101).inbox _ _ _ hpage
    have hcut : normalizeSourceRevisions (fed 101).inbox.sourceRevisions =
        normalizeSourceRevisions (fed 100).inbox.sourceRevisions := by
      unfold normalizeSourceRevisions fed
      rw [← List.map_take, ← List.map_take, List.take_range, List.take_range]
      rfl
    rw [hflag, hcut, fed_normalize le_rfl, decide_eq_false (repoEvents_notMem 100)]
    rfl
  · exact List.mem_reverse.mpr (List.mem_map_of_mem (List.mem_range.mpr (by decide)))

/-- An empty page of a source, then one with a row, fit. -/
theorem sources_baselined_once_news :
    EachStep (Watched.step parseDay order) (BaselinedOnce parseDay order) (fed 0)
      [.reconcile (.str (ascii "events:o/r")) (some []) (.str DAY_1), newsPage] := by
  have hvalid : validInboxSource (some (.str (ascii "events:o/r"))) = ascii "events:o/r" := by
    decide +kernel
  have hnormal : Watched.Normal parseDay (fed 0) := by
    refine ⟨⟨List.nodup_nil, fun item hitem => ?_⟩, fun key hkey => ?_, fed_tidy (Nat.zero_le _),
      fun source hsource => ?_⟩
    · cases hitem
    · cases hkey
    · cases hsource
  refine sources_baselined_once hnormal ⟨⟨?_, ?_⟩, ⟨?_, ?_⟩, trivial⟩
  · intro row hrow
    have hincoming : Call.incoming parseDay
        (.reconcile (.str (ascii "events:o/r")) (some []) (.str DAY_1)) = [] := by
      decide +kernel
    rw [hincoming] at hrow
    cases hrow
  · intro source rows hpage
    simp only [Call.page, hvalid, if_neg (by decide : ascii "events:o/r" ≠ []),
      Option.some.injEq, Prod.mk.injEq] at hpage
    rw [← hpage.1]
    exact ⟨hvalid, Or.inr (by decide)⟩
  · intro row hrow
    rw [Call.incoming, newsPage_page] at hrow
    rw [List.mem_singleton.mp hrow]
    exact newsRow_steady
  · intro source rows hpage
    rw [newsPage_page, Option.some.injEq, Prod.mk.injEq] at hpage
    rw [← hpage.1]
    exact ⟨hvalid, Or.inr (by decide +kernel)⟩

end GitHub

end CybexOS
