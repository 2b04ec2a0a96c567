/-
The Notes store invariant: whatever is done to the records of a readable state
file, the file written from them is read back as exactly those records.
-/
import CybexOS.Notes.Store
import CybexOS.Notes.TitleNormal

namespace CybexOS

namespace Notes

open Json

/-! ### The record order -/

theorem notAfter_iff {left right : Record} :
    NotAfter left right ↔ right.updatedAt < left.updatedAt ∨
      right.updatedAt = left.updatedAt ∧ (right.createdAt < left.createdAt ∨
        right.createdAt = left.createdAt ∧ left.id ≤ right.id) := by
  unfold NotAfter compareRecords
  by_cases hupdated : left.updatedAt = right.updatedAt
  · by_cases hcreated : left.createdAt = right.createdAt
    · rcases lt_trichotomy left.id right.id with h | h | h
      · simp [hupdated, hcreated, h, h.le]
      · simp [hupdated, hcreated, h]
      · simp [hupdated, hcreated, h, not_lt.mpr h.le, not_le.mpr h]
    · simp only [hupdated, hcreated, Ne.symm hcreated, ne_eq, not_true_eq_false,
        not_false_eq_true, if_true, if_false, false_and, or_false, true_and]
      omega
  · simp only [hupdated, Ne.symm hupdated, ne_eq, not_false_eq_true, if_true,
      false_and, or_false]
    omega

instance : Std.Total NotAfter := ⟨by
  intro left right
  rw [notAfter_iff, notAfter_iff]
  rcases le_total left.id right.id with hid | hid <;> grind⟩

instance : IsTrans Record NotAfter := ⟨by
  intro a b c hab hbc
  rw [notAfter_iff] at hab hbc ⊢
  rcases hab with hab | ⟨hab, hab' | ⟨hab', habId⟩⟩
  · left; omega
  · rcases hbc with hbc | ⟨hbc, hbc' | ⟨hbc', hbcId⟩⟩
    · left; omega
    · right; omega
    · right; omega
  · rcases hbc with hbc | ⟨hbc, hbc' | ⟨hbc', hbcId⟩⟩
    · left; omega
    · right; omega
    · exact Or.inr ⟨by omega, Or.inr ⟨by omega, habId.trans hbcId⟩⟩⟩

theorem mem_sortRecords {records : List Record} {record : Record} :
    record ∈ sortRecords records ↔ record ∈ records :=
  List.mem_insertionSort NotAfter

/-! ### Valid records -/

/-- What `validRecord` asks of a record. -/
structure Record.Valid (record : Record) : Prop where
  id : validId record.id = true
  title : validTitle record.title = true
  body : isBlank record.body = false
  ordered : record.createdAt ≤ record.updatedAt
  bounded : record.updatedAt ≤ MAX_TIMESTAMP

theorem validTimestamp_le {value : JsValue} {n : Nat}
    (h : validTimestamp value = some n) : n ≤ MAX_TIMESTAMP := by
  unfold validTimestamp at h
  split at h
  · next d =>
    split at h
    · next hd =>
      obtain ⟨-, hwhole, hmax⟩ := hd
      rw [← hwhole] at hmax
      have hle : ⌊d.val⌋ ≤ (MAX_TIMESTAMP : ℤ) := by exact_mod_cast hmax
      rw [← Option.some.inj h]
      omega
    · simp at h
  · simp at h

theorem natValue_eq {n : Nat} (hn : n ≤ MAX_TIMESTAMP) :
    ∃ d : Double, natValue n = .num (.fin d) ∧ d.val = n := by
  have habs : |(n : ℤ)| ≤ 2 ^ 53 := by
    rw [abs_of_nonneg (by omega)]
    unfold MAX_TIMESTAMP at hn
    omega
  exact ⟨Double.ofInt n habs, congrArg Value.num
    (Number.ofRat_of_nearest (Binary64.nearest_intCast habs)), by simp⟩

theorem validTimestamp_natValue {n : Nat} (hn : n ≤ MAX_TIMESTAMP) :
    validTimestamp (natValue n) = some n := by
  obtain ⟨d, hd, hval⟩ := natValue_eq hn
  have hcast : (n : ℚ) ≤ MAX_TIMESTAMP := by exact_mod_cast hn
  rw [hd, validTimestamp]
  simp [hval, hcast]

theorem readRecord_valid {value : JsValue} {title : Text} {record : Record}
    (h : readRecord value title = some record) :
    record.title = title ∧ validId record.id = true ∧
      isBlank record.body = false ∧ record.createdAt ≤ record.updatedAt ∧
      record.updatedAt ≤ MAX_TIMESTAMP := by
  unfold readRecord at h
  split at h
  · next id body createdAt updatedAt hid hbody hcreated hupdated =>
    split at h
    · next hchecks =>
      simp only [Bool.and_eq_true, Bool.not_eq_true', decide_eq_true_eq] at hchecks
      obtain ⟨value, -, hvalue⟩ := Option.bind_eq_some_iff.mp hupdated
      rw [← Option.some.inj h]
      exact ⟨rfl, hchecks.1.1, hchecks.1.2, hchecks.2, validTimestamp_le hvalue⟩
    · simp at h
  · simp at h

theorem validRecord_valid {value : JsValue} {record : Record}
    (h : validRecord value = some record) : record.Valid := by
  unfold validRecord at h
  split at h
  · split at h
    · next title _ =>
      split at h
      · next htitle =>
        obtain ⟨heq, hid, hbody, hordered, hbounded⟩ := readRecord_valid h
        exact ⟨hid, heq ▸ htitle, hbody, hordered, hbounded⟩
      · simp at h
    · simp at h
  · simp at h

theorem validLegacyRecord_valid {value : JsValue} {record : Record}
    (h : validLegacyRecord value = some record) : record.Valid := by
  unfold validLegacyRecord at h
  split at h
  · obtain ⟨old, hold, rfl⟩ := Option.map_eq_some_iff.mp h
    obtain ⟨-, hid, hbody, hordered, hbounded⟩ := readRecord_valid hold
    exact ⟨hid, validTitle_fallbackTitle _, hbody, hordered, hbounded⟩
  · simp at h

/-- A valid record is read back from its value. -/
theorem validRecord_toValue {record : Record} (h : record.Valid) :
    validRecord record.toValue = some record := by
  have hcreated := h.ordered.trans h.bounded
  have hkeys : hasOnlyKeys record.toValue RECORD_KEYS = true := by
    simp only [hasOnlyKeys, Record.toValue, List.map_cons, List.map_nil]
    decide
  have hid : record.toValue.field? (ascii "id") = some (.str record.id) := rfl
  have htitle : record.toValue.field? (ascii "title") =
      some (.str record.title) := rfl
  have hbody : record.toValue.field? (ascii "body") = some (.str record.body) := rfl
  have hcreatedAt : record.toValue.field? (ascii "createdAt") =
      some (natValue record.createdAt) := rfl
  have hupdatedAt : record.toValue.field? (ascii "updatedAt") =
      some (natValue record.updatedAt) := rfl
  simp only [validRecord, readRecord, hkeys, hid, htitle, hbody, hcreatedAt,
    hupdatedAt, Option.bind_some, stringOf, validTimestamp_natValue hcreated,
    validTimestamp_natValue h.bounded, h.title, h.id, h.body, h.ordered,
    if_true, Bool.not_false, decide_true, Bool.and_true]

/-! ### The invariant -/

/-- Valid records with distinct ids in `compareRecords` order. -/
structure Stored (records : List Record) : Prop where
  valid : ∀ record ∈ records, record.Valid
  ids : (records.map Record.id).Nodup
  sorted : records.Pairwise NotAfter

theorem Stored.sortRecords_eq {records : List Record} (h : Stored records) :
    sortRecords records = records := h.sorted.insertionSort_eq

/-- Sorting restores the invariant. -/
theorem stored_sortRecords {records : List Record}
    (hvalid : ∀ record ∈ records, record.Valid)
    (hids : (records.map Record.id).Nodup) : Stored (sortRecords records) where
  valid := fun record hrecord => hvalid record (mem_sortRecords.mp hrecord)
  ids := ((List.perm_insertionSort NotAfter records).map Record.id).nodup_iff.mpr
    hids
  sorted := List.pairwise_insertionSort NotAfter records

theorem validateFrom_valid {valid : JsValue → Option Record}
    (hvalid : ∀ {value record}, valid value = some record → record.Valid)
    {values : List JsValue} {index : Nat} {seen : List Text}
    {records : List Record}
    (h : validateFrom valid index seen values = .ok records) :
    (∀ record ∈ records, record.Valid) ∧ (records.map Record.id).Nodup ∧
      ∀ record ∈ records, record.id ∉ seen := by
  induction values generalizing index seen records with
  | nil =>
      simp only [validateFrom, Except.ok.injEq] at h
      simp [← h]
  | cons value rest ih =>
      rw [validateFrom] at h
      split at h
      · simp at h
      · next record hrecord =>
        split at h
        · simp at h
        · next hseen =>
          rw [List.contains_iff_mem] at hseen
          cases htail : validateFrom valid (index + 1) (record.id :: seen) rest with
          | error message => simp [htail, Except.map] at h
          | ok tail =>
              simp only [htail, Except.map, Except.ok.injEq] at h
              obtain ⟨hall, hnodup, hfresh⟩ := ih htail
              subst h
              refine ⟨List.forall_mem_cons.mpr ⟨hvalid hrecord, hall⟩, ?_,
                List.forall_mem_cons.mpr ⟨hseen, fun other hother hmem =>
                  hfresh other hother (List.mem_cons_of_mem _ hmem)⟩⟩
              rw [List.map_cons, List.nodup_cons]
              refine ⟨fun hmem => ?_, hnodup⟩
              obtain ⟨other, hother, heq⟩ := List.mem_map.mp hmem
              exact hfresh other hother (heq ▸ List.mem_cons_self)

/-- Valid records with fresh distinct ids pass the checks. -/
theorem validateFrom_toValue {records : List Record}
    (hvalid : ∀ record ∈ records, record.Valid)
    (hids : (records.map Record.id).Nodup) (index : Nat) {seen : List Text}
    (hfresh : ∀ record ∈ records, record.id ∉ seen) :
    validateFrom validRecord index seen (records.map Record.toValue) =
      .ok records := by
  induction records generalizing index seen with
  | nil => rfl
  | cons record rest ih =>
      rw [List.forall_mem_cons] at hvalid hfresh
      rw [List.map_cons, List.nodup_cons] at hids
      have hrest : ∀ other ∈ rest, other.id ∉ record.id :: seen := by
        intro other hother hmem
        rcases List.mem_cons.mp hmem with heq | hmem
        · exact hids.1 (heq ▸ List.mem_map_of_mem hother)
        · exact hfresh.2 other hother hmem
      have htail := ih hvalid.2 hids.2 (index + 1) hrest
      have hnew : ¬ seen.contains record.id = true := by
        rw [List.contains_iff_mem]
        exact hfresh.1
      rw [List.map_cons, validateFrom, validRecord_toValue hvalid.1]
      simp only [if_neg hnew, htail]
      rfl

theorem parseState_stored {text : Text} {state : State}
    (h : parseState text = .ok state) : Stored state.records := by
  unfold parseState at h
  split at h
  · simp at h
  · split at h
    · simp at h
    · next parsed hparsed =>
      dsimp only at h
      split at h
      · simp at h
      · cases hchecked : validateRecords (parsed.field? (ascii "notes"))
            (isNumber (parsed.field? (ascii "v")) 1) with
        | error message => simp [hchecked, Except.map] at h
        | ok records =>
            simp only [hchecked, Except.map, Except.ok.injEq] at h
            rw [← h]
            unfold validateRecords at hchecked
            split at hchecked
            · split at hchecked
              · obtain ⟨hvalid, hids, -⟩ :=
                  validateFrom_valid validLegacyRecord_valid hchecked
                exact stored_sortRecords hvalid hids
              · obtain ⟨hvalid, hids, -⟩ :=
                  validateFrom_valid validRecord_valid hchecked
                exact stored_sortRecords hvalid hids
            · simp at hchecked

/-! ### Saving -/

theorem storable_toValue {record : Record} (h : record.Valid) :
    Storable record.toValue := by
  obtain ⟨created, hcreated, -⟩ := natValue_eq (h.ordered.trans h.bounded)
  obtain ⟨updated, hupdated, -⟩ := natValue_eq h.bounded
  rw [Record.toValue, hcreated, hupdated]
  refine .obj _ (ownOrdered_of_names ?_ ?_) ?_
  · simp only [List.map_cons, List.map_nil]
    decide
  · simp only [List.forall_mem_cons]
    decide
  · simp only [List.forall_mem_cons]
    exact ⟨.str _, .str _, .str _, .num _, .num _, by simp⟩

/-- The value `serializeState` writes. -/
def stateValue (records : List Record) : JsValue :=
  .obj [(ascii "v", natValue 2), (ascii "notes", .arr (records.map Record.toValue))]

theorem storable_stateValue {records : List Record}
    (h : ∀ record ∈ records, record.Valid) : Storable (stateValue records) := by
  obtain ⟨two, htwo, -⟩ := natValue_eq (n := 2) (by decide)
  rw [stateValue, htwo]
  refine .obj _ (ownOrdered_of_names ?_ ?_) ?_
  · simp only [List.map_cons, List.map_nil]
    decide
  · simp only [List.forall_mem_cons]
    decide
  · simp only [List.forall_mem_cons]
    refine ⟨.num _, .arr _ fun value hvalue => ?_, by simp⟩
    obtain ⟨record, hrecord, rfl⟩ := List.mem_map.mp hvalue
    exact storable_toValue (h record hrecord)

theorem serializeState_stored {records : List Record} (h : Stored records) :
    serializeState records = .ok (jsonStringify (stateValue records) ++ [10]) := by
  rw [serializeState, validateRecords, if_neg (by simp),
    validateFrom_toValue h.valid h.ids 0 (by simp)]
  simp only [Except.map, h.sortRecords_eq]
  rfl

/-- The saved text is read back as exactly the records saved, whatever blanks
follow it. -/
theorem parseState_stateValue {records : List Record} (h : Stored records)
    {rest : Text} (hrest : rest.all isSpace = true) :
    parseState (jsonStringify (stateValue records) ++ rest) =
      .ok ⟨records, false⟩ := by
  have hread : jsonParse (jsonStringify (stateValue records) ++ rest) =
      some (stateValue records) :=
    jsonParse_jsonStringify (storable_stateValue h.valid) hrest
  have hne : jsTrim (jsonStringify (stateValue records) ++ rest) ≠ [] := by
    have hopen : ∃ rest, jsonStringify (stateValue records) = 123 :: rest :=
      ⟨_, by rw [jsonStringify, stateValue, JsValue.toTerm, fieldsToTerms, Term.print]⟩
    obtain ⟨rest, hcons⟩ := hopen
    exact trimWith_ne_nil (c := 123) (by simp [hcons]) rfl
  obtain ⟨two, htwo, hval⟩ := natValue_eq (n := 2) (by decide)
  have hkeys : hasOnlyKeys (stateValue records) [ascii "v", ascii "notes"] =
      true := by
    simp only [hasOnlyKeys, stateValue, List.map_cons, List.map_nil]
    decide
  have hv : (stateValue records).field? (ascii "v") = some (natValue 2) := rfl
  have hnotes : (stateValue records).field? (ascii "notes") =
      some (.arr (records.map Record.toValue)) := rfl
  have htwoIs : isNumber (some (natValue 2)) 2 = true := by
    rw [htwo, isNumber]
    simpa using hval
  have hone : isNumber (some (natValue 2)) 1 = false := by
    rw [htwo, isNumber]
    simp [hval]
  rw [parseState, if_neg hne, hread]
  simp only [hkeys, hv, hnotes, htwoIs, hone, Bool.not_true, Bool.false_and,
    Bool.or_self, Bool.false_eq_true, if_false]
  rw [validateRecords, if_neg (by simp),
    validateFrom_toValue h.valid h.ids 0 (by simp)]
  simp only [Except.map, h.sortRecords_eq]

/-- The saved file is read back as exactly the records saved. -/
theorem parseState_serialized {records : List Record} (h : Stored records) :
    parseState (jsonStringify (stateValue records) ++ [10]) =
      .ok ⟨records, false⟩ := parseState_stateValue h rfl

/-! ### Operations -/

theorem hasId_iff {record : Record} {id : JsValue} :
    record.hasId id = true ↔ stringOf id = some record.id := by
  simp [Record.hasId]

theorem findRecord_str_none {records : List Record} {id : Text}
    (h : (findRecord records (.str id)).isSome = false) :
    ∀ record ∈ records, record.id ≠ id := by
  intro record hrecord heq
  have hfound : (findRecord records (.str id)).isSome = true :=
    List.find?_isSome.mpr ⟨record, hrecord, hasId_iff.mpr (congrArg some heq.symm)⟩
  simp [h] at hfound

theorem bodyOf_not_blank {body : JsValue} {text : Text}
    (h : bodyOf body = some text) : isBlank text = false := by
  obtain ⟨string, -, hstring⟩ := Option.bind_eq_some_iff.mp h
  split at hstring
  · simp at hstring
  · next hblank =>
    rw [← Option.some.inj hstring]
    simpa using hblank

theorem titleOf_valid {title : JsValue} (h : titleOf title ≠ []) :
    validTitle (titleOf title) = true := by
  unfold titleOf at h ⊢
  cases htext : stringOf title with
  | none => simp [htext] at h
  | some text =>
      rw [htext] at h
      exact validTitle_normalizeTitle h

theorem orUntitled_valid (title : JsValue) :
    validTitle (orUntitled (titleOf title)) = true := by
  unfold orUntitled
  split
  · exact validTitle_untitled
  · next hne => exact titleOf_valid hne

theorem Stored.unchanged {records : List Record} (h : Stored records)
    (record : Option Record) : Stored (unchanged records record).records :=
  stored_sortRecords h.valid h.ids

/-- A valid record with a new id joins the others. -/
theorem Stored.append {records : List Record} (h : Stored records)
    {record : Record} (hvalid : record.Valid)
    (hnew : ∀ other ∈ records, other.id ≠ record.id) :
    Stored (sortRecords (records ++ [record])) := by
  apply stored_sortRecords
  · intro other hother
    rcases List.mem_append.mp hother with hother | hother
    · exact h.valid other hother
    · rw [List.mem_singleton.mp hother]
      exact hvalid
  · rw [List.map_append, List.nodup_append]
    refine ⟨h.ids, by simp, fun id hid other hother heq => ?_⟩
    obtain ⟨old, hold, rfl⟩ := List.mem_map.mp hid
    simp only [List.map_cons, List.map_nil, List.mem_singleton] at hother
    exact hnew old hold (heq.trans hother)

/-- Rewriting the records of one id into valid ones of the same id. -/
theorem Stored.rewrite {records : List Record} (h : Stored records) (id : JsValue)
    {update : Record → Record} (hid : ∀ record, (update record).id = record.id)
    (hvalid : ∀ record, record.Valid → (update record).Valid) :
    Stored (rewrite records id update).records := by
  apply stored_sortRecords
  · intro record hrecord
    obtain ⟨old, hold, rfl⟩ := List.mem_map.mp hrecord
    split
    · exact hvalid old (h.valid old hold)
    · exact h.valid old hold
  · have hsame : ∀ record : Record,
        (if record.hasId id then update record else record).id = record.id := by
      intro record
      split
      · exact hid record
      · rfl
    rw [List.map_map]
    simp only [Function.comp_def, hsame]
    exact h.ids

theorem removeRecord_stored {records : List Record} (h : Stored records)
    (id : JsValue) : Stored (removeRecord records id).records := by
  unfold removeRecord
  split
  · exact h.unchanged none
  · exact stored_sortRecords (fun record hrecord =>
      h.valid record (List.mem_filter.mp hrecord).1)
      (h.ids.sublist (List.filter_sublist.map Record.id))

theorem addRecord_stored {records : List Record} (h : Stored records)
    (body id now title : JsValue) :
    Stored (addRecord records body id now title).records := by
  unfold addRecord
  split
  · next text idText time hbody hid hnow =>
    split
    · exact h.unchanged none
    · next hchecks =>
      simp only [Bool.or_eq_true, Bool.not_eq_true', not_or, Bool.not_eq_false,
        Bool.not_eq_true] at hchecks
      refine h.append ⟨hchecks.1, orUntitled_valid title, bodyOf_not_blank hbody,
        le_refl _, validTimestamp_le hnow⟩ ?_
      exact findRecord_str_none hchecks.2
  · exact h.unchanged none

theorem updateRecord_stored {records : List Record} (h : Stored records)
    (id body now : JsValue) : Stored (updateRecord records id body now).records := by
  unfold updateRecord
  split
  · exact removeRecord_stored h id
  · next text hbody =>
    split
    · exact h.unchanged none
    · next time hnow =>
      split
      · exact h.unchanged none
      · next found _ =>
        split
        · exact h.unchanged (some found)
        · refine h.rewrite id (fun _ => rfl) fun record hrecord => ?_
          exact ⟨hrecord.id, hrecord.title, bodyOf_not_blank hbody,
            hrecord.ordered.trans (le_max_right _ _),
            max_le (validTimestamp_le hnow) hrecord.bounded⟩

theorem updateTitleRecord_stored {records : List Record} (h : Stored records)
    (id title now : JsValue) :
    Stored (updateTitleRecord records id title now).records := by
  unfold updateTitleRecord
  split
  · exact h.unchanged none
  · next time hnow =>
    split
    · exact h.unchanged none
    · next found _ =>
      dsimp only
      split
      · exact h.unchanged (some found)
      · refine h.rewrite id (fun _ => rfl) fun record hrecord => ?_
        exact ⟨hrecord.id, orUntitled_valid title, hrecord.body,
          hrecord.ordered.trans (le_max_right _ _),
          max_le (validTimestamp_le hnow) hrecord.bounded⟩

theorem applyGeneratedTitle_stored {records : List Record} (h : Stored records)
    (id title : JsValue) : Stored (applyGeneratedTitle records id title).records := by
  unfold applyGeneratedTitle
  dsimp only
  split
  · exact h.unchanged none
  · next found _ =>
    split
    · exact h.unchanged (some found)
    · next hchanged =>
      rw [not_or] at hchanged
      refine h.rewrite id (fun _ => rfl) fun record hrecord => ?_
      exact ⟨hrecord.id, titleOf_valid hchanged.1, hrecord.body, hrecord.ordered,
        hrecord.bounded⟩

theorem restoreDeleted_stored {records : List Record} (h : Stored records)
    (deleted : JsValue) : Stored (restoreDeleted records deleted).records := by
  unfold restoreDeleted
  split
  · exact h.unchanged none
  · next record hrecord =>
    split
    · exact h.unchanged none
    · next hnew =>
      exact h.append (validRecord_valid hrecord)
        (findRecord_str_none (by simpa using hnew))

theorem commitDraft_stored {records : List Record} (h : Stored records)
    (id body now newId : JsValue) :
    Stored (commitDraft records id body now newId).records := by
  unfold commitDraft
  split
  · split
    · exact removeRecord_stored h id
    · exact h.unchanged none
  · split
    · exact updateRecord_stored h id body now
    · exact addRecord_stored h body newId now .null

end Notes

end CybexOS
