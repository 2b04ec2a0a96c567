/-
Runs of the Notes operations: each keeps the store invariant and touches only
the record it names.
-/
import CybexOS.Notes.Invariant

namespace CybexOS

namespace Notes

open Json

/-- An operation of the store with its arguments. -/
inductive Op where
  | addRecord (body id now title : JsValue)
  | updateRecord (id body now : JsValue)
  | updateTitleRecord (id title now : JsValue)
  | applyGeneratedTitle (id title : JsValue)
  | removeRecord (id : JsValue)
  | restoreDeleted (deleted : JsValue)
  | commitDraft (id body now newId : JsValue)

def Op.run (op : Op) (records : List Record) : Outcome :=
  match op with
  | .addRecord body id now title => Notes.addRecord records body id now title
  | .updateRecord id body now => Notes.updateRecord records id body now
  | .updateTitleRecord id title now => Notes.updateTitleRecord records id title now
  | .applyGeneratedTitle id title => Notes.applyGeneratedTitle records id title
  | .removeRecord id => Notes.removeRecord records id
  | .restoreDeleted deleted => Notes.restoreDeleted records deleted
  | .commitDraft id body now newId => Notes.commitDraft records id body now newId

/-- The id an operation names. -/
def Op.target (op : Op) : JsValue :=
  match op with
  | .addRecord _ id _ _ => id
  | .updateRecord id _ _ => id
  | .updateTitleRecord id _ _ => id
  | .applyGeneratedTitle id _ => id
  | .removeRecord id => id
  | .restoreDeleted deleted => (deleted.field? (ascii "id")).getD .null
  | .commitDraft id _ _ newId => if truthy id then id else newId

/-- Records of other ids are neither lost nor changed nor added. -/
def KeepsOthers (id : JsValue) (before after : List Record) : Prop :=
  ∀ record : Record, record.hasId id = false →
    (record ∈ after ↔ record ∈ before)

theorem keepsOthers_unchanged (id : JsValue) (records : List Record)
    (record : Option Record) :
    KeepsOthers id records (unchanged records record).records :=
  fun _ _ => mem_sortRecords

theorem keepsOthers_append {id : JsValue} {added : Record}
    (hadded : added.hasId id = true) (records : List Record) :
    KeepsOthers id records (sortRecords (records ++ [added])) := by
  intro record hother
  have hne : record ≠ added := by
    rintro rfl
    simp [hadded] at hother
  simp [mem_sortRecords, hne]

theorem keepsOthers_rewrite (id : JsValue) (records : List Record)
    {update : Record → Record} (hid : ∀ record, (update record).id = record.id) :
    KeepsOthers id records (rewrite records id update).records := by
  intro record hother
  have hsame : ∀ old : Record, (update old).hasId id = old.hasId id := by
    intro old
    rw [Record.hasId, hid, ← Record.hasId]
  rw [rewrite, mem_sortRecords, List.mem_map]
  constructor
  · rintro ⟨old, hold, rfl⟩
    split
    · next hmatch =>
      rw [if_pos hmatch, hsame, hmatch] at hother
      simp at hother
    · exact hold
  · intro hrecord
    exact ⟨record, hrecord, by simp [hother]⟩

theorem removeRecord_keepsOthers (records : List Record) (id : JsValue) :
    KeepsOthers id records (removeRecord records id).records := by
  unfold removeRecord
  split
  · exact keepsOthers_unchanged id records none
  · intro record hother
    simp [mem_sortRecords, hother]

theorem addRecord_keepsOthers (records : List Record)
    (body id now title : JsValue) :
    KeepsOthers id records (addRecord records body id now title).records := by
  unfold addRecord
  split
  · next text idText time hbody hid hnow =>
    split
    · exact keepsOthers_unchanged id records none
    · exact keepsOthers_append (hasId_iff.mpr hid) records
  · exact keepsOthers_unchanged id records none

theorem updateRecord_keepsOthers (records : List Record) (id body now : JsValue) :
    KeepsOthers id records (updateRecord records id body now).records := by
  unfold updateRecord
  split
  · exact removeRecord_keepsOthers records id
  · split
    · exact keepsOthers_unchanged id records none
    · split
      · exact keepsOthers_unchanged id records none
      · split
        · exact keepsOthers_unchanged id records _
        · exact keepsOthers_rewrite id records fun _ => rfl

theorem readRecord_id {value : JsValue} {title : Text} {record : Record}
    (h : readRecord value title = some record) :
    stringOf ((value.field? (ascii "id")).getD .null) = some record.id := by
  unfold readRecord at h
  split at h
  · next id body createdAt updatedAt hid hbody hcreated hupdated =>
    split at h
    · obtain ⟨found, hfound, hstring⟩ := Option.bind_eq_some_iff.mp hid
      rw [← Option.some.inj h, hfound]
      exact hstring
    · simp at h
  · simp at h

theorem validRecord_id {value : JsValue} {record : Record}
    (h : validRecord value = some record) :
    stringOf ((value.field? (ascii "id")).getD .null) = some record.id := by
  unfold validRecord at h
  split at h
  · split at h
    · split at h
      · exact readRecord_id h
      · simp at h
    · simp at h
  · simp at h

/-- One operation keeps the invariant. -/
theorem Op.run_stored (op : Op) {records : List Record} (h : Stored records) :
    Stored (op.run records).records := by
  cases op with
  | addRecord body id now title => exact addRecord_stored h body id now title
  | updateRecord id body now => exact updateRecord_stored h id body now
  | updateTitleRecord id title now => exact updateTitleRecord_stored h id title now
  | applyGeneratedTitle id title => exact applyGeneratedTitle_stored h id title
  | removeRecord id => exact removeRecord_stored h id
  | restoreDeleted deleted => exact restoreDeleted_stored h deleted
  | commitDraft id body now newId => exact commitDraft_stored h id body now newId

/-- One operation touches only the record it names. -/
theorem Op.run_keepsOthers (op : Op) (records : List Record) :
    KeepsOthers op.target records (op.run records).records := by
  cases op with
  | addRecord body id now title => exact addRecord_keepsOthers records body id now title
  | updateRecord id body now => exact updateRecord_keepsOthers records id body now
  | updateTitleRecord id title now =>
      rw [Op.run, Notes.updateTitleRecord]
      split
      · exact keepsOthers_unchanged id records none
      · split
        · exact keepsOthers_unchanged id records none
        · dsimp only
          split
          · exact keepsOthers_unchanged id records _
          · exact keepsOthers_rewrite id records fun _ => rfl
  | applyGeneratedTitle id title =>
      rw [Op.run, Notes.applyGeneratedTitle]
      split
      · exact keepsOthers_unchanged id records none
      · split
        · exact keepsOthers_unchanged id records _
        · exact keepsOthers_rewrite id records fun _ => rfl
  | removeRecord id => exact removeRecord_keepsOthers records id
  | restoreDeleted deleted =>
      rw [Op.run, Notes.restoreDeleted]
      split
      · exact keepsOthers_unchanged _ records none
      · next record hrecord =>
        split
        · exact keepsOthers_unchanged _ records none
        · exact keepsOthers_append (hasId_iff.mpr (validRecord_id hrecord)) records
  | commitDraft id body now newId =>
      rw [Op.run, Op.target, Notes.commitDraft]
      by_cases hid : truthy id = true
      · rw [if_pos hid, if_pos hid, if_pos hid]
        split
        · exact removeRecord_keepsOthers records id
        · exact updateRecord_keepsOthers records id body now
      · rw [if_neg hid, if_neg hid, if_neg hid]
        split
        · exact keepsOthers_unchanged newId records none
        · exact addRecord_keepsOthers records body newId now .null

/-- The records after a sequence of operations. -/
def runAll (records : List Record) (ops : List Op) : List Record :=
  ops.foldl (fun records op => (op.run records).records) records

theorem runAll_stored {records : List Record} (h : Stored records)
    (ops : List Op) : Stored (runAll records ops) := by
  induction ops generalizing records with
  | nil => exact h
  | cons op ops ih => exact ih (op.run_stored h)

/-- After any operations on a readable state the records are valid, unique and
sorted, the file saved is read back as exactly them, and one more operation
changes no record but the one it names. -/
theorem notes_store_readable {text : Text} {state : State}
    (h : parseState text = .ok state) (ops : List Op) :
    (∀ record ∈ runAll state.records ops,
      validRecord record.toValue = some record) ∧
    ((runAll state.records ops).map Record.id).Nodup ∧
    (runAll state.records ops).Pairwise
      (fun left right => compareRecords left right ≤ 0) ∧
    (∃ saved, serializeState (runAll state.records ops) = .ok saved ∧
      parseState saved = .ok ⟨runAll state.records ops, false⟩) ∧
    ∀ op : Op, KeepsOthers op.target (runAll state.records ops)
      (op.run (runAll state.records ops)).records := by
  have hstored := runAll_stored (parseState_stored h) ops
  refine ⟨fun record hrecord => validRecord_toValue (hstored.valid record hrecord),
    hstored.ids, hstored.sorted, ⟨_, serializeState_stored hstored,
      parseState_serialized hstored⟩, fun op => op.run_keepsOthers _⟩

/-- An empty state file of the current schema. -/
def emptyState : Text := ascii "\x7b\"v\": 2, \"notes\": []\x7d"

/-- A note added and then retitled with nothing but blanks. -/
theorem notes_store_readable_retitled :
    ∃ saved, serializeState (runAll [] [.addRecord (.str (ascii "milk"))
        (.str (ascii "n1")) (natValue 5) (.str (ascii "  Shopping   list ")),
      .updateTitleRecord (.str (ascii "n1")) (.str (ascii " ")) (natValue 7)]) =
        .ok saved ∧
      parseState saved = .ok ⟨runAll [] [.addRecord (.str (ascii "milk"))
        (.str (ascii "n1")) (natValue 5) (.str (ascii "  Shopping   list ")),
      .updateTitleRecord (.str (ascii "n1")) (.str (ascii " ")) (natValue 7)],
        false⟩ :=
  have h : parseState emptyState = .ok ⟨[], false⟩ := by decide +kernel
  (notes_store_readable h _).2.2.2.1

end Notes

end CybexOS
