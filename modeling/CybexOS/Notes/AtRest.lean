/-
Runs of the Notes singleton: at rest everything is saved, every write is a real
one, and a generated title reaches only the note it was made for.
-/
import CybexOS.Notes.Runs
import CybexOS.Notes.Session
import CybexOS.Runs

namespace CybexOS

namespace Notes

open Json

/-! ### The laws -/

/-- The file holds the records; a file that is not there holds none. -/
def Session.Saved (s : Session) : Prop :=
  match s.view.stored with
  | some text => parseState text = .ok ⟨s.records, false⟩
  | none => s.records = []

/-- Nothing is going on and nothing went wrong. -/
structure Session.AtRest (s : Session) : Prop where
  ready : s.ready = true
  idle : s.writeInFlight = false
  saveTimer : s.saveTimer = false
  queuedSave : s.queuedSave = false
  errorKind : s.errorKind = .none

/-- No call of `setText` repeats what the view held or interrupts a write. -/
def Session.WritesApart (s : Session) : Prop :=
  ∀ call ∈ s.view.calls, call.text ≠ call.held ∧ call.busy = false

def Session.requests (s : Session) : List Request := s.titleQueue ++ s.activeTitleRequest.toList

/-- The request has the id, title and body of the note and the provider that is
set. -/
structure Session.Matches (s : Session) (request : Request) (record : Record) : Prop where
  mem : record ∈ s.records
  id : record.id = request.id
  title : record.title = request.title
  body : record.body = request.body
  provider : s.options.titleProvider = request.provider

/-- Requests capture a note; when the helper stops, at most the title of the
note of its request changes, and only if what was captured still matches. -/
structure TitleLaw (s : Session) (event : Event) : Prop where
  captured : ∀ request ∈ (s.step event).requests,
    request ∈ s.requests ∨ ∃ record, s.Matches request record
  applied : ∀ exitSeen exitCode output, event = .titleProcStopped exitSeen exitCode output →
    (s.step event).records = s.records ∨
      ∃ request record, s.activeTitleRequest = some request ∧ s.Matches request record ∧
        KeepsOthers (.str request.id) s.records (s.step event).records ∧
        ∀ after ∈ (s.step event).records, after.id = request.id →
          ∃ title, after = { record with title := title }

/-! ### The invariant -/

/-- What each of the guards of a save stands for. -/
structure Session.Sound (s : Session) : Prop where
  records : Stored s.records
  loading : s.view.loading = true → s.ready = false
  blocked : s.errorKind = .load → s.ready = false
  unread : s.ready = false → ∀ state, parseState s.view.text ≠ .ok state
  writing : s.view.writing = if s.writeInFlight then some s.writeSnapshot else none
  flight : s.writeInFlight = true →
    s.ready = true ∧ s.dirty = true ∧ s.view.text = s.writeSnapshot
  held : s.writeInFlight = false →
    s.view.text = s.storeText ∨ ∀ state, parseState s.view.text ≠ .ok state
  persisted : s.ready = true → s.view.stored = some s.persistedText ∨
    s.view.stored = none ∧ s.persistedText = []
  saved : s.ready = true → s.dirty = false → s.Saved
  calls : s.WritesApart

/-- Changes are being saved, about to be saved, or held by an error. -/
structure Session.Kept (s : Session) : Prop extends s.Sound where
  armed : s.ready = true → s.dirty = true → s.writeInFlight = true ∨ s.saveTimer = true ∨
    s.queuedSave = true ∨ s.errorKind ≠ .none

theorem Session.Kept.rest {s : Session} (h : s.Kept) (hrest : s.AtRest) :
    s.dirty = false ∧ s.Saved := by
  have hclean : s.dirty = false := by
    refine Bool.not_eq_true _ ▸ fun hdirty => ?_
    rcases h.armed hrest.ready hdirty with hflight | htimer | hqueued | herror
    · rw [hrest.idle] at hflight
      cases hflight
    · rw [hrest.saveTimer] at htimer
      cases htimer
    · rw [hrest.queuedSave] at hqueued
      cases hqueued
    · exact herror hrest.errorKind
  exact ⟨hclean, h.saved hrest.ready hclean⟩

/-! ### Edits and titles -/

/-- The session without what saving does not look at. -/
def Session.untitled (s : Session) : Session :=
  { s with
    deletedRecord := none
    titleStates := []
    titleQueue := []
    activeTitleRequest := none
    titleRequestCounter := 0
    titleProcRunning := false
    options := ⟨[], [], [], [], []⟩ }

/-- Nothing that saving looks at has changed, or the records have. -/
def Session.Edited (s t : Session) : Prop :=
  t.untitled = s.untitled ∨
    ∃ outcome, Stored outcome.records ∧ t.untitled = (s.put outcome).untitled

theorem Session.Kept.of_untitled {s t : Session} (h : s.Kept) (heq : t.untitled = s.untitled) :
    t.Kept := by
  have hback : s.untitled.Kept := ⟨⟨h.records, h.loading, h.blocked, h.unread, h.writing, h.flight,
    h.held, h.persisted, h.saved, h.calls⟩, h.armed⟩
  rw [← heq] at hback
  exact ⟨⟨hback.records, hback.loading, hback.blocked, hback.unread, hback.writing, hback.flight,
    hback.held, hback.persisted, hback.saved, hback.calls⟩, hback.armed⟩

/-- Changed records are dirty, and the timer runs unless an error holds it. -/
theorem Session.Kept.put {s : Session} (h : s.Kept) {outcome : Outcome}
    (hstored : Stored outcome.records) : (s.put outcome).Kept where
  records := hstored
  loading := h.loading
  blocked := h.blocked
  unread := h.unread
  writing := h.writing
  flight := fun hflight => ⟨(h.flight hflight).1, rfl, (h.flight hflight).2.2⟩
  held := h.held
  persisted := h.persisted
  armed := by
    intro _ _
    by_cases herror : s.errorKind = .none
    · refine Or.inr (Or.inl ?_)
      simp [Session.put, Session.markDirty, herror]
    · exact Or.inr (Or.inr (Or.inr herror))
  saved := fun _ hclean => by cases hclean
  calls := h.calls

theorem Session.Kept.edited {s t : Session} (h : s.Kept) (hedit : s.Edited t) : t.Kept := by
  rcases hedit with hsame | ⟨outcome, hstored, hput⟩
  · exact h.of_untitled hsame
  · exact (h.put hstored).of_untitled hput

section

variable {s : Session} (h : Stored s.records)

include h

theorem Session.add_edited (body title id : Text) (now : Nat) :
    s.Edited (s.add body title id now) := by
  unfold Session.add
  simp only
  split_ifs
  · exact Or.inl rfl
  · exact Or.inr ⟨_, addRecord_stored h _ _ _ _, rfl⟩

theorem Session.remove_edited (id : Text) : s.Edited (s.remove id) := by
  unfold Session.remove
  simp only
  split_ifs
  · exact Or.inl rfl
  · exact Or.inr ⟨_, removeRecord_stored h _, rfl⟩

theorem Session.update_edited (id body : Text) (now : Nat) :
    s.Edited (s.update id body now) := by
  unfold Session.update
  simp only
  split_ifs
  · exact Or.inl rfl
  · exact s.remove_edited h id
  · exact Or.inl rfl
  · exact Or.inr ⟨_, updateRecord_stored h _ _ _, rfl⟩

theorem Session.updateTitle_edited (id title : Text) (now : Nat) :
    s.Edited (s.updateTitle id title now) := by
  unfold Session.updateTitle
  simp only
  split_ifs
  · exact Or.inl rfl
  · exact Or.inl rfl
  · exact Or.inr ⟨_, updateTitleRecord_stored h _ _ _, rfl⟩

theorem Session.undoDelete_edited : s.Edited s.undoDelete := by
  unfold Session.undoDelete
  cases s.deletedRecord with
  | none => exact Or.inl rfl
  | some deleted =>
      simp only
      split_ifs
      · exact Or.inl rfl
      · exact Or.inr ⟨_, restoreDeleted_stored h _, rfl⟩

end

theorem Session.requestTitle_untitled (s : Session) (id : Text) :
    (s.requestTitle id).untitled = s.untitled := by
  unfold Session.requestTitle
  simp only
  split_ifs
  · rfl
  · rfl
  · split <;> rfl

theorem Session.retryTitle_untitled (s : Session) (id : Text) :
    (s.retryTitle id).untitled = s.untitled := by
  unfold Session.retryTitle
  split_ifs
  · rfl
  · rw [requestTitle_untitled]
    rfl

theorem Session.dropTitleState_untitled (s : Session) (request : Request) :
    (s.dropTitleState request).untitled = s.untitled := by
  unfold Session.dropTitleState
  split_ifs <;> rfl

theorem Session.startTitle_untitled (s : Session) (queue : List Request) :
    (s.startTitle queue).untitled = s.untitled := by
  induction queue generalizing s with
  | nil => rfl
  | cons request queue ih =>
      unfold Session.startTitle
      split_ifs
      · rw [ih, dropTitleState_untitled]
      · rfl

theorem Session.pumpTitleQueue_untitled (s : Session) :
    s.pumpTitleQueue.untitled = s.untitled := by
  unfold Session.pumpTitleQueue
  split_ifs
  · rfl
  · exact s.startTitle_untitled s.titleQueue

theorem Session.settleTitleRequest_edited {s : Session} (h : Stored s.records) (exitSeen : Bool)
    (exitCode : ℤ) (output : Text) : s.Edited (s.settleTitleRequest exitSeen exitCode output) := by
  unfold Session.settleTitleRequest
  cases s.activeTitleRequest with
  | none => exact Or.inl rfl
  | some request =>
      simp only
      split_ifs
      · exact Or.inl (dropTitleState_untitled _ _)
      · split
        · next title htitle =>
          by_cases hchanged :
              (applyGeneratedTitle s.records (.str request.id) (.str title)).changed = true
          · refine Or.inr ⟨_, applyGeneratedTitle_stored h (.str request.id) (.str title), ?_⟩
            rw [if_pos hchanged]
            rfl
          · refine Or.inl ?_
            rw [if_neg hchanged]
            rfl
        · exact Or.inl rfl

theorem Session.titleProcStopped_edited {s : Session} (h : Stored s.records) (exitSeen : Bool)
    (exitCode : ℤ) (output : Text) : s.Edited (s.titleProcStopped exitSeen exitCode output) := by
  unfold Session.titleProcStopped
  split_ifs
  · exact settleTitleRequest_edited (s := { s with titleProcRunning := false }) h _ _ _
  · exact Or.inl rfl

/-! ### Saves -/

/-- What may be written for the records: their text, or with one more line. -/
def IsTextOf (text : Text) (records : List Record) : Prop :=
  ∃ next, serializeState records = .ok next ∧ (text = next ∨ text = next ++ [10])

theorem IsTextOf.parseState {text : Text} {records : List Record} (h : Stored records)
    (htext : IsTextOf text records) : parseState text = .ok ⟨records, false⟩ := by
  obtain ⟨next, hnext, hcase⟩ := htext
  rw [serializeState_stored h, Except.ok.injEq] at hnext
  subst hnext
  rcases hcase with rfl | rfl
  · exact parseState_serialized h
  · rw [List.append_assoc]
    exact parseState_stateValue h rfl

theorem isTextOf_of_sameContent {next text : Text} {records : List Record}
    (hnext : serializeState records = .ok next) (hsame : sameContent next text = true) :
    IsTextOf text records := by
  unfold sameContent at hsame
  rw [Bool.or_eq_true, decide_eq_true_eq, decide_eq_true_eq] at hsame
  exact ⟨next, hnext, hsame.imp Eq.symm Eq.symm⟩

/-- A write of the view has ended, and its handler has not run yet. -/
structure Session.WriteEnded (s : Session) : Prop where
  records : Stored s.records
  ready : s.ready = true
  loading : s.view.loading = false
  writing : s.view.writing = none
  text : s.view.text = s.writeSnapshot
  calls : s.WritesApart

/-- A failed write leaves an error and the changes to save. -/
theorem Session.WriteEnded.failed {s : Session} (h : s.WriteEnded)
    (hpersisted : s.view.stored = some s.persistedText ∨
      s.view.stored = none ∧ s.persistedText = []) : s.handleSaveFailure.Kept where
  records := h.records
  loading := fun hloading => by
    have hidle := h.loading
    rw [Session.handleSaveFailure] at hloading
    rw [hidle] at hloading
    cases hloading
  blocked := fun herror => by cases herror
  unread := fun hready => by
    have hthere := h.ready
    rw [Session.handleSaveFailure] at hready
    rw [hthere] at hready
    cases hready
  writing := h.writing
  flight := fun hflight => by cases hflight
  held := fun _ => Or.inl h.text
  persisted := fun _ => hpersisted
  armed := fun _ _ => Or.inr (Or.inr (Or.inr fun herror => by cases herror))
  saved := fun _ hclean => by cases hclean
  calls := h.calls

/-- After a successful write what has changed meanwhile is saved next. -/
theorem Session.WriteEnded.succeeded {s : Session} (h : s.WriteEnded)
    (hstored : s.view.stored = some s.writeSnapshot) : s.handleSaveSucceeded.Kept := by
  have hnext := serializeState_stored h.records
  have hready := h.ready
  have hloading := h.loading
  have hkept : ∀ (dirty flushRequested saveTimer queuedSave : Bool),
      (dirty = true → saveTimer = true ∨ queuedSave = true) → (dirty = false → s.Saved) →
      Session.Kept { s with
        persistedText := s.writeSnapshot
        storeText := s.writeSnapshot
        writeSnapshot := []
        writeInFlight := false
        errorKind := .none
        dirty := dirty
        flushRequested := flushRequested
        saveTimer := saveTimer
        queuedSave := queuedSave } := by
    intro dirty flushRequested saveTimer queuedSave harmed hsaved
    refine ⟨⟨h.records, ?_, ?_, ?_, h.writing, ?_, fun _ => Or.inl h.text,
      fun _ => Or.inl hstored, fun _ => hsaved, h.calls⟩, fun _ hdirty => ?_⟩
    · simp [hloading]
    · simp
    · simp [hready]
    · simp
    · exact Or.inr ((harmed hdirty).imp_right Or.inl)
  unfold Session.handleSaveSucceeded
  simp only [hnext]
  split_ifs with hsame hflush
  · refine hkept false false s.saveTimer s.queuedSave (fun hdirty => by cases hdirty) fun _ => ?_
    rw [Session.Saved, hstored]
    exact (isTextOf_of_sameContent hnext hsame).parseState h.records
  · exact hkept true false s.saveTimer true (fun _ => Or.inr rfl) fun hclean => by cases hclean
  · exact hkept true s.flushRequested true s.queuedSave (fun _ => Or.inl rfl)
      fun hclean => by cases hclean

/-- The text of a save is neither what the view holds nor unreadable. -/
theorem Session.Sound.snapshot {s : Session} (h : s.Sound) (hidle : s.writeInFlight = false)
    {next : Text} (hnext : serializeState s.records = .ok next) :
    IsTextOf (if next = s.storeText then next ++ [10] else next) s.records ∧
      (if next = s.storeText then next ++ [10] else next) ≠ s.view.text := by
  have htext : IsTextOf (if next = s.storeText then next ++ [10] else next) s.records := by
    refine ⟨next, hnext, ?_⟩
    split_ifs
    · exact Or.inr rfl
    · exact Or.inl rfl
  refine ⟨htext, fun heq => ?_⟩
  rcases h.held hidle with hheld | hheld
  · rw [hheld] at heq
    split_ifs at heq with hsame
    · rw [← hsame] at heq
      simpa using congrArg List.length heq
    · exact hsame heq
  · rw [heq] at htext
    exact hheld _ (htext.parseState h.records)

/-- A save calls `setText` apart from what the view held, while it is idle. -/
theorem Session.Sound.writesApart {s : Session} (h : s.Sound) (hidle : s.writeInFlight = false)
    {text : Text} (hapart : text ≠ s.view.text) (throws : Bool) :
    ∀ call ∈ (s.view.setText text throws).calls, call.text ≠ call.held ∧ call.busy = false := by
  intro call hcall
  rcases List.mem_append.mp hcall with hold | hnew
  · exact h.calls call hold
  · rw [List.mem_singleton.mp hnew]
    refine ⟨hapart, ?_⟩
    rw [h.writing, hidle]
    rfl

/-- The state in which `saveNow` has called `setText`. -/
def Session.saving (s : Session) (text : Text) (throws : Bool) : Session :=
  { s with
    writeSnapshot := text
    writeInFlight := true
    view := s.view.setText text throws }

section

variable {s : Session} (h : s.Sound) (hready : s.ready = true) (hidle : s.writeInFlight = false)
  {text : Text} (hapart : text ≠ s.view.text)

include h hready hidle hapart

theorem Session.Sound.saving (hdirty : s.dirty = true) : (s.saving text false).Kept where
  records := h.records
  loading := h.loading
  blocked := h.blocked
  unread := fun hunready => by
    rw [show (s.saving text false).ready = s.ready from rfl, hready] at hunready
    cases hunready
  writing := by simp [Session.saving, FileView.setText, hapart]
  flight := fun _ => ⟨hready, hdirty, rfl⟩
  held := fun hflight => by cases hflight
  persisted := h.persisted
  armed := fun _ _ => Or.inl rfl
  saved := fun _ hclean => by
    rw [show (s.saving text false).dirty = s.dirty from rfl, hdirty] at hclean
    cases hclean
  calls := h.writesApart hidle hapart false

theorem Session.Sound.threw : (s.saving text true).WriteEnded where
  records := h.records
  ready := hready
  loading := by
    refine Bool.eq_false_iff.mpr fun hloading => ?_
    have hunready := h.loading hloading
    rw [hready] at hunready
    cases hunready
  writing := by
    have hwriting := h.writing
    rw [hidle] at hwriting
    simpa [Session.saving, FileView.setText] using hwriting
  text := rfl
  calls := h.writesApart hidle hapart true

end

/-- The file holds the records already, so there is nothing to save. -/
theorem Session.Sound.clean {s : Session} (h : s.Sound) (hready : s.ready = true)
    (hidle : s.writeInFlight = false) {next : Text} (hnext : serializeState s.records = .ok next)
    (hsame : sameContent next s.persistedText = true) :
    Session.Kept { s with dirty := false, flushRequested := false } := by
  have htext := (isTextOf_of_sameContent hnext hsame).parseState h.records
  have hsaved : s.Saved := by
    unfold Session.Saved
    rcases h.persisted hready with hstored | ⟨-, hempty⟩
    · rw [hstored]
      exact htext
    · rw [hempty] at htext
      cases htext
  refine ⟨⟨h.records, h.loading, h.blocked, h.unread, h.writing, fun hflight => ?_, h.held,
    h.persisted, fun _ _ => hsaved, h.calls⟩, fun _ hdirty => ?_⟩
  · rw [show s.writeInFlight = true from hflight] at hidle
    cases hidle
  · cases hdirty

/-- What `saveNow` does not save needs no saving, or is held or being saved. -/
theorem Session.Sound.saveNow {s : Session} (h : s.Sound) (throws : Bool) :
    (s.saveNow throws).Kept := by
  unfold Session.saveNow
  by_cases hskip : (!s.ready || !s.dirty || s.writeInFlight || s.errorKind ≠ .none) = true
  · rw [if_pos hskip]
    refine ⟨h, fun hready hdirty => ?_⟩
    simp only [hready, hdirty, Bool.not_true, Bool.false_or, Bool.or_eq_true,
      decide_eq_true_eq] at hskip
    exact hskip.imp_right fun herror => Or.inr (Or.inr herror)
  rw [if_neg hskip]
  simp only [Bool.or_eq_true, Bool.not_eq_true', decide_eq_true_eq, not_or, Bool.not_eq_false,
    Bool.not_eq_true, ne_eq, not_not] at hskip
  obtain ⟨⟨⟨hready, hdirty⟩, hidle⟩, -⟩ := hskip
  have hnext := serializeState_stored h.records
  rw [hnext]
  simp only
  by_cases hsame : sameContent (jsonStringify (stateValue s.records) ++ [10]) s.persistedText = true
  · rw [if_pos hsame]
    exact h.clean hready hidle hnext hsame
  · rw [if_neg hsame]
    obtain ⟨-, hapart⟩ := h.snapshot hidle hnext
    cases throws with
    | true => exact (h.threw hready hidle hapart).failed (h.persisted hready)
    | false => exact h.saving hready hidle hapart hdirty

theorem Session.Sound.flush {s : Session} (h : s.Sound) (throws : Bool) :
    (s.flush throws).Kept := by
  have hstopped : Session.Sound { s with saveTimer := false } := ⟨h.records, h.loading, h.blocked,
    h.unread, h.writing, h.flight, h.held, h.persisted, h.saved, h.calls⟩
  unfold Session.flush
  simp only
  split_ifs with hclean hflight
  · refine ⟨hstopped, fun _ hdirty => ?_⟩
    rw [show s.dirty = true from hdirty] at hclean
    cases hclean
  · refine ⟨⟨h.records, h.loading, h.blocked, h.unread, h.writing, h.flight, h.held, h.persisted,
      h.saved, h.calls⟩, fun _ _ => Or.inl hflight⟩
  · exact hstopped.saveNow throws

theorem Session.Kept.retrySave {s : Session} (h : s.Kept) (throws : Bool) :
    (s.retrySave throws).Kept := by
  unfold Session.retrySave
  simp only
  split_ifs with hload
  · have hunready : s.ready = false := by
      rw [Bool.or_eq_true, Bool.not_eq_true', decide_eq_true_eq] at hload
      exact hload.elim id h.blocked
    refine ⟨⟨h.records, fun _ => hunready, fun _ => hunready, h.unread, h.writing, h.flight, h.held,
      h.persisted, h.saved, h.calls⟩, fun hready => ?_⟩
    rw [show s.ready = true from hready] at hunready
    cases hunready
  · have hsound : Session.Sound { s with errorKind := .none } := by
      refine ⟨h.records, h.loading, fun herror => ?_, h.unread, h.writing, h.flight, h.held,
        h.persisted, h.saved, h.calls⟩
      cases herror
    exact hsound.flush throws

/-- The view's write ends while the session is as when it began. -/
theorem Session.Kept.written {s : Session} (h : s.Kept) (succeeded : Bool) :
    (s.written succeeded).Kept := by
  unfold Session.written
  cases hwriting : s.view.writing with
  | none => exact h
  | some text =>
      have hboth := h.writing
      rw [hwriting] at hboth
      split_ifs at hboth with hflight
      obtain rfl := Option.some.inj hboth
      obtain ⟨hready, -, htext⟩ := h.flight hflight
      have hidle : s.view.loading = false := by
        refine Bool.eq_false_iff.mpr fun hloading => ?_
        have hunready := h.loading hloading
        rw [hready] at hunready
        cases hunready
      simp only
      split_ifs with hsucceeded
      · have hended : Session.WriteEnded { s with
            view := { s.view with writing := none, stored := some s.writeSnapshot } } :=
          ⟨h.records, hready, hidle, rfl, htext, h.calls⟩
        exact hended.succeeded rfl
      · have hended : Session.WriteEnded { s with view := { s.view with writing := none } } :=
          ⟨h.records, hready, hidle, rfl, htext, h.calls⟩
        exact hended.failed (h.persisted hready)

/-! ### Loads -/

/-- The file has been read, or is not there. -/
theorem Session.Kept.read {s : Session} (h : s.Kept) (reading : Reading) :
    (s.read reading).Kept := by
  unfold Session.read
  split_ifs with hloading
  · exact h
  rw [Bool.not_eq_true', Bool.not_eq_false] at hloading
  have hunready := h.loading hloading
  have hidle : s.writeInFlight = false := by
    refine Bool.eq_false_iff.mpr fun hflight => ?_
    rw [(h.flight hflight).1] at hunready
    cases hunready
  have hwriting : s.view.writing = none := by
    rw [h.writing, hidle]
    rfl
  have hnone : s.view.writing = if s.writeInFlight then some s.writeSnapshot else none := h.writing
  cases reading with
  | text rawText =>
      simp only [Session.applyLoaded]
      cases hparsed : parseState rawText with
      | error message =>
          refine ⟨⟨h.records, fun _ => rfl, fun _ => rfl, fun _ state => ?_, hnone, fun hflight => ?_,
            fun _ => Or.inl rfl, fun _ => Or.inl rfl, fun hready => ?_, h.calls⟩, fun hready => ?_⟩
          · simp [hparsed]
          · rw [show s.writeInFlight = true from hflight] at hidle
            cases hidle
          · cases hready
          · cases hready
      | ok parsed =>
          refine ⟨⟨parseState_stored hparsed, fun hagain => ?_, fun herror => ?_, fun hready => ?_,
            hnone, fun hflight => ?_, fun _ => Or.inl rfl, fun _ => Or.inl rfl, fun _ hclean => ?_,
            h.calls⟩, fun _ hdirty => ?_⟩
          · cases hagain
          · cases herror
          · cases hready
          · rw [show s.writeInFlight = true from hflight] at hidle
            cases hidle
          · rw [Session.Saved]
            simp only
            rw [hparsed, ← show parsed.migrated = false from hclean]
          · refine Or.inr (Or.inl ?_)
            simp [show parsed.migrated = true from hdirty]
  | notFound =>
      simp only [Session.handleLoadFailure, if_true]
      refine ⟨⟨⟨by simp, List.nodup_nil, List.Pairwise.nil⟩, fun hagain => ?_, fun herror => ?_,
        fun hready => ?_, hnone, fun hflight => ?_, fun _ => Or.inr (h.unread hunready),
        fun _ => Or.inr ⟨rfl, rfl⟩, fun _ _ => rfl, h.calls⟩, fun _ hdirty => ?_⟩
      · cases hagain
      · cases herror
      · cases hready
      · rw [show s.writeInFlight = true from hflight] at hidle
        cases hidle
      · cases hdirty
  | failed =>
      simp only [Session.handleLoadFailure, Bool.false_eq_true, if_false]
      refine ⟨⟨h.records, fun _ => rfl, fun _ => rfl, fun _ => h.unread hunready, hnone,
        fun hflight => ?_, fun _ => Or.inr (h.unread hunready), fun hready => ?_, fun hready => ?_,
        h.calls⟩, fun hready => ?_⟩
      · rw [show s.writeInFlight = true from hflight] at hidle
        cases hidle
      · cases hready
      · cases hready
      · cases hready

/-! ### Runs -/

theorem Session.initial_kept (options : Options) : (Session.initial options).Kept := by
  refine ⟨⟨⟨?_, List.nodup_nil, List.Pairwise.nil⟩, fun _ => rfl, fun _ => rfl, fun _ state => ?_,
    rfl, fun hflight => ?_, fun _ => Or.inl rfl, fun hready => ?_, fun hready => ?_, ?_⟩,
    fun hready => ?_⟩
  · intro record hrecord
    cases hrecord
  · intro himpossible
    cases himpossible
  · cases hflight
  · cases hready
  · cases hready
  · intro call hcall
    cases hcall
  · cases hready

/-- One event keeps the invariant. -/
theorem Session.Kept.step {s : Session} (h : s.Kept) (event : Event) : (s.step event).Kept := by
  cases event with
  | add body title id now => exact h.edited (s.add_edited h.records body title id now)
  | update id body now => exact h.edited (s.update_edited h.records id body now)
  | updateTitle id title now => exact h.edited (s.updateTitle_edited h.records id title now)
  | remove id => exact h.edited (s.remove_edited h.records id)
  | undoDelete => exact h.edited (s.undoDelete_edited h.records)
  | undoTimeout => exact h.of_untitled rfl
  | requestTitle id => exact h.of_untitled (s.requestTitle_untitled id)
  | retryTitle id => exact h.of_untitled (s.retryTitle_untitled id)
  | pumpTitleQueue => exact h.of_untitled s.pumpTitleQueue_untitled
  | titleProcStopped exitSeen exitCode output =>
      exact h.edited (Session.titleProcStopped_edited h.records exitSeen exitCode output)
  | retrySave throws => exact h.retrySave throws
  | flush throws => exact h.flush throws
  | saveTimeout throws =>
      rw [Session.step]
      split_ifs
      · have hsound : Session.Sound { s with saveTimer := false } := ⟨h.records, h.loading,
          h.blocked, h.unread, h.writing, h.flight, h.held, h.persisted, h.saved, h.calls⟩
        exact hsound.saveNow throws
      · exact h
  | queuedSave throws =>
      rw [Session.step]
      split_ifs
      · have hsound : Session.Sound { s with queuedSave := false } := ⟨h.records, h.loading,
          h.blocked, h.unread, h.writing, h.flight, h.held, h.persisted, h.saved, h.calls⟩
        exact hsound.saveNow throws
      · exact h
  | written succeeded => exact h.written succeeded
  | read reading => exact h.read reading
  | setOptions options => exact h.of_untitled rfl

/-! ### Generated titles -/

theorem mem_of_findRecord {records : List Record} {id : Text} {record : Record}
    (h : findRecord records (.str id) = some record) : record ∈ records ∧ record.id = id := by
  have hid : record.hasId (.str id) = true :=
    @List.find?_some _ (fun record : Record => record.hasId (.str id)) _ _ h
  exact ⟨List.mem_of_find?_eq_some h, (Option.some.inj (hasId_iff.mp hid)).symm⟩

/-- A captured request is of the note it was captured from. -/
theorem Session.matches_of_capture {s : Session} (h : Stored s.records) {id : Text} {token : Nat}
    {model effort : Text} {request : Request}
    (hcapture : captureTitleRequest (findRecord s.records (.str id)) s.options.titleProvider model
      effort token = some request) :
    request.id = id ∧ ∃ record, s.Matches request record := by
  unfold captureTitleRequest at hcapture
  cases hfound : findRecord s.records (.str id) with
  | none =>
      rw [hfound] at hcapture
      cases hcapture
  | some record =>
      obtain ⟨hmem, hid⟩ := mem_of_findRecord hfound
      rw [hfound, Option.bind_some, validRecord_toValue (h.valid record hmem)] at hcapture
      simp only at hcapture
      split_ifs at hcapture with hbad
      obtain rfl := Option.some.inj hcapture
      exact ⟨hid, record, hmem, rfl, rfl, rfl, rfl⟩

theorem Session.matches_of_current {s : Session} {request : Request}
    (h : s.titleRequestIsCurrent request = true) : ∃ record, s.Matches request record := by
  unfold Session.titleRequestIsCurrent titleRequestCurrent at h
  simp only [Bool.and_eq_true, decide_eq_true_eq] at h
  obtain ⟨⟨⟨hprovider, -⟩, -⟩, hfound⟩ := h
  rw [Option.any_eq_true] at hfound
  obtain ⟨record, hrecord, htexts⟩ := hfound
  rw [Bool.and_eq_true, decide_eq_true_eq, decide_eq_true_eq] at htexts
  obtain ⟨hmem, hid⟩ := mem_of_findRecord hrecord
  exact ⟨record, hmem, hid, htexts.1, htexts.2, hprovider.symm⟩

/-- A generated title changes the title of its note and nothing else. -/
theorem applyGeneratedTitle_spec {records : List Record} (h : Stored records) {id title : Text}
    {record : Record} (hrecord : record ∈ records) (hid : record.id = id) :
    KeepsOthers (.str id) records (applyGeneratedTitle records (.str id) (.str title)).records ∧
      ∀ after ∈ (applyGeneratedTitle records (.str id) (.str title)).records, after.id = id →
        ∃ title, after = { record with title := title } := by
  refine ⟨Op.run_keepsOthers (.applyGeneratedTitle (.str id) (.str title)) records,
    fun after hafter hsame => ?_⟩
  have hunique : ∀ old ∈ records, old.id = id → old = record := fun old hold holdId =>
    List.inj_on_of_nodup_map h.ids hold hrecord (holdId.trans hid.symm)
  have hkept : after ∈ records → ∃ title, after = { record with title := title } := by
    intro hold
    rw [hunique after hold hsame]
    exact ⟨record.title, rfl⟩
  unfold applyGeneratedTitle at hafter
  split at hafter
  · exact hkept (mem_sortRecords.mp hafter)
  · simp only at hafter
    split_ifs at hafter with hskip
    · exact hkept (mem_sortRecords.mp hafter)
    · obtain ⟨old, hold, rfl⟩ := List.mem_map.mp (mem_sortRecords.mp hafter)
      by_cases hmine : old.hasId (.str id) = true
      · rw [if_pos hmine]
        rw [hunique old hold (Option.some.inj (hasId_iff.mp hmine)).symm]
        exact ⟨_, rfl⟩
      · rw [if_neg hmine] at hsame ⊢
        rw [hunique old hold hsame]
        exact ⟨record.title, rfl⟩

theorem Session.dropTitleState_records (s : Session) (request : Request) :
    (s.dropTitleState request).records = s.records := by
  unfold Session.dropTitleState
  split_ifs <;> rfl

theorem Session.dropTitleState_requests (s : Session) (request : Request) :
    (s.dropTitleState request).requests = s.requests := by
  unfold Session.dropTitleState
  split_ifs <;> rfl

theorem Session.titleProcStopped_applied {s : Session} (h : Stored s.records) (exitSeen : Bool)
    (exitCode : ℤ) (output : Text) :
    (s.titleProcStopped exitSeen exitCode output).records = s.records ∨
      ∃ request record, s.activeTitleRequest = some request ∧ s.Matches request record ∧
        KeepsOthers (.str request.id) s.records
          (s.titleProcStopped exitSeen exitCode output).records ∧
        ∀ after ∈ (s.titleProcStopped exitSeen exitCode output).records, after.id = request.id →
          ∃ title, after = { record with title := title } := by
  unfold Session.titleProcStopped
  split_ifs with hrunning
  · unfold Session.settleTitleRequest
    simp only
    cases hactive : s.activeTitleRequest with
    | none => exact Or.inl rfl
    | some request =>
        simp only
        split_ifs with hstale
        · exact Or.inl (dropTitleState_records _ _)
        rw [Bool.or_eq_true, Bool.not_eq_true', Bool.not_eq_true', not_or, Bool.not_eq_false,
          Bool.not_eq_false] at hstale
        obtain ⟨record, hmem, hid, htitle, hbody, hprovider⟩ := matches_of_current hstale.2
        split
        · next title _ =>
          by_cases hchanged :
              (applyGeneratedTitle s.records (.str request.id) (.str title)).changed = true
          · rw [if_pos hchanged]
            exact Or.inr ⟨request, record, rfl, ⟨hmem, hid, htitle, hbody, hprovider⟩,
              applyGeneratedTitle_spec h hmem hid⟩
          · rw [if_neg hchanged]
            exact Or.inl rfl
        · exact Or.inl rfl
  · exact Or.inl rfl

/-! ### Requests -/

/-- No request has been added. -/
def Session.Fewer (s t : Session) : Prop := ∀ request ∈ t.requests, request ∈ s.requests

theorem Session.fewer_refl (s : Session) : s.Fewer s := fun _ h => h

theorem Session.invalidateTitleRequest_fewer (s : Session) (id : Text) :
    s.Fewer (s.invalidateTitleRequest id) := by
  intro request hrequest
  rcases List.mem_append.mp hrequest with hqueue | hactive
  · exact List.mem_append_left _ (List.mem_filter.mp hqueue).1
  · exact List.mem_append_right _ hactive

theorem Session.add_fewer (s : Session) (body title id : Text) (now : Nat) :
    s.Fewer (s.add body title id now) := by
  unfold Session.add
  simp only
  split_ifs
  · exact s.fewer_refl
  · exact s.fewer_refl

theorem Session.remove_fewer (s : Session) (id : Text) : s.Fewer (s.remove id) := by
  unfold Session.remove
  simp only
  split_ifs
  · exact s.fewer_refl
  · exact s.invalidateTitleRequest_fewer id

theorem Session.update_fewer (s : Session) (id body : Text) (now : Nat) :
    s.Fewer (s.update id body now) := by
  unfold Session.update
  simp only
  split_ifs
  · exact s.fewer_refl
  · exact s.remove_fewer id
  · exact s.fewer_refl
  · exact s.invalidateTitleRequest_fewer id

theorem Session.updateTitle_fewer (s : Session) (id title : Text) (now : Nat) :
    s.Fewer (s.updateTitle id title now) := by
  unfold Session.updateTitle
  simp only
  split_ifs
  · exact s.fewer_refl
  · exact s.invalidateTitleRequest_fewer id
  · exact s.invalidateTitleRequest_fewer id

theorem Session.undoDelete_fewer (s : Session) : s.Fewer s.undoDelete := by
  unfold Session.undoDelete
  cases s.deletedRecord with
  | none => exact s.fewer_refl
  | some deleted =>
      simp only
      split_ifs
      · exact s.fewer_refl
      · exact s.fewer_refl

/-- Starting a title moves a request from the queue. -/
theorem Session.startTitle_requests {s : Session} {queue : List Request}
    (hqueue : ∀ request ∈ queue, request ∈ s.requests) {request : Request}
    (h : request ∈ (s.startTitle queue).requests) : request ∈ s.requests := by
  induction queue generalizing s with
  | nil => exact List.mem_append_right _ h
  | cons first queue ih =>
      unfold Session.startTitle at h
      split_ifs at h
      · have hdropped := s.dropTitleState_requests first
        rw [← hdropped]
        refine ih (fun other hother => ?_) h
        rw [hdropped]
        exact hqueue other (List.mem_cons_of_mem _ hother)
      · rcases List.mem_append.mp h with hrest | hactive
        · exact hqueue request (List.mem_cons_of_mem _ hrest)
        · rw [List.mem_singleton.mp hactive]
          exact hqueue first List.mem_cons_self

theorem Session.pumpTitleQueue_fewer (s : Session) : s.Fewer s.pumpTitleQueue := by
  intro request hrequest
  unfold Session.pumpTitleQueue at hrequest
  split_ifs at hrequest
  · exact hrequest
  · exact startTitle_requests (fun _ h => List.mem_append_left _ h) hrequest

theorem Session.titleProcStopped_fewer (s : Session) (exitSeen : Bool) (exitCode : ℤ)
    (output : Text) : s.Fewer (s.titleProcStopped exitSeen exitCode output) := by
  unfold Session.titleProcStopped
  split_ifs with hrunning
  · unfold Session.settleTitleRequest
    simp only
    cases hactive : s.activeTitleRequest with
    | none => exact fun _ h => by simpa [Session.requests, hactive] using h
    | some request =>
        have hqueue : ∀ other ∈ s.titleQueue ++ [], other ∈ s.requests := fun other hother =>
          List.mem_append_left _ (by simpa using hother)
        simp only
        split_ifs
        · intro other hother
          rw [dropTitleState_requests] at hother
          exact hqueue other hother
        · split
          · split_ifs
            · exact hqueue
            · exact hqueue
          · exact hqueue
  · exact s.fewer_refl

theorem Session.saveNow_fewer (s : Session) (throws : Bool) : s.Fewer (s.saveNow throws) := by
  unfold Session.saveNow
  cases serializeState s.records with
  | error message =>
      simp only
      split_ifs <;> exact s.fewer_refl
  | ok next =>
      simp only
      split_ifs <;> exact s.fewer_refl

theorem Session.flush_fewer (s : Session) (throws : Bool) : s.Fewer (s.flush throws) := by
  unfold Session.flush
  simp only
  split_ifs
  · exact s.fewer_refl
  · exact s.fewer_refl
  · exact Session.saveNow_fewer { s with saveTimer := false } throws

theorem Session.retrySave_fewer (s : Session) (throws : Bool) : s.Fewer (s.retrySave throws) := by
  unfold Session.retrySave
  simp only
  split_ifs
  · exact s.fewer_refl
  · exact Session.flush_fewer { s with errorKind := .none } throws

theorem Session.written_fewer (s : Session) (succeeded : Bool) :
    s.Fewer (s.written succeeded) := by
  unfold Session.written
  split
  · exact s.fewer_refl
  · split_ifs
    · unfold Session.handleSaveSucceeded
      simp only
      split
      · exact s.fewer_refl
      · split_ifs <;> exact s.fewer_refl
    · exact s.fewer_refl

theorem Session.read_fewer (s : Session) (reading : Reading) : s.Fewer (s.read reading) := by
  unfold Session.read
  split_ifs
  · exact s.fewer_refl
  · cases reading with
    | text rawText =>
        simp only [Session.applyLoaded]
        split
        · exact s.fewer_refl
        · exact fun request hrequest => List.mem_append_right _ hrequest
    | notFound => exact s.fewer_refl
    | failed => exact s.fewer_refl

theorem Session.requestTitle_captured {s : Session} (h : Stored s.records) (id : Text) :
    ∀ request ∈ (s.requestTitle id).requests,
      request ∈ s.requests ∨ ∃ record, s.Matches request record := by
  intro request hrequest
  unfold Session.requestTitle at hrequest
  simp only at hrequest
  split_ifs at hrequest
  · exact Or.inl hrequest
  · exact Or.inl hrequest
  · split at hrequest
    · exact Or.inl hrequest
    · next captured hcaptured =>
      rcases List.mem_append.mp hrequest with hqueue | hactive
      · rcases List.mem_append.mp hqueue with hold | hnew
        · exact Or.inl (List.mem_append_left _ hold)
        · rw [List.mem_singleton.mp hnew]
          exact Or.inr (matches_of_capture h hcaptured).2
      · exact Or.inl (List.mem_append_right _ hactive)

theorem Session.retryTitle_captured {s : Session} (h : Stored s.records) (id : Text) :
    ∀ request ∈ (s.retryTitle id).requests,
      request ∈ s.requests ∨ ∃ record, s.Matches request record := by
  unfold Session.retryTitle
  split_ifs
  · exact fun request hrequest => Or.inl hrequest
  · intro request hrequest
    rcases requestTitle_captured (s := s.setTitleState id none) h id request hrequest with
      hold | ⟨record, hmem, hid, htitle, hbody, hprovider⟩
    · exact Or.inl hold
    · exact Or.inr ⟨record, hmem, hid, htitle, hbody, hprovider⟩

theorem Session.step_captured {s : Session} (h : Stored s.records) (event : Event) :
    ∀ request ∈ (s.step event).requests,
      request ∈ s.requests ∨ ∃ record, s.Matches request record := by
  have hfewer : s.Fewer (s.step event) → ∀ request ∈ (s.step event).requests,
      request ∈ s.requests ∨ ∃ record, s.Matches request record :=
    fun hless request hrequest => Or.inl (hless request hrequest)
  cases event with
  | add body title id now => exact hfewer (s.add_fewer body title id now)
  | update id body now => exact hfewer (s.update_fewer id body now)
  | updateTitle id title now => exact hfewer (s.updateTitle_fewer id title now)
  | remove id => exact hfewer (s.remove_fewer id)
  | undoDelete => exact hfewer s.undoDelete_fewer
  | undoTimeout => exact hfewer s.fewer_refl
  | requestTitle id => exact requestTitle_captured h id
  | retryTitle id => exact retryTitle_captured h id
  | pumpTitleQueue => exact hfewer s.pumpTitleQueue_fewer
  | titleProcStopped exitSeen exitCode output =>
      exact hfewer (s.titleProcStopped_fewer exitSeen exitCode output)
  | retrySave throws => exact hfewer (s.retrySave_fewer throws)
  | flush throws => exact hfewer (s.flush_fewer throws)
  | saveTimeout throws =>
      refine hfewer ?_
      rw [Session.step]
      split_ifs
      · exact Session.saveNow_fewer { s with saveTimer := false } throws
      · exact s.fewer_refl
  | queuedSave throws =>
      refine hfewer ?_
      rw [Session.step]
      split_ifs
      · exact Session.saveNow_fewer { s with queuedSave := false } throws
      · exact s.fewer_refl
  | written succeeded => exact hfewer (s.written_fewer succeeded)
  | read reading => exact hfewer (s.read_fewer reading)
  | setOptions options => exact hfewer s.fewer_refl

theorem Session.Kept.titleLaw {s : Session} (h : s.Kept) (event : Event) : TitleLaw s event := by
  refine ⟨Session.step_captured h.records event, fun exitSeen exitCode output hevent => ?_⟩
  subst hevent
  exact Session.titleProcStopped_applied h.records exitSeen exitCode output

/-- From before the first load on, whatever happens: every `setText` is a real
write on an idle view, a session at rest is clean and its file holds its
records, and generated titles keep to the notes they were requested for. -/
theorem notes_at_rest_saved (options : Options) (events : List Event) :
    (∀ t ∈ states Session.step (Session.initial options) events,
      t.WritesApart ∧ (t.AtRest → t.dirty = false ∧ t.Saved)) ∧
    EachStep Session.step TitleLaw (Session.initial options) events := by
  have hinitial := Session.initial_kept options
  have hstep : ∀ (s : Session) (event : Event), s.Kept → True → (s.step event).Kept :=
    fun s event hs _ => Session.Kept.step hs event
  have hany : EachStep Session.step (fun _ _ => True) (Session.initial options) events :=
    EachStep.of_forall (fun _ _ => trivial) _ _
  constructor
  · intro t ht
    have hkept := EachStep.states hstep hinitial hany t ht
    exact ⟨hkept.calls, hkept.rest⟩
  · exact EachStep.of_invariant hstep (fun s event hs _ => hs.titleLaw event) hinitial hany

end Notes

end CybexOS
