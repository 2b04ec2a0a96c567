/-
Runs of the settings store: a file that could not be used is not overwritten,
as long as nothing is saved before its second read.
-/
import CybexOS.Settings.Store
import CybexOS.Runs

namespace CybexOS

namespace Settings

open Json (JsValue)

variable {σ : Type}

/-! ### The law -/

/-- No text that must be kept has been written over. -/
def Store.Guarded (s : Store σ) : Prop := ∀ call ∈ s.calls, call.seen = .usable

/-- The event makes `saveNow` write. -/
def Store.savesAt (schema : Schema σ) (s : Store σ) : Event σ → Bool
  | .saveTimeout _ => s.saveTimer && s.writes schema
  | .retrySave _ => !s.loadError && s.writes schema
  | _ => false

/-- The event has `applyLoaded` take a text as corrupt. -/
def Store.takesCorrupt (s : Store σ) : Event σ → Bool
  | .read (.text rawText) => (parse rawText).isCorrupt && (!s.loaded || s.recheckPending)
  | _ => false

/-- Nothing is saved between the first sight of a corrupt text and its second
read, and no corrupt text is taken while an older one is being moved. -/
structure Careful (schema : Schema σ) (s : Store σ) (event : Event σ) : Prop where
  saves : s.savesAt schema event = true → s.recheckPending = true →
    ∀ movingAside, s.seen ≠ .corrupt movingAside
  takes : s.takesCorrupt event = true → s.backupRunning = false

instance [DecidableEq σ] (schema : Schema σ) (s : Store σ) (event : Event σ) :
    Decidable (Careful schema s event) :=
  decidable_of_iff
    ((s.savesAt schema event = true → s.recheckPending = true →
        ∀ movingAside, s.seen ≠ .corrupt movingAside) ∧
      (s.takesCorrupt event = true → s.backupRunning = false))
    ⟨fun h => ⟨h.1, h.2⟩, fun h => ⟨h.saves, h.takes⟩⟩

/-! ### The invariant -/

/-- What each kind of file is guarded by. -/
structure Store.Kept (s : Store σ) : Prop where
  newer : s.seen = .newer → s.loadError = true
  failed : s.seen = .failed → s.loadError = true
  corrupt : ∀ movingAside, s.seen = .corrupt movingAside →
    s.recheckPending = true ∨ s.corruptBackupPending = true
  running : s.backupRunning = true → s.corruptBackupPending = true
  behind : s.backupRunning = true → s.seen = .corrupt false → s.recheckPending = true
  calls : s.Guarded

/-- A change that leaves the guards alone. -/
theorem Store.Kept.of_eq {s t : Store σ} (h : s.Kept) (hseen : t.seen = s.seen)
    (hload : t.loadError = s.loadError) (hrecheck : t.recheckPending = s.recheckPending)
    (hpending : t.corruptBackupPending = s.corruptBackupPending)
    (hrunning : t.backupRunning = s.backupRunning) (hcalls : t.calls = s.calls) : t.Kept := by
  refine ⟨?_, ?_, ?_, ?_, ?_, ?_⟩
  · rw [hseen, hload]
    exact h.newer
  · rw [hseen, hload]
    exact h.failed
  · rw [hseen, hrecheck, hpending]
    exact h.corrupt
  · rw [hrunning, hpending]
    exact h.running
  · rw [hrunning, hseen, hrecheck]
    exact h.behind
  · rw [Guarded, hcalls]
    exact h.calls

/-! ### Saving -/

variable {schema : Schema σ}

theorem Store.Kept.usable {s : Store σ} (h : s.Kept) (hwrites : s.writes schema = true)
    (hsaves : s.recheckPending = true → ∀ movingAside, s.seen ≠ .corrupt movingAside) :
    s.seen = .usable := by
  simp only [Store.writes, Store.maySave, Bool.and_eq_true, Bool.not_eq_true'] at hwrites
  obtain ⟨⟨⟨⟨⟨-, -⟩, hpending⟩, hload⟩, -⟩, -⟩ := hwrites
  cases hseen : s.seen with
  | usable => rfl
  | corrupt movingAside =>
      rcases h.corrupt movingAside hseen with hrecheck | hmoving
      · exact absurd hseen (hsaves hrecheck movingAside)
      · rw [hpending] at hmoving
        cases hmoving
  | newer =>
      have herror := h.newer hseen
      rw [hload] at herror
      cases herror
  | failed =>
      have herror := h.failed hseen
      rw [hload] at herror
      cases herror

/-- `saveNow` writes over a usable file, if it writes. -/
theorem Store.Kept.saveNow {s : Store σ} (h : s.Kept) (throws : Bool)
    (hsaves : s.writes schema = true → s.recheckPending = true →
      ∀ movingAside, s.seen ≠ .corrupt movingAside) : (s.saveNow schema throws).Kept := by
  unfold Store.saveNow
  by_cases hmay : s.maySave = true
  · rw [if_neg (by simp [hmay])]
    simp only
    by_cases hsame : sameContent (schema.serialize s.settings) s.lastPersistedText = true
    · rw [if_pos hsame]
      exact h.of_eq rfl rfl rfl rfl rfl rfl
    · rw [if_neg hsame]
      have hwrites : s.writes schema = true := by
        simp [Store.writes, hmay, hsame]
      have husable := h.usable hwrites (hsaves hwrites)
      have hcalls : ∀ text, ∀ call ∈ s.calls ++ [⟨text, s.seen⟩], call.seen = .usable := by
        intro text call hcall
        rcases List.mem_append.mp hcall with hold | hnew
        · exact h.calls call hold
        · rw [List.mem_singleton.mp hnew]
          exact husable
      cases throws with
      | false => exact ⟨h.newer, h.failed, h.corrupt, h.running, h.behind, hcalls _⟩
      | true => exact ⟨h.newer, h.failed, h.corrupt, h.running, h.behind, hcalls _⟩
  · rw [if_pos (by simp [hmay])]
    exact h

theorem Store.Kept.handleSaveFailure {s : Store σ} (h : s.Kept) : s.handleSaveFailure.Kept :=
  h.of_eq rfl rfl rfl rfl rfl rfl

theorem Store.Kept.handleSaveSucceeded {s : Store σ} (h : s.Kept) :
    (s.handleSaveSucceeded schema).Kept := by
  unfold Store.handleSaveSucceeded
  simp only
  split_ifs
  · exact h.of_eq rfl rfl rfl rfl rfl rfl
  · exact h.of_eq rfl rfl rfl rfl rfl rfl

/-! ### Loading -/

theorem Store.Kept.reading {s : Store σ} (h : s.Kept) : Store.Kept { s with reading := true } :=
  h.of_eq rfl rfl rfl rfl rfl rfl

theorem backUpCorruptFile_kept {s : Store σ} (hseen : s.seen = .corrupt false)
    (hrunning : s.backupRunning = true → s.corruptBackupPending = true) (hcalls : s.Guarded)
    (htakes : s.backupRunning = false) : s.backUpCorruptFile.Kept := by
  unfold Store.backUpCorruptFile
  by_cases hpending : s.corruptBackupPending = true
  · rw [if_pos hpending]
    refine ⟨?_, ?_, fun _ _ => Or.inr hpending, hrunning, ?_, hcalls⟩
    · intro hnewer
      rw [hseen] at hnewer
      cases hnewer
    · intro hfailed
      rw [hseen] at hfailed
      cases hfailed
    · intro hmoving
      rw [htakes] at hmoving
      cases hmoving
  · rw [if_neg hpending]
    exact ⟨nofun, nofun, fun _ _ => Or.inr rfl, fun _ => rfl, nofun, hcalls⟩

/-- Adopting the file, or leaving the running settings be, keeps the guards. -/
theorem Store.Kept.adopt {s : Store σ} (h : s.Kept) (value : Option JsValue) :
    (s.adopt schema value).Kept :=
  h.of_eq rfl rfl rfl rfl rfl rfl

theorem Store.Kept.ofUsable {s : Store σ} (hseen : s.seen = .usable)
    (hrunning : s.backupRunning = true → s.corruptBackupPending = true) (hcalls : s.Guarded) :
    s.Kept := by
  refine ⟨?_, ?_, ?_, hrunning, ?_, hcalls⟩
  · intro hnewer
    rw [hseen] at hnewer
    cases hnewer
  · intro hfailed
    rw [hseen] at hfailed
    cases hfailed
  · intro movingAside hcorrupt
    rw [hseen] at hcorrupt
    cases hcorrupt
  · intro _ hcorrupt
    rw [hseen] at hcorrupt
    cases hcorrupt

theorem Store.Kept.ofLoadError {s : Store σ} (hload : s.loadError = true)
    (hseen : ∀ movingAside, s.seen ≠ .corrupt movingAside)
    (hrunning : s.backupRunning = true → s.corruptBackupPending = true) (hcalls : s.Guarded) :
    s.Kept :=
  ⟨fun _ => hload, fun _ => hload, fun movingAside hcorrupt => absurd hcorrupt (hseen movingAside),
    hrunning, fun _ hcorrupt => absurd hcorrupt (hseen false), hcalls⟩

/-- A text that has been read is guarded for what it is, whatever came before. -/
theorem applyLoaded_kept {s : Store σ} (rawText : Text)
    (hrunning : s.backupRunning = true → s.corruptBackupPending = true) (hcalls : s.Guarded)
    (htakes : (parse rawText).isCorrupt = true → (!s.loaded || s.recheckPending) = true →
      s.backupRunning = false) : (s.applyLoaded schema rawText).Kept := by
  unfold Store.applyLoaded
  cases hparse : parse rawText with
  | empty =>
      by_cases hloaded : s.loaded = true
      · by_cases hrecheck : s.recheckPending = true
        · simp [hloaded, hrecheck, Parsed.isOk, Parsed.isCorrupt, Parsed.isEmpty]
          exact .ofUsable rfl hrunning hcalls
        · simp [hloaded, hrecheck, Parsed.isOk]
          exact .ofUsable rfl hrunning hcalls
      · simp [hloaded, Parsed.isCorrupt, Parsed.isEmpty, Parsed.value, isNewerSchema]
        exact .ofUsable rfl hrunning hcalls
  | ok value =>
      simp only [Parsed.isOk, Parsed.isCorrupt, Parsed.isEmpty, Parsed.value, Bool.not_true,
        Bool.and_false, Bool.false_and, if_false, seenIn, Bool.false_eq_true]
      by_cases hnewer : isNewerSchema (some value) = true
      · rw [if_pos hnewer, if_pos hnewer]
        split_ifs
        · exact .ofLoadError rfl nofun hrunning hcalls
        · apply Store.Kept.adopt
          exact .ofLoadError rfl nofun hrunning hcalls
      · rw [if_neg hnewer, if_neg hnewer]
        split_ifs
        · exact .ofUsable rfl hrunning hcalls
        · apply Store.Kept.adopt
          exact .ofUsable rfl hrunning hcalls
  | corrupt =>
      rw [hparse] at htakes
      by_cases hfirst : (s.loaded && !s.recheckPending) = true
      · rw [Bool.and_eq_true, Bool.not_eq_true'] at hfirst
        simp only [hfirst.1, hfirst.2, Parsed.isOk, Bool.not_false, Bool.and_self, if_true]
        exact ⟨nofun, nofun, fun _ _ => Or.inl rfl, hrunning, fun _ _ => rfl, hcalls⟩
      · have hfree : s.backupRunning = false := htakes rfl (by
          cases hloaded : s.loaded <;> cases hrecheck : s.recheckPending <;> simp_all)
        have htaken : Store.Kept (Store.backUpCorruptFile { s with
            storeText := rawText, seen := .corrupt false, recheckPending := false
            loadError := false }) :=
          backUpCorruptFile_kept rfl hrunning hcalls hfree
        simp only [Parsed.isOk, Parsed.isCorrupt, Parsed.isEmpty, Parsed.value, isNewerSchema,
          Bool.not_false, Bool.and_true, if_true, seenIn, Bool.and_false, Bool.false_eq_true,
          if_false, hfirst, Option.bind_none]
        split_ifs
        · exact htaken.of_eq rfl rfl rfl rfl rfl rfl
        · exact htaken.adopt _

theorem Store.Kept.read {s : Store σ} (h : s.Kept) (reading : Reading)
    (htakes : s.takesCorrupt (.read reading) = true → s.backupRunning = false) :
    (s.read schema reading).Kept := by
  cases reading with
  | text rawText =>
      refine applyLoaded_kept rawText h.running h.calls fun hcorrupt hagain => htakes ?_
      simp only [takesCorrupt, hcorrupt, Bool.true_and]
      exact hagain
  | notFound =>
      have hempty : parse [] = .empty := rfl
      refine applyLoaded_kept [] h.running h.calls fun hcorrupt => ?_
      rw [hempty] at hcorrupt
      cases hcorrupt
  | failed => exact .ofLoadError rfl nofun h.running h.calls

/-! ### Steps -/

theorem Store.Kept.backupExited {s : Store σ} (h : s.Kept) (exitCode : ℤ) :
    (s.backupExited exitCode).Kept := by
  unfold Store.backupExited
  by_cases hrunning : s.backupRunning = true
  · rw [if_neg (by simp [hrunning])]
    by_cases hexit : exitCode = 0
    · rw [if_pos hexit]
      by_cases hmoved : s.seen = .corrupt true
      · simp only [if_pos hmoved]
        exact .ofUsable rfl nofun h.calls
      · simp only [if_neg hmoved]
        refine ⟨h.newer, h.failed, ?_, nofun, nofun, h.calls⟩
        intro movingAside hcorrupt
        cases movingAside with
        | false => exact Or.inl (h.behind hrunning hcorrupt)
        | true => exact absurd hcorrupt hmoved
    · rw [if_neg hexit]
      exact ⟨h.newer, h.failed, h.corrupt, nofun, nofun, h.calls⟩
  · rw [if_pos (by simp [hrunning])]
    exact h

theorem Store.Kept.reloadStore {s : Store σ} (h : s.Kept) : s.reloadStore.Kept := by
  unfold Store.reloadStore
  split_ifs
  · exact h.of_eq rfl rfl rfl rfl rfl rfl
  · exact h.reading

theorem Store.Kept.fileChanged {s : Store σ} (h : s.Kept) : s.fileChanged.Kept := by
  unfold Store.fileChanged
  split_ifs
  · exact h.of_eq rfl rfl rfl rfl rfl rfl
  · exact h.reading

theorem initial_kept (settings : σ) : (Store.initial settings).Kept :=
  .ofUsable rfl nofun nofun

variable [DecidableEq σ]

theorem Store.Kept.change {s : Store σ} (h : s.Kept) (settings : σ) (clears notifies : Bool) :
    (s.change settings clears notifies).Kept := by
  unfold Store.change Store.scheduleSave
  simp only
  split_ifs
  · exact h.of_eq rfl rfl rfl rfl rfl rfl
  · exact h.of_eq rfl rfl rfl rfl rfl rfl
  · exact h.of_eq rfl rfl rfl rfl rfl rfl

theorem Store.Kept.step {s : Store σ} (h : s.Kept) {event : Event σ}
    (hcareful : Careful schema s event) : (s.step schema event).Kept := by
  cases event with
  | read reading => exact h.read reading hcareful.takes
  | change settings clears notifies => exact h.change settings clears notifies
  | saveTimeout throws =>
      simp only [Store.step]
      split_ifs with htimer
      · have hkept : Store.Kept { s with saveTimer := false } :=
          h.of_eq rfl rfl rfl rfl rfl rfl
        refine hkept.saveNow throws fun hwrites => ?_
        have hsaves : s.savesAt schema (.saveTimeout throws) = true := by
          rw [savesAt, htimer, Bool.true_and]
          exact hwrites
        exact hcareful.saves hsaves
      · exact h
  | reloadTimeout =>
      simp only [Store.step]
      split_ifs
      · exact Store.Kept.reloadStore (h.of_eq rfl rfl rfl rfl rfl rfl)
      · exact h
  | retrySave throws =>
      simp only [Store.step, Store.retrySave]
      split_ifs with herror
      · exact h.reading
      · refine h.saveNow throws fun hwrites => hcareful.saves ?_
        simp [savesAt, herror, hwrites]
  | saved =>
      simp only [Store.step]
      split_ifs
      · exact h.handleSaveSucceeded
      · exact h
  | saveFailed =>
      simp only [Store.step]
      split_ifs
      · exact h.handleSaveFailure
      · exact h
  | backupExited exitCode => exact h.backupExited exitCode
  | fileChanged => exact h.fileChanged

/-! ### Runs -/

/-- As long as nothing is saved before the second read of a corrupt text, and no
corrupt text is taken while an older one is being moved, every file that could
not be used is kept. -/
theorem unusable_file_kept (settings : σ) (events : List (Event σ))
    (hcareful : EachStep (Store.step schema) (Careful schema) (Store.initial settings) events) :
    ∀ t ∈ states (Store.step schema) (Store.initial settings) events, t.Guarded := by
  intro t ht
  exact (hcareful.states (fun _ _ h hstep => h.step hstep) (initial_kept settings) t ht).calls

/-! ### Where the guard is not there yet -/

/-- A settings file of one option. -/
def shuffleText (shuffle : Bool) : Text :=
  [123, 10] ++ ascii "  \"v\": 26," ++ [10] ++
    ascii (if shuffle then "  \"shuffle\": true" else "  \"shuffle\": false") ++ [10, 125, 10]

/-- The schema of that file. -/
def shuffleOnly : Schema Bool where
  merge value :=
    match value.bind (·.field? (ascii "shuffle")) with
    | some (.bool shuffle) => shuffle
    | _ => false
  seedWeatherFromEnv _ settings := settings
  serialize := shuffleText

/-- A change, and before its save timer the first sight of a cut-off file. -/
def cutOffUnderChange : List (Event Bool) :=
  [.read (.text (shuffleText false)), .change true true true, .read (.text [123]),
    .saveTimeout false]

/-- The pending save goes over the cut-off text. -/
theorem firstSight_overwrites :
    ¬ (cutOffUnderChange.foldl (Store.step shuffleOnly) (Store.initial false)).Guarded := by
  have hcalls : (cutOffUnderChange.foldl (Store.step shuffleOnly) (Store.initial false)).calls =
      [⟨shuffleText true, .corrupt false⟩] := by
    decide +kernel
  intro hguarded
  have husable := hguarded ⟨shuffleText true, .corrupt false⟩ (by simp [hcalls])
  cases husable

/-- The cut-off text is read again and moved aside, and then a change is saved. -/
def cutOffMovedAside : List (Event Bool) :=
  [.read (.text (shuffleText false)), .read (.text [123]), .reloadTimeout, .read (.text [123]),
    .backupExited 0, .change true true true, .saveTimeout false]

theorem unusable_file_kept_movedAside :
    (cutOffMovedAside.foldl (Store.step shuffleOnly) (Store.initial false)).Guarded := by
  refine unusable_file_kept false cutOffMovedAside ?_ _ (foldl_mem_states _ _)
  decide +kernel

end Settings

end CybexOS
