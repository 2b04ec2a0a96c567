/-
What the helper writes into the saved file over a whole run: only a confirmed
trial's own document, in time and over the file that its apply saw.
-/
import CybexOS.Displays.TrialGuard

namespace CybexOS

namespace Displays

namespace Py

open Json

/-! ### Histories -/

/-- An apply whose record was written: its token, the document it was given,
its expiry and the saved file it saw. -/
structure Issue where
  token : Text
  document : PyValue
  expires : Number
  base : Saved

structure History where
  system : System
  issues : List Issue

section

variable (sha256 : Text → Text)

/-- Whether the trial of the token is pending. -/
def isPendingToken (s : System) (token : Text) : Bool :=
  (readTrialState s.record).any fun state => isStr state.token token

def Action.issued (action : Action) (before after : System) : List Issue :=
  match action with
  | .apply env request =>
      if isPendingToken after env.token then
        [⟨env.token, getNone request "document",
          Number.ofRat (env.started.val + TRIAL_SECONDS), before.store⟩]
      else []
  | _ => []

def History.step (h : History) (action : Action) : History :=
  let after := h.system.next sha256 action
  ⟨after, action.issued h.system after ++ h.issues⟩

/-- Requests are what `loads` builds, and a new token was never used. -/
def Feasible (h : History) : Action → Prop
  | .apply env request =>
      (∃ line, loads line = some request) ∧
        ∀ issue ∈ h.issues, issue.token ≠ env.token
  | _ => True

end

theorem isPendingToken_iff {s : System} {token : Text} :
    isPendingToken s token = true ↔ Pending s token := by
  simp only [isPendingToken, Option.any_eq_true, isStr_iff, Pending]

/-! ### What one action does to the files -/

/-- The runtime files are left alone, or the record is gone. -/
def KeepsFiles (s t : System) : Prop :=
  (t.record = s.record ∧ t.trial = s.trial) ∨ t.record = none

/-- The saved file is left alone. -/
def Quiet (s : System) (r : Result) : Prop :=
  r.wrote = none ∧ r.system.store = s.store

theorem restore_quiet (s : System) (env : Circumstances)
    (reply : Except Failure Reply) :
    Quiet s (s.restore env reply) ∧ (s.restore env reply).system.record = none := by
  simp [System.restore, Quiet, System.clearTrial]

theorem rollback_quiet (s : System) (env : Circumstances) (token : Text) :
    Quiet s (rollback s env token) ∧ KeepsFiles s (rollback s env token).system := by
  unfold rollback
  split
  · exact ⟨⟨rfl, rfl⟩, Or.inl ⟨rfl, rfl⟩⟩
  · split
    · exact ⟨⟨rfl, rfl⟩, Or.inl ⟨rfl, rfl⟩⟩
    · split
      · next own _ =>
        dsimp only
        split
        · simp [Quiet, KeepsFiles]
        · obtain ⟨hquiet, hrecord⟩ := restore_quiet (s.stop env.stopTimer own) env
            (.ok .restored)
          refine ⟨⟨hquiet.1, hquiet.2.trans ?_⟩, Or.inr hrecord⟩
          exact (System.stop_frame _ _ _).1
      · exact ⟨⟨rfl, rfl⟩, Or.inl ⟨rfl, rfl⟩⟩

theorem expire_quiet (s : System) (env : Circumstances) (token : Text) :
    Quiet s (expire s env token) ∧ KeepsFiles s (expire s env token).system := by
  unfold expire
  dsimp only
  split
  · exact ⟨⟨rfl, rfl⟩, Or.inl ⟨rfl, rfl⟩⟩
  · split
    · exact ⟨⟨rfl, rfl⟩, Or.inl ⟨rfl, rfl⟩⟩
    · split
      · obtain ⟨hquiet, hrecord⟩ := restore_quiet
          { s with timers := s.timers.filter (· ≠ token) } env (.ok .finished)
        exact ⟨hquiet, Or.inr hrecord⟩
      · exact ⟨⟨rfl, rfl⟩, Or.inl ⟨rfl, rfl⟩⟩

/-- What lets a confirm write: the pending record with this token, in time,
over the file its apply saw. -/
structure Confirms (sha256 : Text → Text) (s : System) (env : Circumstances)
    (token bytes : Text) (state : TrialState) (document : PyValue) : Prop where
  recorded : readTrialState s.record = some state
  token : state.token = .str token
  inTime : env.checked.val ≤ PyNumber.after state.expires CONFIRM_GRACE_SECONDS
  candidate : readTrial s.trial = some (.ok document)
  encoded : encode document = some bytes
  base : state.baseDigest = .str (digestOf sha256 s.store)

/-- What a confirm leaves: a success clears the record, and a write is one the
record allows. -/
structure ConfirmEnds (sha256 : Text → Text) (s : System) (env : Circumstances)
    (token : Text) (r : Result) : Prop where
  files : KeepsFiles s r.system
  saved : r.reply = .ok .saved → r.system.record = none
  wrote : Quiet s r ∨ ∃ bytes state document, r.wrote = some bytes ∧
    r.system.store = .file true bytes ∧
    Confirms sha256 s env token bytes state document

section

variable (sha256 : Text → Text) (s : System) (env : Circumstances) (token : Text)

theorem confirmEnds_stopped (failure : Failure) :
    ConfirmEnds sha256 s env token
      ((s.stop env.stopTimer token).reply (.error failure)) where
  files := Or.inl (by simp)
  saved := by simp
  wrote := Or.inl (by simp [Quiet])

theorem confirmEnds_restore (failure : Failure) :
    ConfirmEnds sha256 s env token
      ((s.stop env.stopTimer token).restore env (.error failure)) := by
  obtain ⟨hquiet, hrecord⟩ := restore_quiet (s.stop env.stopTimer token) env
    (.error failure)
  refine ⟨Or.inr hrecord, fun _ => hrecord, Or.inl ⟨hquiet.1, ?_⟩⟩
  exact hquiet.2.trans (System.stop_frame _ _ _).1

theorem save_ends {bytes : Text} {state : TrialState} {document : PyValue}
    (h : Confirms sha256 s env token bytes state document) :
    ConfirmEnds sha256 s env token
      (save (s.stop env.stopTimer token) env token bytes) := by
  unfold save
  split
  · exact confirmEnds_stopped sha256 s env token _
  · split
    · exact confirmEnds_stopped sha256 s env token _
    · exact ⟨Or.inl (by simp), by simp, Or.inr ⟨bytes, state, document, rfl, rfl, h⟩⟩
    · exact ⟨Or.inr rfl, fun _ => rfl, Or.inr ⟨bytes, state, document, rfl, rfl, h⟩⟩

theorem confirm_ends : ConfirmEnds sha256 s env token (confirm sha256 s env token) := by
  have hended : ConfirmEnds sha256 s env token (s.reply (.error .ended)) :=
    ⟨Or.inl ⟨rfl, rfl⟩, by simp, Or.inl ⟨rfl, rfl⟩⟩
  unfold confirm
  split
  · exact hended
  · next state hstate =>
    split
    · exact hended
    · next htoken =>
      dsimp only
      split
      · exact confirmEnds_stopped sha256 s env token _
      · split
        · exact confirmEnds_restore sha256 s env token _
        · next hlate =>
          split
          · next document hread =>
            split
            · exact confirmEnds_restore sha256 s env token _
            · next hbase =>
              split
              · exact confirmEnds_stopped sha256 s env token _
              · next bytes hencode =>
                rw [Bool.not_eq_true', Bool.not_eq_false] at htoken hbase
                exact save_ends sha256 s env token
                  ⟨hstate, isStr_iff.mp htoken, not_lt.mp hlate, hread, hencode,
                    isStr_iff.mp hbase⟩
          · exact confirmEnds_stopped sha256 s env token _
          · exact confirmEnds_restore sha256 s env token _

end

/-! ### What an apply leaves -/

/-- The files of a trial that was issued: the candidate and its record. -/
structure Issues (sha256 : Text → Text) (s : System) (env : Circumstances)
    (request : PyValue) (t : System) (bytes record : Text) : Prop where
  valid : validateDocument (getNone request "document") =
    .ok (getNone request "document")
  encoded : encode (getNone request "document") = some bytes
  trial : t.trial = some bytes
  written : encode (recordOf env.token
    (Number.ofRat (env.started.val + TRIAL_SECONDS)) (digestOf sha256 s.store)) =
      some record
  record : t.record = some record

theorem showTrial_quiet (s : System) (env : Circumstances) (expires : Number) :
    Quiet s (showTrial s env expires) ∧
      KeepsFiles s (showTrial s env expires).system := by
  unfold showTrial
  dsimp only
  split
  · simp [Quiet, KeepsFiles]
  · split
    · simp [Quiet, KeepsFiles]
    · split
      · simp [Quiet, KeepsFiles]
      · simp [Quiet, KeepsFiles, System.clearTrial]

/-- The record is unusable, or it is the new one beside its candidate. -/
theorem armTrial_cases (sha256 : Text → Text) (s : System) (env : Circumstances)
    (data : Text) (hbare : readTrialState s.record = none) :
    Quiet s (armTrial sha256 s env data) ∧
      (readTrialState (armTrial sha256 s env data).system.record = none ∨
        (armTrial sha256 s env data).system.trial = some data ∧
        ∃ record, encode (recordOf env.token
          (Number.ofRat (env.started.val + TRIAL_SECONDS))
          (digestOf sha256 s.store)) = some record ∧
        (armTrial sha256 s env data).system.record = some record) := by
  unfold armTrial
  dsimp only
  split
  · simp [Quiet, hbare]
  · next htrial =>
    rw [ne_eq, not_not] at htrial
    split
    · simp [Quiet, hbare]
    · next record hencode =>
      split
      · next hwrite =>
        refine ⟨by simp [Quiet], ?_⟩
        cases hcase : env.recordWrite with
        | done => exact absurd hcase hwrite
        | failed => simp [System.writeRecord, Written.replaced, hbare]
        | thenFailed =>
            simp [System.writeRecord, Written.replaced, System.writeTrial, htrial,
              hencode]
      · next hwrite =>
        rw [ne_eq, not_not] at hwrite
        split
        · simp [Quiet, System.writeRecord, Written.replaced, System.writeTrial,
            htrial, hwrite, hencode]
        · split
          · obtain ⟨hquiet, hfiles⟩ := showTrial_quiet
              (((s.writeTrial env.trialWrite data).writeRecord env.recordWrite
                record).arm env.arm env.token) env
              (Number.ofRat (env.started.val + TRIAL_SECONDS))
            refine ⟨⟨hquiet.1, hquiet.2.trans (by simp)⟩, ?_⟩
            rcases hfiles with ⟨hrecord, htrialKept⟩ | hnone
            · refine Or.inr ⟨htrialKept.trans ?_, record, hencode, hrecord.trans ?_⟩
              · simp [System.writeTrial, Written.replaced, htrial]
              · simp [System.writeRecord, Written.replaced, hwrite]
            · exact Or.inl (by rw [hnone]; rfl)
          · refine ⟨?_, Or.inl rfl⟩
            simp [Quiet, System.clearTrial]

theorem validateDocument_eq {document checked : PyValue}
    (h : validateDocument document = .ok checked) : checked = document := by
  unfold validateDocument at h
  split at h
  · cases h
  · split at h
    · cases h
    · split at h
      · cases h
      · split at h
        · cases h
        · next monitors _ _ =>
          cases hentries : validateEntries
            (monitors.insertionSort fun a b => a.1 ≤ b.1) with
          | error problem => rw [hentries] at h; cases h
          | ok _ => rw [hentries] at h; exact (Except.ok.inj h).symm

theorem apply_cases (sha256 : Text → Text) (s : System) (env : Circumstances)
    (request : PyValue) :
    Quiet s (apply sha256 s env request) ∧
      (KeepsFiles s (apply sha256 s env request).system ∨
        readTrialState (apply sha256 s env request).system.record = none ∨
        ∃ bytes record, Issues sha256 s env request
          (apply sha256 s env request).system bytes record) := by
  unfold apply
  split
  · exact ⟨⟨rfl, rfl⟩, Or.inl (Or.inl ⟨rfl, rfl⟩)⟩
  · next document hvalid =>
    obtain rfl := validateDocument_eq hvalid
    split
    · exact ⟨⟨rfl, rfl⟩, Or.inl (Or.inl ⟨rfl, rfl⟩)⟩
    · next bytes hencode =>
      dsimp only
      split
      · exact ⟨⟨rfl, rfl⟩, Or.inl (Or.inl ⟨rfl, rfl⟩)⟩
      · have hclean : ∀ clean, clean = (if (readTrialState s.record).isSome then
            s.clearTrial else s) → readTrialState clean.record = none ∧
              clean.store = s.store := by
          rintro clean rfl
          cases hstate : readTrialState s.record with
          | none => exact ⟨hstate, rfl⟩
          | some state => exact ⟨rfl, rfl⟩
        obtain ⟨hbare, hstore⟩ := hclean _ rfl
        generalize (if (readTrialState s.record).isSome then
          s.clearTrial else s) = clean at hbare hstore
        split
        · obtain ⟨hquiet, hfiles⟩ := armTrial_cases sha256 clean env bytes hbare
          rw [Quiet, hstore] at hquiet
          rw [hstore] at hfiles
          refine ⟨hquiet, Or.inr (hfiles.imp_right ?_)⟩
          rintro ⟨htrial, record, hwritten, hrecord⟩
          exact ⟨bytes, record, hvalid, hencode, htrial, hwritten, hrecord⟩
        · exact ⟨⟨rfl, hstore⟩, Or.inr (Or.inl hbare)⟩

/-! ### The pending trial was issued -/

section

variable (sha256 : Text → Text)

/-- The pending record is that of an issued trial, beside its candidate, and
no two trials have one token. -/
structure Tracked (h : History) : Prop where
  distinct : (h.issues.map Issue.token).Nodup
  known : ∀ state, readTrialState h.system.record = some state →
    ∃ issue ∈ h.issues,
      state = ⟨.str issue.token, .float issue.expires,
        .str (digestOf sha256 issue.base)⟩ ∧
      readTrial h.system.trial = some (.ok issue.document)

theorem feasible_issued {h : History} {action : Action} (hfeasible : Feasible h action)
    {after : System} :
    ∀ issue ∈ h.issues, ∀ new ∈ action.issued h.system after,
      issue.token ≠ new.token := by
  intro issue hissue new hnew
  cases action with
  | apply env request =>
      simp only [Action.issued] at hnew
      split at hnew
      · rw [List.mem_singleton.mp hnew]
        exact hfeasible.2 issue hissue
      · cases hnew
  | _ => cases hnew

theorem issued_length_le (action : Action) (before after : System) :
    (action.issued before after).length ≤ 1 := by
  cases action with
  | apply env request =>
      simp only [Action.issued]
      split <;> simp
  | _ => exact Nat.zero_le 1

/-- An action leaves the trial's files, clears the record or issues a trial. -/
theorem run_files {h : History} {action : Action} (hfeasible : Feasible h action) :
    KeepsFiles h.system (h.system.next sha256 action) ∨
      readTrialState (h.system.next sha256 action).record = none ∨
      ∃ env request bytes record, action = .apply env request ∧
        Proper (getNone request "document") ∧
        Issues sha256 h.system env request (h.system.next sha256 action)
          bytes record := by
  cases action with
  | apply env request =>
      obtain ⟨-, hfiles⟩ := apply_cases sha256 h.system env request
      obtain ⟨⟨line, hline⟩, -⟩ := hfeasible
      have hproper : Proper (getNone request "document") := by
        rw [getNone]
        cases hfield : request.field? (ascii "document") with
        | none => exact .null
        | some document => exact (loads_proper hline).field? hfield
      refine hfiles.imp_right (Or.imp_right ?_)
      rintro ⟨bytes, record, hissues⟩
      exact ⟨env, request, bytes, record, rfl, hproper, hissues⟩
  | confirm env token => exact Or.inl (confirm_ends sha256 h.system env token).files
  | rollback env token => exact Or.inl (rollback_quiet h.system env token).2
  | expire env token => exact Or.inl (expire_quiet h.system env token).2
  | edit store => exact Or.inl (Or.inl ⟨rfl, rfl⟩)

theorem readTrial_encode {document : PyValue} (hproper : Proper document)
    (hvalid : validateDocument document = .ok document) {bytes : Text}
    (hbytes : encode document = some bytes) :
    readTrial (some bytes) = some (.ok document) := by
  obtain ⟨text, htext, -, hloads⟩ := encode_spec hproper hbytes
  rw [readTrial, Option.bind_some, htext, Option.bind_some, hloads, Option.map_some,
    hvalid]

theorem Tracked.step {h : History} (htracked : Tracked sha256 h) {action : Action}
    (hfeasible : Feasible h action) : Tracked sha256 (h.step sha256 action) := by
  constructor
  · rw [History.step, List.map_append, List.nodup_append]
    refine ⟨?_, htracked.distinct, ?_⟩
    · refine List.nodup_iff_count_le_one.mpr fun token => List.count_le_length.trans ?_
      rw [List.length_map]
      exact issued_length_le _ _ _
    · intro new hnew old hold heq
      obtain ⟨newIssue, hnewIssue, rfl⟩ := List.mem_map.mp hnew
      obtain ⟨oldIssue, holdIssue, rfl⟩ := List.mem_map.mp hold
      exact feasible_issued hfeasible oldIssue holdIssue newIssue hnewIssue heq.symm
  · intro state hstate
    rcases run_files sha256 hfeasible with (⟨hrecord, htrial⟩ | hnone) | hnone | hissues
    · have hbefore : readTrialState h.system.record = some state := by
        rw [← hrecord]
        exact hstate
      obtain ⟨issue, hissue, hmatches, hread⟩ := htracked.known state hbefore
      refine ⟨issue, List.mem_append_right _ hissue, hmatches, ?_⟩
      rw [← hread, ← htrial]
      rfl
    · cases hstate.symm.trans (congrArg readTrialState hnone)
    · cases hstate.symm.trans hnone
    · obtain ⟨env, request, bytes, record, rfl, hproper, hissues⟩ := hissues
      have hread := readTrialState_recordOf
        (matchesToken_of_hex env.tokenLength env.tokenHex) hissues.written
      rw [← hissues.record] at hread
      have hnew := hstate.symm.trans hread
      split at hnew
      · obtain rfl := Option.some.inj hnew
        have hpending : isPendingToken (h.system.next sha256 (.apply env request))
            env.token = true := by
          rw [isPendingToken]
          exact (congrArg _ hstate).trans (by simp [isStr])
        refine ⟨⟨env.token, getNone request "document",
          Number.ofRat (env.started.val + TRIAL_SECONDS), h.system.store⟩, ?_, rfl,
          ?_⟩
        · refine List.mem_append_left _ ?_
          simp only [Action.issued]
          rw [if_pos hpending]
          exact List.mem_singleton_self _
        · have := readTrial_encode hproper hissues.valid hissues.encoded
          rwa [← hissues.trial] at this
      · cases hnew

/-! ### Writing the saved file -/

/-- Two versions of the saved file that digests cannot confuse: where neither
can be read, or both have one SHA-256, they hold the same. -/
def Comparable (a b : Saved) : Prop :=
  ∀ readable x y, a = .file readable x → b = .file readable y →
    (readable = true → sha256 x = sha256 y) → x = y

theorem eq_iff_comparable {a b : Saved} (h : digestOf sha256 a = digestOf sha256 b) :
    a = b ↔ Comparable sha256 a b := by
  constructor
  · rintro rfl readable x y hx hy -
    rw [hx] at hy
    exact (Saved.file.inj hy).2
  · intro hcomparable
    cases a with
    | file readable data =>
        cases b with
        | file readable' data' =>
            have hreadable : readable = readable' := by
              cases readable <;> cases readable' <;> simp [digestOf, ascii] at h ⊢
            subst hreadable
            rw [hcomparable readable data data' rfl rfl]
            rintro rfl
            exact List.append_cancel_left h
        | _ => cases readable <;> simp [digestOf, ascii] at h
    | absent =>
        cases b with
        | file readable data => cases readable <;> simp [digestOf, ascii] at h
        | _ => simp [digestOf, ascii] at h ⊢
    | unsupported =>
        cases b with
        | file readable data => cases readable <;> simp [digestOf, ascii] at h
        | _ => simp [digestOf, ascii] at h ⊢

/-- A write of the saved file: the confirm of an issued and pending trial, in
time, of the document its apply was given, over a file with the digest that
apply saw. -/
structure Writes (h : History) (action : Action) (bytes : Text) (issue : Issue) :
    Prop where
  issued : issue ∈ h.issues
  pending : Pending h.system issue.token
  inTime : ∃ env, action = .confirm env issue.token ∧
    env.checked.val ≤ PyNumber.after (.float issue.expires) CONFIRM_GRACE_SECONDS
  encoded : encode issue.document = some bytes
  stored : (h.system.next sha256 action).store = .file true bytes
  digest : digestOf sha256 h.system.store = digestOf sha256 issue.base

/-- The saved file changes only by such a write or by another writer's. -/
def Protected (h : History) (action : Action) : Prop :=
  ((action.run sha256 h.system).wrote = none ∧
    ((∀ store, action ≠ .edit store) →
      (h.system.next sha256 action).store = h.system.store)) ∨
  ∃ bytes issue, (action.run sha256 h.system).wrote = some bytes ∧
    Writes sha256 h action bytes issue

/-- A confirm that writes replaces the very file its apply saw: whatever other
writers did in between is not lost. -/
def KeepsEdits (h : History) (action : Action) : Prop :=
  (action.run sha256 h.system).wrote.isSome = true → ∀ issue ∈ h.issues,
    (∃ env, action = .confirm env issue.token) → h.system.store = issue.base

/-- At a confirm the saved file is not one that its digest confuses with the
one the apply saw. -/
def Legible (h : History) (action : Action) : Prop :=
  ∀ issue ∈ h.issues, (∃ env, action = .confirm env issue.token) →
    Comparable sha256 h.system.store issue.base

theorem Quiet.protected {h : History} {action : Action}
    (hquiet : Quiet h.system (action.run sha256 h.system)) :
    Protected sha256 h action :=
  Or.inl ⟨hquiet.1, fun _ => hquiet.2⟩

theorem Tracked.protected {h : History} (htracked : Tracked sha256 h)
    (action : Action) : Protected sha256 h action := by
  cases action with
  | apply env request =>
      exact Quiet.protected sha256 (apply_cases sha256 h.system env request).1
  | rollback env token =>
      exact Quiet.protected sha256 (rollback_quiet h.system env token).1
  | expire env token =>
      exact Quiet.protected sha256 (expire_quiet h.system env token).1
  | edit store => exact Or.inl ⟨rfl, fun hedit => absurd rfl (hedit store)⟩
  | confirm env token =>
      rcases (confirm_ends sha256 h.system env token).wrote with hquiet | hwrote
      · exact Quiet.protected sha256 hquiet
      · obtain ⟨bytes, state, document, hwrote, hstored, hconfirms⟩ := hwrote
        obtain ⟨issue, hissue, rfl, hread⟩ :=
          htracked.known state hconfirms.recorded
        obtain rfl := Value.str.inj hconfirms.token
        have hdocument : document = issue.document := by
          have := hconfirms.candidate.symm.trans hread
          exact Except.ok.inj (Option.some.inj this)
        refine Or.inr ⟨bytes, issue, hwrote, hissue, ⟨_, hconfirms.recorded, rfl⟩,
          ⟨env, rfl, hconfirms.inTime⟩, ?_, hstored, ?_⟩
        · rw [← hdocument]
          exact hconfirms.encoded
        · exact (Value.str.inj hconfirms.base).symm

/-- A confirm that writes keeps other edits exactly where the files can be told
apart. -/
theorem Tracked.keepsEdits {h : History} (htracked : Tracked sha256 h)
    {action : Action} (hlegible : Legible sha256 h action) :
    KeepsEdits sha256 h action := by
  intro hwrote issue hissue hconfirm
  rcases htracked.protected sha256 action with ⟨hnone, -⟩ | ⟨bytes, own, -, hwrites⟩
  · rw [hnone] at hwrote
    cases hwrote
  · obtain ⟨env, rfl⟩ := hconfirm
    obtain ⟨env', hsame, -⟩ := hwrites.inTime
    -- a token belongs to one issue
    obtain rfl : issue = own :=
      List.inj_on_of_nodup_map htracked.distinct hissue hwrites.issued
        (Action.confirm.inj hsame).2
    exact (eq_iff_comparable sha256 hwrites.digest).mpr
      (hlegible issue hissue ⟨env, rfl⟩)

/-! ### Trials that are over -/

/-- The action ends the trial of the token: a confirm that succeeded, or a
rollback or an expiry of it. -/
def Action.concludes (s : System) (token : Text) : Action → Prop
  | .confirm env named =>
      named = token ∧ (Py.confirm sha256 s env named).reply = .ok .saved
  | .rollback env named =>
      (named = token ∨ named = [] ∧ Pending s token) ∧ env.disarmRaised = false
  | .expire _ named => named = token
  | _ => False

/-- The trial was issued and is not pending any more. -/
def Spent (h : History) (token : Text) : Prop :=
  (∃ issue ∈ h.issues, issue.token = token) ∧ ¬ Pending h.system token

theorem not_pending_of_record {s : System} (h : s.record = none) (token : Text) :
    ¬ Pending s token := by
  rintro ⟨state, hstate, -⟩
  rw [h] at hstate
  cases hstate

theorem Spent.step {h : History} {token : Text} (hspent : Spent h token)
    {action : Action} (hfeasible : Feasible h action) :
    Spent (h.step sha256 action) token := by
  obtain ⟨⟨issue, hissue, htoken⟩, hpending⟩ := hspent
  refine ⟨⟨issue, List.mem_append_right _ hissue, htoken⟩, ?_⟩
  rcases run_files sha256 hfeasible with (⟨hrecord, -⟩ | hnone) | hnone | hissues
  · rintro ⟨state, hstate, hown⟩
    refine hpending ⟨state, ?_, hown⟩
    rw [← hrecord]
    exact hstate
  · exact not_pending_of_record hnone token
  · rintro ⟨state, hstate, -⟩
    cases hstate.symm.trans hnone
  · obtain ⟨env, request, bytes, record, rfl, -, hissues⟩ := hissues
    rintro ⟨state, hstate, hown⟩
    have hread := readTrialState_recordOf
      (matchesToken_of_hex env.tokenLength env.tokenHex) hissues.written
    rw [← hissues.record] at hread
    have hnew := hstate.symm.trans hread
    split at hnew
    · obtain rfl := Option.some.inj hnew
      exact hfeasible.2 issue hissue (htoken.trans (Value.str.inj hown).symm)
    · cases hnew

theorem restore_not_pending (s : System) (env : Circumstances)
    (reply : Except Failure Reply) (token : Text) :
    ¬ Pending (s.restore env reply).system token :=
  not_pending_of_record (restore_quiet s env reply).2 token

theorem rollback_concludes {s : System} {env : Circumstances} {named token : Text}
    (hnamed : named = token ∨ named = [] ∧ Pending s token)
    (hraised : env.disarmRaised = false) :
    ¬ Pending (rollback s env named).system token := by
  unfold rollback
  cases hstate : readTrialState s.record with
  | none =>
      rintro ⟨state, hsome, -⟩
      cases hstate.symm.trans hsome
  | some state =>
      -- what is pending is the record just read
      have hsame : Pending s token → state.token = .str token := by
        rintro ⟨other, hother, htoken⟩
        rw [hstate] at hother
        rwa [Option.some.inj hother]
      dsimp only
      split
      · next hother =>
        intro hpending
        rcases hnamed with rfl | ⟨hnil, -⟩
        · have := isStr_iff.mpr (hsame hpending)
          simp [this] at hother
        · exact hother.1 hnil
      · split
        · rw [if_neg (by rw [hraised]; exact Bool.false_ne_true)]
          exact restore_not_pending _ env _ token
        · next hnot => exact fun hpending => hnot token (hsame hpending)

theorem expire_concludes (s : System) (env : Circumstances) (token : Text) :
    ¬ Pending (expire s env token).system token := by
  unfold expire
  dsimp only
  split
  · next hform =>
    rintro ⟨state, hstate, htoken⟩
    have hmatches := readTrialState_matches hstate
    rw [htoken] at hmatches
    simp [show matchesToken token = true from hmatches] at hform
  · cases hstate : readTrialState s.record with
    | none =>
        rintro ⟨state, hsome, -⟩
        cases hstate.symm.trans hsome
    | some state =>
        dsimp only
        split
        · exact restore_not_pending _ env _ token
        · next hother =>
          rintro ⟨same, hsame, htoken⟩
          obtain rfl := Option.some.inj (hstate.symm.trans hsame)
          exact hother (isStr_iff.mpr htoken)

theorem concludes_not_pending {s : System} {token : Text} {action : Action}
    (h : action.concludes sha256 s token) :
    ¬ Pending (s.next sha256 action) token := by
  cases action with
  | confirm env named =>
      exact not_pending_of_record ((confirm_ends sha256 s env named).saved h.2) token
  | rollback env named => exact rollback_concludes h.1 h.2
  | expire env named =>
      obtain rfl : named = token := h
      exact expire_concludes s env named
  | apply env request => exact h.elim
  | edit store => exact h.elim

/-- A confirm writes only for the token that is pending. -/
theorem confirm_wrote_pending {s : System} {env : Circumstances} {token : Text}
    (h : ¬ Pending s token) : (confirm sha256 s env token).wrote = none := by
  rcases (confirm_ends sha256 s env token).wrote with hquiet | hwrote
  · exact hquiet.1
  · obtain ⟨bytes, state, document, -, -, hconfirms⟩ := hwrote
    exact absurd ⟨state, hconfirms.recorded, hconfirms.token⟩ h

/-! ### Runs -/

end

/-! ### An edit that is lost -/

/-- A saved file that cannot be read is replaced by its owner between an apply
and its confirm. -/
def unreadableEdit : List Action :=
  [.apply .calm emptyRequest, .edit (.file false (ascii "theirs")),
    .confirm .calm Circumstances.calm.token]

def System.unreadable : System :=
  { System.start with store := .file false (ascii "ours") }

theorem emptyRequest_loads : ∃ line, loads line = some emptyRequest := by
  have hproper : Proper emptyRequest := by
    refine .obj _ (by simp) fun field hfield => ?_
    rw [List.mem_singleton.mp hfield]
    refine .obj _ (by simp) fun field hfield => ?_
    rw [List.mem_singleton.mp hfield]
    exact .num _
  have hwritten : (dumps emptyRequest).isSome = true := by decide +kernel
  obtain ⟨line, hline⟩ := Option.isSome_iff_exists.mp hwritten
  exact ⟨line ++ [], loads_dumps hproper hline rfl⟩

theorem unreadableEdit_feasible (sha256 : Text → Text) (start : System) :
    EachStep (History.step sha256) Feasible ⟨start, []⟩ unreadableEdit :=
  ⟨⟨emptyRequest_loads, by simp⟩, trivial, trivial, trivial⟩

end Py

end Displays

end CybexOS
