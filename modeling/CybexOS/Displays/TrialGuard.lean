/-
When an unconfirmed arrangement always has its record and its timer: one
condition per action, and the runs made of such actions.
-/
import CybexOS.Displays.Trial
import CybexOS.Runs

namespace CybexOS

namespace Displays

namespace Py

open Json

/-- Whenever the live rules come from a trial, its record is on disk and its
timer is armed. -/
def Guarded (s : System) : Prop :=
  ∀ token, s.live = .trial token → Pending s token ∧ token ∈ s.timers

theorem guarded_of_saved {s : System} (h : s.live = .saved) : Guarded s := by
  intro token htoken
  rw [h] at htoken
  cases htoken

/-- Without a usable record nothing but the saved rules is guarded. -/
theorem guarded_bare_iff {s : System} (h : readTrialState s.record = none) :
    Guarded s ↔ s.live = .saved := by
  refine ⟨fun hguarded => ?_, guarded_of_saved⟩
  cases hlive : s.live with
  | saved => rfl
  | trial token =>
      obtain ⟨⟨state, hstate, -⟩, -⟩ := hguarded token hlive
      rw [h] at hstate
      cases hstate

/-! ### The shared steps -/

theorem reload_live (s : System) (ran : Ran) :
    (s.reload ran).live = if ran.effect then .saved else s.live := by
  unfold System.reload
  split <;> rfl

theorem mem_arm_timers {ran : Ran} (h : ran.effect = true) (s : System)
    (token : Text) : token ∈ (s.arm ran token).timers := by
  rw [System.arm, if_pos h]
  exact List.mem_cons_self

theorem mem_stop_timers {s : System} {token : Text} (h : token ∈ s.timers)
    (ran : Ran) : token ∈ (s.stop ran token).timers ↔ ran.effect = false := by
  unfold System.stop
  split <;> simp_all

theorem guarded_reload_iff (s : System) (ran : Ran) :
    Guarded (s.clearTrial.reload ran) ↔ (s.live ≠ .saved → ran.effect = true) := by
  rw [guarded_bare_iff (by rw [(System.reload_frame _ _).2.2.1]; rfl), reload_live, ne_eq,
    ← or_iff_not_imp_left]
  cases ran.effect <;> simp [System.clearTrial]

theorem guarded_restore_iff (s : System) (env : Circumstances)
    (reply : Except Failure Reply) :
    Guarded (s.restore env reply).system ↔
      (s.live ≠ .saved → env.reload.effect = true) :=
  guarded_reload_iff s env.reload

section

variable {s : System} (h : Guarded s) {state : TrialState}
  (hstate : readTrialState s.record = some state) {own : Text}
  (hown : state.token = .str own)

include h hstate hown

/-- Stopping the timer of the pending trial leaves a live trial unguarded. -/
theorem guarded_stop_iff (ran : Ran) :
    Guarded (s.stop ran own) ↔ (s.live ≠ .saved → ran.effect = false) := by
  cases hlive : s.live with
  | saved => simp [guarded_of_saved, hlive]
  | trial token =>
      obtain ⟨⟨other, hother, htoken⟩, -⟩ := h token hlive
      obtain rfl : state = other := by
        rw [hstate] at hother
        exact Option.some.inj hother
      obtain rfl : own = token := by
        rw [hown] at htoken
        exact Value.str.inj htoken
      cases heffect : ran.effect with
      | false => simp [System.stop, heffect, h]
      | true =>
          refine iff_of_false (fun hguarded => ?_) (by simp)
          have hmem := (hguarded own (by rw [(System.stop_frame _ _ _).2.2.2, hlive])).2
          simp [System.stop, heffect] at hmem

/-- An action on the pending trial begins by stopping its timer. -/
theorem guarded_ending_iff (env : Circumstances) {rest : Result} {P : Prop}
    (hrest : Guarded rest.system ↔ (s.live ≠ .saved → P)) :
    Guarded (if env.disarmRaised then
        (s.stop env.stopTimer own).reply (.error .crashed) else rest).system ↔
      (s.live ≠ .saved →
        if env.disarmRaised then env.stopTimer.effect = false else P) := by
  split
  · exact guarded_stop_iff h hstate hown env.stopTimer
  · exact hrest

end

/-- A usable record has a token of the right form. -/
theorem readTrialState_matches {record : Option Text} {state : TrialState}
    (h : readTrialState record = some state) :
    matchesToken (tokenText state.token) = true := by
  obtain ⟨value, -, hvalue⟩ := Option.bind_eq_some_iff.mp h
  split at hvalue
  · next hcheck =>
    split at hvalue
    · split at hvalue
      · rw [← Option.some.inj hvalue]
        exact (Bool.and_eq_true_iff.mp hcheck).2
      · cases hvalue
    · cases hvalue
  · cases hvalue

/-! ### The condition of each action -/

/-- Hyprland refused the candidate. -/
def Circumstances.refused (env : Circumstances) : Bool :=
  !env.eval.raised && !env.eval.accepted

/-- The expiry written is one `read_trial_state` accepts. -/
def Circumstances.clockFits (env : Circumstances) : Bool :=
  within (.float (Number.ofRat (env.started.val + TRIAL_SECONDS))) 0 (10 ^ 12)

/-- Showing the candidate.  After a refusal the reload works, unless nothing
but the saved rules was live; a refusal that cannot be wound up leaves the
timer; and without the new rules no older trial is live. -/
def SafeShow (live : Live) (env : Circumstances) : Prop :=
  if env.refused && !env.disarmRaised then
    env.reload.effect = true ∨ env.eval.effect = false ∧ live = .saved
  else if env.eval.effect then
    env.clockFits = true ∧ (env.refused = true → env.stopTimer.effect = false)
  else live = .saved

section

variable (sha256 : Text → Text)

/-- Everything before the evaluation works. -/
def armsTrial (s : System) (env : Circumstances) : Bool :=
  env.trialWrite = .done &&
    (encode (recordOf env.token (Number.ofRat (env.started.val + TRIAL_SECONDS))
      (digestOf sha256 s.store))).isSome &&
    env.recordWrite = .done && env.arm.succeeded

/-- The request passes the checks that change nothing. -/
def startsTrial (s : System) (env : Circumstances) (request : PyValue) : Bool :=
  ((validateDocument (getNone request "document")).toOption.bind encode).isSome &&
    !(readTrialState s.record).any fun state => isPending state env.checked

def SafeApply (s : System) (env : Circumstances) (request : PyValue) : Prop :=
  startsTrial s env request = true →
    if baseMatches sha256 request s.store && armsTrial sha256 s env then
      SafeShow s.live env
    else s.live = .saved

/-- `confirm` gives the trial up instead of saving it. -/
def undoes (s : System) (env : Circumstances) (state : TrialState) : Bool :=
  PyNumber.after state.expires CONFIRM_GRACE_SECONDS < env.checked.val ||
    match readTrial s.trial with
    | some (.ok _) => !isStr state.baseDigest (digestOf sha256 s.store)
    | some (.error .overflow) => false
    | _ => true

/-- The candidate can be written and the saved file replaced. -/
def saves (s : System) (env : Circumstances) : Bool :=
  ((readTrial s.trial).bind fun checked => checked.toOption.bind encode).isSome &&
    s.store ≠ .unsupported && env.saveWrite = .done

def SafeConfirm (s : System) (env : Circumstances) (token : Text) : Prop :=
  ∀ state, readTrialState s.record = some state → state.token = .str token →
    s.live ≠ .saved →
      if env.disarmRaised then env.stopTimer.effect = false
      else if undoes sha256 s env state then env.reload.effect = true
      else saves s env = true ∨ env.stopTimer.effect = false

def SafeRollback (s : System) (env : Circumstances) (token : Text) : Prop :=
  ∀ state, readTrialState s.record = some state →
    ∀ own, state.token = .str own → (token = [] ∨ token = own) →
      s.live ≠ .saved →
        if env.disarmRaised then env.stopTimer.effect = false
        else env.reload.effect = true

def SafeExpire (s : System) (env : Circumstances) (token : Text) : Prop :=
  ∀ state, readTrialState s.record = some state → state.token = .str token →
    s.live ≠ .saved → env.reload.effect = true

/-- No call fails that the live trial depends on. -/
def Safe (s : System) : Action → Prop
  | .apply env request => SafeApply sha256 s env request
  | .confirm env token => SafeConfirm sha256 s env token
  | .rollback env token => SafeRollback s env token
  | .expire env token => SafeExpire s env token
  | .edit _ => True

/-! ### Each action -/

theorem rollback_guarded_iff {s : System} (h : Guarded s) (env : Circumstances)
    (token : Text) :
    Guarded (rollback s env token).system ↔ SafeRollback s env token := by
  unfold rollback SafeRollback
  cases hstate : readTrialState s.record with
  | none => exact iff_of_true h (fun state hnone => nomatch hnone)
  | some state =>
      simp only [Option.some.injEq, forall_eq']
      cases hown : state.token with
      | str own =>
          simp only [Value.str.injEq, forall_eq', isStr, Bool.not_eq_true',
            beq_eq_false_iff_ne, ne_eq]
          by_cases hother : ¬ token = [] ∧ ¬ own = token
          · rw [if_pos hother]
            refine iff_of_true h fun htoken => ?_
            rcases htoken with hnil | hsame
            · exact absurd hnil hother.1
            · exact absurd hsame.symm hother.2
          · rw [if_neg hother]
            have haddressed : token = [] ∨ token = own := by
              by_cases hnil : token = []
              · exact Or.inl hnil
              · exact Or.inr (not_not.mp (not_and.mp hother hnil)).symm
            rw [forall_prop_of_true haddressed]
            refine guarded_ending_iff h hstate hown env ?_
            rw [guarded_restore_iff, (System.stop_frame _ _ _).2.2.2]
      | _ =>
          simp only [reduceCtorEq, false_implies, implies_true, iff_true]
          split <;> exact h

theorem expire_guarded_iff {s : System} (h : Guarded s) (env : Circumstances)
    (token : Text) :
    Guarded (expire s env token).system ↔ SafeExpire s env token := by
  -- the spent timer is not the one that guards a live trial
  have hfired : ¬ (∃ state, readTrialState s.record = some state ∧
      state.token = .str token) →
      Guarded { s with timers := s.timers.filter (· ≠ token) } := by
    intro hnone live hlive
    obtain ⟨⟨state, hstate, htoken⟩, hmem⟩ := h live hlive
    refine ⟨⟨state, hstate, htoken⟩, List.mem_filter.mpr ⟨hmem, ?_⟩⟩
    rw [decide_eq_true_eq]
    rintro rfl
    exact hnone ⟨state, hstate, htoken⟩
  unfold expire SafeExpire
  cases hstate : readTrialState s.record with
  | none =>
      rw [hstate] at hfired
      refine iff_of_true ?_ (fun state hnone => nomatch hnone)
      have := hfired (by simp)
      split <;> exact this
  | some state =>
      simp only [hstate, Option.some.injEq, forall_eq', exists_eq_left'] at hfired ⊢
      by_cases htoken : state.token = .str token
      · have hmatches : matchesToken token = true := by
          have := readTrialState_matches hstate
          rwa [htoken] at this
        rw [isStr_iff.mpr htoken, hmatches, forall_prop_of_true htoken]
        exact guarded_restore_iff _ env _
      · refine iff_of_true ?_ fun heq => absurd heq htoken
        have hguarded := hfired htoken
        have hother : isStr state.token token = false := by
          rw [Bool.eq_false_iff]
          exact fun heq => htoken (isStr_iff.mp heq)
        rw [hother]
        split
        · exact hguarded
        · exact hguarded

theorem save_guarded_iff {s : System} {token : Text} (h : Guarded s)
    {state : TrialState} (hstate : readTrialState s.record = some state)
    (hown : state.token = .str token) (env : Circumstances) (data : Text) :
    Guarded (save (s.stop env.stopTimer token) env token data).system ↔
      (s.live ≠ .saved → (s.store ≠ .unsupported ∧ env.saveWrite = .done) ∨
        env.stopTimer.effect = false) := by
  have hstop := guarded_stop_iff h hstate hown env.stopTimer
  -- saving changes neither the record nor the timers
  have hkept : ∀ store, Guarded { s.stop env.stopTimer token with store := store } ↔
      Guarded (s.stop env.stopTimer token) := fun _ => Iff.rfl
  unfold save
  rw [(System.stop_frame _ _ _).1]
  by_cases hstore : s.store = .unsupported
  · rw [if_pos hstore]
    simpa [hstore] using hstop
  · rw [if_neg hstore]
    cases hwrite : env.saveWrite with
    | failed => simpa using hstop
    | thenFailed => simpa using (hkept _).trans hstop
    | done =>
        refine iff_of_true (guarded_of_saved ?_) fun _ => Or.inl ⟨hstore, rfl⟩
        dsimp only
        rw [(System.stop_frame _ _ _).2.2.2]
        cases hlive : s.live with
        | saved => simp
        | trial live =>
            obtain ⟨⟨other, hother, hlives⟩, -⟩ := h live hlive
            rw [hstate, Option.some.injEq] at hother
            subst hother
            rw [hown] at hlives
            rw [Value.str.inj hlives, if_pos rfl]

theorem confirm_guarded_iff {s : System} (h : Guarded s) (env : Circumstances)
    (token : Text) :
    Guarded (confirm sha256 s env token).system ↔
      SafeConfirm sha256 s env token := by
  unfold confirm SafeConfirm
  cases hstate : readTrialState s.record with
  | none => exact iff_of_true h (fun state hnone => nomatch hnone)
  | some state =>
      simp only [Option.some.injEq, forall_eq']
      by_cases hown : state.token = .str token
      · rw [isStr_iff.mpr hown, forall_prop_of_true hown]
        refine guarded_ending_iff h hstate hown env ?_
        have hrestore : ∀ failure, Guarded ((s.stop env.stopTimer token).restore env
            (.error failure)).system ↔
              (s.live ≠ .saved → env.reload.effect = true) := by
          intro failure
          rw [guarded_restore_iff, (System.stop_frame _ _ _).2.2.2]
        have hstop := guarded_stop_iff h hstate hown env.stopTimer
        by_cases hlate : PyNumber.after state.expires CONFIRM_GRACE_SECONDS <
            env.checked.val
        · simpa [undoes, hlate] using hrestore .expired
        · simp only [hlate, if_false, undoes, decide_false, Bool.false_or, saves]
          cases hread : readTrial s.trial with
          | none => simpa using hrestore .unreadable
          | some checked =>
              cases checked with
              | error problem =>
                  cases problem
                  case overflow => simpa [Except.toOption] using hstop
                  all_goals simpa using hrestore .unreadable
              | ok document =>
                  dsimp only
                  by_cases hbase : isStr state.baseDigest
                      (digestOf sha256 s.store) = true
                  · cases hencode : encode document with
                    | none => simpa [hbase, hencode, Except.toOption] using hstop
                    | some data =>
                        simpa [hbase, hencode, Except.toOption] using
                          save_guarded_iff h hstate hown env data
                  · simpa [hbase] using hrestore .changedMeanwhile
      · refine iff_of_true ?_ fun heq => absurd heq hown
        have hother : isStr state.token token = false := by
          rw [Bool.eq_false_iff]
          exact fun heq => hown (isStr_iff.mp heq)
        rw [hother]
        exact h

/-! ### Applying -/

/-- A condition for staying guarded: enough in any case, and necessary as long
as the new token is fresh. -/
structure Decides (fresh guarded safe : Prop) : Prop where
  enough : safe → guarded
  necessary : fresh → guarded → safe

theorem Decides.of_iff {fresh guarded safe : Prop} (h : guarded ↔ safe) :
    Decides fresh guarded safe :=
  ⟨h.mpr, fun _ => h.mp⟩

theorem matchesToken_of_hex {token : Text} (hlength : token.length = 16)
    (hhex : token.all isTokenUnit = true) : matchesToken token = true := by
  have hlast : token.getLast? ≠ some 10 := by
    intro hlast
    have := List.all_eq_true.mp hhex 10 (List.mem_of_getLast? hlast)
    revert this
    decide
  simp [matchesToken, hlast, hlength, hhex]

/-- The record that `apply` wrote is read back, if its expiry is accepted. -/
theorem readTrialState_recordOf {token : Text} (htoken : matchesToken token = true)
    {expires : Number} {digest record : Text}
    (h : encode (recordOf token expires digest) = some record) :
    readTrialState (some record) =
      if within (.float expires) 0 (10 ^ 12) then
        some ⟨.str token, .float expires, .str digest⟩
      else none := by
  have hproper : Proper (recordOf token expires digest) := by
    refine Proper.obj _ (by simp [ascii]) fun field hfield => ?_
    simp only [List.mem_cons, List.not_mem_nil, or_false] at hfield
    rcases hfield with rfl | rfl | rfl
    · exact Proper.str _
    · exact Proper.num _
    · exact Proper.str _
  rw [readTrialState, readJsonFile_encode hproper h, Option.bind_some]
  have hdict : isDict (recordOf token expires digest) = true := rfl
  have hname : getNone (recordOf token expires digest) "token" = .str token := by
    simp [getNone, recordOf, Value.field?, ascii]
  have hexpires : getNone (recordOf token expires digest) "expires" =
      .num (.float expires) := by
    simp [getNone, recordOf, Value.field?, ascii, List.lookup_cons]
  have hbase : getNone (recordOf token expires digest) "baseDigest" =
      .str digest := by
    simp [getNone, recordOf, Value.field?, ascii, List.lookup_cons]
  simp only [hdict, hname, hexpires, hbase, tokenText, htoken, Bool.and_self,
    if_true]

section

variable {s : System} {env : Circumstances} {digest record : Text}
  (hencode : encode (recordOf env.token
    (Number.ofRat (env.started.val + TRIAL_SECONDS)) digest) = some record)
  (hrecord : s.record = some record)

include hencode hrecord

/-- With the new record on disk, only the new trial can be guarded. -/
theorem guarded_recorded_iff :
    Guarded s ↔ s.live = .saved ∨
      s.live = .trial env.token ∧ env.clockFits = true ∧ env.token ∈ s.timers := by
  have hmatches := matchesToken_of_hex env.tokenLength env.tokenHex
  have hread := readTrialState_recordOf hmatches hencode
  rw [← hrecord] at hread
  change _ = if env.clockFits = true then _ else none at hread
  by_cases hfits : env.clockFits = true
  · rw [if_pos hfits] at hread
    cases hlive : s.live with
    | saved => simp [guarded_of_saved, hlive]
    | trial token =>
        simp only [reduceCtorEq, false_or, Live.trial.injEq, hfits, true_and]
        constructor
        · intro h
          obtain ⟨⟨state, hstate, htoken⟩, hmem⟩ := h token hlive
          rw [hread, Option.some.injEq] at hstate
          subst hstate
          obtain rfl := Value.str.inj htoken
          exact ⟨rfl, hmem⟩
        · rintro ⟨rfl, hmem⟩ other hother
          rw [hlive, Live.trial.injEq] at hother
          subst hother
          exact ⟨⟨_, hread, rfl⟩, hmem⟩
  · have hbare : readTrialState s.record = none := by
      rw [hread]
      exact if_neg hfits
    rw [guarded_bare_iff hbare]
    simp [hfits]

theorem showTrial_guarded (hmem : env.token ∈ s.timers) (expires : Number) :
    Decides (s.live ≠ .trial env.token)
      (Guarded (showTrial s env expires).system) (SafeShow s.live env) := by
  have hlive : (s.show env.eval env.token).live =
      if env.eval.effect then .trial env.token else s.live := by
    unfold System.show
    split <;> rfl
  have hrecordShown : (s.show env.eval env.token).record = some record :=
    (System.show_frame _ _ _).2.2.1.trans hrecord
  have hmemShown : env.token ∈ (s.show env.eval env.token).timers := by
    rwa [(System.show_frame _ _ _).2.2.2]
  unfold showTrial SafeShow Circumstances.refused
  -- with the candidate shown, only its own record and timer count
  have hshown := guarded_recorded_iff hencode hrecordShown
  rw [hlive] at hshown
  cases hraise : env.eval.raised with
  | true =>
      simp only [if_true, System.reply_eq, hshown, Bool.not_true, Bool.false_and,
        Bool.false_eq_true, if_false, false_implies, and_true]
      cases env.eval.effect with
      | true => exact .of_iff (by simp [hmem])
      | false => exact ⟨Or.inl, by simp +contextual⟩
  | false =>
      cases haccept : env.eval.accepted with
      | true =>
          have heffect := env.shows haccept
          exact .of_iff (by simp [hshown, heffect, hmem])
      | false =>
          cases hdisarm : env.disarmRaised with
          | true =>
              have hstopped := guarded_recorded_iff hencode
                ((System.stop_frame _ env.stopTimer env.token).2.2.1.trans hrecordShown)
              rw [(System.stop_frame _ _ _).2.2.2, hlive, mem_stop_timers hmemShown]
                at hstopped
              simp only [Bool.false_eq_true, if_false, if_true, System.reply_eq,
                hstopped, Bool.not_false, Bool.not_true, Bool.and_false,
                Bool.and_true, true_implies]
              cases env.eval.effect with
              | true => exact .of_iff (by simp)
              | false => exact ⟨Or.inl, by simp +contextual⟩
          | false =>
              refine .of_iff ?_
              simp only [Bool.false_eq_true, if_false, System.reply_eq,
                guarded_reload_iff, System.stop_frame, hlive, Bool.not_false,
                Bool.and_true, if_true]
              cases env.eval.effect <;> simp [or_comm, ← or_iff_not_imp_left]

end

theorem armTrial_guarded {s : System} (hbare : readTrialState s.record = none)
    (env : Circumstances) (data : Text) :
    Decides (s.live ≠ .trial env.token)
      (Guarded (armTrial sha256 s env data).system)
      (if armsTrial sha256 s env then SafeShow s.live env else s.live = .saved) := by
  have hcandidate : Guarded (s.writeTrial env.trialWrite data) ↔
      s.live = .saved := by
    rw [guarded_bare_iff, (System.writeTrial_frame _ _ _).2.2]
    rwa [(System.writeTrial_frame _ _ _).2.1]
  have hkept := (s.writeTrial_frame env.trialWrite data).2.2
  unfold armTrial armsTrial
  by_cases htrial : env.trialWrite = .done
  · cases hencode : encode (recordOf env.token
        (Number.ofRat (env.started.val + TRIAL_SECONDS)) (digestOf sha256 s.store)) with
    | none => exact .of_iff (by simpa [htrial, hencode] using hcandidate)
    | some record =>
        -- an older trial is not guarded by the new record
        have hunshown : ∀ t : System, t.live = s.live → t.record = some record →
            Decides (s.live ≠ .trial env.token) (Guarded t) (s.live = .saved) := by
          intro t hlive hrecord
          rw [guarded_recorded_iff hencode hrecord, hlive]
          exact ⟨Or.inl, by simp +contextual⟩
        by_cases hwrite : env.recordWrite = .done
        · simp only [htrial, hencode, hwrite, ne_eq, not_true_eq_false, if_false,
            Option.isSome_some, decide_true, Bool.and_true, Bool.true_and]
          have hlive : (((s.writeTrial env.trialWrite data).writeRecord .done
              record).arm env.arm env.token).live = s.live := by
            rw [(System.arm_frame _ _ _).2.2.2, ← hkept]
            rfl
          have hrecord : (((s.writeTrial env.trialWrite data).writeRecord .done
              record).arm env.arm env.token).record = some record := by
            rw [(System.arm_frame _ _ _).2.2.1]
            rfl
          rw [htrial] at hlive hrecord
          cases hraised : env.arm.raised with
          | true =>
              have hfailed : env.arm.succeeded = false := by
                revert hraised
                unfold Ran.raised Ran.succeeded
                cases env.arm.result <;> simp
              rw [hfailed]
              exact hunshown _ hlive hrecord
          | false =>
              cases harm : env.arm.succeeded with
              | true =>
                  have hmem := mem_arm_timers (env.arms harm)
                    ((s.writeTrial .done data).writeRecord .done record) env.token
                  have := showTrial_guarded hencode hrecord hmem
                    (Number.ofRat (env.started.val + TRIAL_SECONDS))
                  rwa [hlive] at this
              | false =>
                  refine .of_iff ((guarded_bare_iff rfl).trans ?_)
                  rw [← hlive]
                  rfl
        · have hrecorded : Decides (s.live ≠ .trial env.token)
              (Guarded ((s.writeTrial env.trialWrite data).writeRecord
                env.recordWrite record)) (s.live = .saved) := by
            unfold System.writeRecord
            split
            · exact hunshown _ hkept rfl
            · exact .of_iff hcandidate
          simpa [htrial, hencode, hwrite] using hrecorded
  · exact .of_iff (by simpa [htrial] using hcandidate)

theorem apply_guarded {s : System} (h : Guarded s) (env : Circumstances)
    (request : PyValue) :
    Decides (s.live ≠ .trial env.token)
      (Guarded (apply sha256 s env request).system)
      (SafeApply sha256 s env request) := by
  unfold apply SafeApply startsTrial
  cases hvalid : validateDocument (getNone request "document") with
  | error problem => exact .of_iff (by simpa [Except.toOption] using h)
  | ok document =>
      cases hencode : encode document with
      | none => exact .of_iff (by simpa [Except.toOption, hencode] using h)
      | some data =>
          by_cases hpending : (readTrialState s.record).any
              (fun state => isPending state env.checked) = true
          · exact .of_iff (by simpa [Except.toOption, hencode, hpending] using h)
          · -- whatever record was there has been cleared
            have hclean : ∀ clean, clean = (if (readTrialState s.record).isSome then
                s.clearTrial else s) → readTrialState clean.record = none ∧
                  clean.live = s.live ∧ clean.store = s.store := by
              rintro clean rfl
              cases hstate : readTrialState s.record with
              | none => exact ⟨hstate, rfl, rfl⟩
              | some state => exact ⟨rfl, rfl, rfl⟩
            simp only [Except.toOption, Option.bind_some, hencode, hpending,
              Option.isSome_some, Bool.true_and, Bool.not_false, true_implies,
              Bool.false_eq_true, if_false, eq_self]
            obtain ⟨hbare, hlive, hstore⟩ := hclean _ rfl
            generalize (if (readTrialState s.record).isSome then
              s.clearTrial else s) = clean at hbare hlive hstore
            have harm := armTrial_guarded sha256 hbare env data
            rw [hlive] at harm
            cases hbase : baseMatches sha256 request s.store with
            | true => simpa [armsTrial, hstore] using harm
            | false => exact .of_iff (by simpa [hlive] using guarded_bare_iff hbare)

/-- A new token is not that of the trial on screen. -/
def FreshToken (s : System) : Action → Prop
  | .apply env _ => s.live ≠ .trial env.token
  | _ => True

/-- One action keeps a live trial guarded exactly when it is safe. -/
theorem run_guarded {s : System} (h : Guarded s) (action : Action) :
    Decides (FreshToken s action) (Guarded (action.run sha256 s).system)
      (Safe sha256 s action) := by
  cases action with
  | apply env request => exact apply_guarded sha256 h env request
  | confirm env token => exact .of_iff (confirm_guarded_iff sha256 h env token)
  | rollback env token => exact .of_iff (rollback_guarded_iff h env token)
  | expire env token => exact .of_iff (expire_guarded_iff h env token)
  | edit store => exact .of_iff (iff_of_true h trivial)

/-! ### Runs -/

def System.next (s : System) (action : Action) : System :=
  (action.run sha256 s).system

/-- A run of safe actions keeps every live trial guarded; with fresh tokens no
other run does. -/
theorem states_guarded {s : System} (h : Guarded s) (actions : List Action) :
    (EachStep (System.next sha256) (Safe sha256) s actions →
      ∀ state ∈ states (System.next sha256) s actions, Guarded state) ∧
    (EachStep (System.next sha256) FreshToken s actions →
      (∀ state ∈ states (System.next sha256) s actions, Guarded state) →
        EachStep (System.next sha256) (Safe sha256) s actions) := by
  have hstep : ∀ s action, Guarded s → Safe sha256 s action →
      Guarded (s.next sha256 action) :=
    fun s action hs => (run_guarded sha256 hs action).enough
  refine ⟨EachStep.states hstep h, ?_⟩
  induction actions generalizing s with
  | nil => exact fun _ _ => trivial
  | cons action actions ih =>
      intro hfresh hguarded
      obtain ⟨-, hlater⟩ := List.forall_mem_cons.mp hguarded
      have hafter := hlater _ (mem_states_head _ actions)
      exact ⟨(run_guarded sha256 h action).necessary hfresh.1 hafter,
        ih hafter hfresh.2 hlater⟩

end

/-! ### A run that is not safe -/

def Ran.done : Ran := ⟨true, some (0, ascii "ok", [])⟩

/-- Every call works. -/
def Circumstances.calm : Circumstances where
  checked := Double.ofInt 1700000000 (by norm_num)
  started := Double.ofInt 1700000000 (by norm_num)
  token := ascii "0123456789abcdef"
  trialWrite := .done
  recordWrite := .done
  saveWrite := .done
  arm := .done
  eval := .done
  stopTimer := .done
  stopService := .done
  reload := .done
  tokenLength := by decide
  tokenHex := by decide
  arms := by decide
  shows := by decide
  reloads := by decide

/-- An apply of the document without displays. -/
def emptyRequest : PyValue :=
  .obj [(ascii "document", .obj [(ascii "v", .num (.int 1))])]

/-- Nothing saved, nothing tried. -/
def System.start : System := ⟨.absent, none, none, [], .saved⟩

/-- The save fails after the timer has been stopped. -/
def fullDisk : List Action :=
  [.apply .calm emptyRequest,
    .confirm { Circumstances.calm with saveWrite := .failed } Circumstances.calm.token]

theorem fullDisk_unguarded : ¬ ∀ (sha256 : Text → Text) (actions : List Action),
    ∀ state ∈ states (System.next sha256) .start actions, Guarded state := by
  intro h
  have hlast : ∀ state ∈ (states (System.next fun _ => []) .start fullDisk).getLast?,
      state.live = .trial Circumstances.calm.token ∧ state.timers = [] := by
    decide +kernel
  cases hstate : (states (System.next fun _ => []) .start fullDisk).getLast? with
  | none => simp [states, fullDisk] at hstate
  | some state =>
      obtain ⟨hlive, htimers⟩ := hlast state hstate
      have hmem := (h _ _ state (List.mem_of_getLast? hstate) _ hlive).2
      rw [htimers] at hmem
      cases hmem

/-- Applied, then given up in good order. -/
theorem states_guarded_rollback : Guarded (System.next (fun _ => [])
    (System.next (fun _ => []) .start (.apply .calm emptyRequest))
    (.rollback .calm [])) := by
  have hsafe : EachStep (System.next fun _ => []) (Safe fun _ => []) .start
      [.apply .calm emptyRequest, .rollback .calm []] := by
    refine ⟨fun _ => ?_, ?_, trivial⟩
    · rw [if_pos (by decide +kernel)]
      unfold SafeShow
      decide +kernel
    · intro state _ own _ _ _
      rw [if_neg (by decide)]
      rfl
  exact (states_guarded _ (guarded_of_saved rfl) _).1 hsafe _
    (List.mem_cons_of_mem _ (List.mem_cons_of_mem _ (List.mem_singleton_self _)))

end Py

end Displays

end CybexOS
