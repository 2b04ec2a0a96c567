/-
Sequences of reconcile runs: how often an account is applied for one identity, and
what a ready account stands for.
-/
import CybexOS.Reconcile.Reconcile

namespace CybexOS

namespace Reconcile

open Program (leads_bind leads_look_bind leads_effect_bind leads_pure leads_effect leads_fail)

section

variable {K : Type} [DecidableEq K] {identity : Text → Text → Account → K} {name : Text} {key : K}
  {s t : Machine K} {state : Status K} {accounts : List (Text × AccountEntry K)}

/-! ### Attempts -/

/-- How often an account of this name was applied. -/
def starts (s : Machine K) (name : Text) : ℕ :=
  s.applied.countP fun applying => applying.account.name = name

/-- The attempts that a record leaves for an account with this identity. -/
def left (accounts : List (Text × AccountEntry K)) (name : Text) (key : K) : ℕ :=
  match accounts.lookup name with
  | none => MAX_ATTEMPTS
  | some entry =>
      if entry.identity ≠ key then MAX_ATTEMPTS
      else if entry.state = .ready then 0 else MAX_ATTEMPTS - entry.attempts

def Machine.recorded (s : Machine K) : List (Text × AccountEntry K) :=
  (s.status.map Status.accounts).getD []

/-- What was begun and what may be. -/
def budget (s : Machine K) (name : Text) (key : K) : ℕ := starts s name + left s.recorded name key

/-- The installed account of this name has this identity, the attempts are not
reset, and nobody saves the configuration while an account is applied. -/
def Steady (identity : Text → Text → Account → K) (name : Text) (key : K) (s : Machine K) :
    ReconcileEvent → Prop
  | .runs met retry _ =>
      retry = false ∧ (∃ account ∈ s.users, account.name = name) ∧
        (∀ account ∈ s.users, account.name = name →
          identity s.version s.config account = key) ∧
        ∀ count name, (met.outcome count name).config = s.config
  | _ => True

theorem left_of_lookup {entry : AccountEntry K} (h : accounts.lookup name = some entry)
    (hkey : entry.identity = key) :
    left accounts name key = if entry.state = .ready then 0 else MAX_ATTEMPTS - entry.attempts := by
  unfold left
  rw [h]
  dsimp only
  rw [if_neg (not_not.mpr hkey)]

theorem lookup_enter (account : Account) (entry : AccountEntry K) :
    (state.enter account entry).accounts.lookup name =
      if name = account.name then some entry else state.accounts.lookup name :=
  Dict.lookup_set

/-- The last entry of a name is the one that stays. -/
theorem lookup_foldl_set (make : Account → AccountEntry K) (users : List Account)
    (accounts : List (Text × AccountEntry K)) :
    (∀ entry, (users.foldl (fun accounts account =>
        Dict.set accounts account.name (make account)) accounts).lookup name = some entry →
      (∃ account ∈ users, account.name = name ∧ entry = make account) ∨
        accounts.lookup name = some entry) ∧
    ((∃ account ∈ users, account.name = name) ∨ (accounts.lookup name).isSome →
      ((users.foldl (fun accounts account =>
        Dict.set accounts account.name (make account)) accounts).lookup name).isSome) := by
  induction users generalizing accounts with
  | nil =>
      refine ⟨fun entry h => .inr h, fun h => ?_⟩
      rcases h with ⟨account, haccount, -⟩ | h
      · cases haccount
      · exact h
  | cons head tail ih =>
      rw [List.foldl_cons]
      obtain ⟨hfound, hsome⟩ := ih (Dict.set accounts head.name (make head))
      refine ⟨fun entry h => ?_, fun h => hsome ?_⟩
      · rcases hfound entry h with ⟨account, haccount, hname, hentry⟩ | hset
        · exact .inl ⟨account, List.mem_cons_of_mem _ haccount, hname, hentry⟩
        · rw [Dict.lookup_set] at hset
          split_ifs at hset with hname
          · exact .inl ⟨head, List.mem_cons_self, hname.symm, (Option.some.inj hset).symm⟩
          · exact .inr hset
      · rw [Dict.lookup_set]
        rcases h with ⟨account, haccount, hname⟩ | h
        · rcases List.mem_cons.mp haccount with rfl | htail
          · rw [if_pos hname.symm]
            exact .inr rfl
          · exact .inl ⟨account, htail, hname⟩
        · right
          split_ifs
          · rfl
          · exact h

theorem lookup_startAccounts {retry : Bool} {entry : AccountEntry K}
    (h : (startAccounts identity s retry).lookup name = some entry) :
    ∃ account ∈ s.users, account.name = name ∧
      entry = startEntry s.recorded account s.version (identity s.version s.config account)
        retry := by
  rcases (lookup_foldl_set _ s.users []).1 entry h with hfound | hnone
  · exact hfound
  · cases hnone

/-- A run starts with the attempts that are left. -/
theorem left_startAccounts (huser : ∃ account ∈ s.users, account.name = name)
    (hkey : ∀ account ∈ s.users, account.name = name →
      identity s.version s.config account = key) :
    (∃ entry, (startAccounts identity s false).lookup name = some entry ∧ entry.identity = key) ∧
      left (startAccounts identity s false) name key = left s.recorded name key := by
  have hsome : ((startAccounts identity s false).lookup name).isSome :=
    (lookup_foldl_set _ s.users []).2 (.inl huser)
  obtain ⟨entry, hentry⟩ := Option.isSome_iff_exists.mp hsome
  obtain ⟨account, haccount, hname, rfl⟩ := lookup_startAccounts hentry
  rw [hkey account haccount hname] at hentry
  have hstart : startEntry s.recorded account s.version key false =
      ((s.recorded.lookup account.name).filter fun old => old.identity = key).getD
        (freshEntry account s.version key) := rfl
  rw [hstart, hname] at hentry
  cases hold : s.recorded.lookup name with
  | none =>
      rw [hold] at hentry
      refine ⟨⟨_, hentry, rfl⟩, (left_of_lookup hentry rfl).trans ?_⟩
      unfold left
      rw [hold]
      rfl
  | some old =>
      by_cases hsame : old.identity = key
      · rw [hold, Option.filter_some, if_pos (by simpa using hsame)] at hentry
        exact ⟨⟨old, hentry, hsame⟩,
          (left_of_lookup hentry hsame).trans (left_of_lookup hold hsame).symm⟩
      · rw [hold, Option.filter_some, if_neg (by simpa using hsame)] at hentry
        refine ⟨⟨_, hentry, rfl⟩, (left_of_lookup hentry rfl).trans ?_⟩
        unfold left
        rw [hold]
        dsimp only
        rw [if_pos hsame]
        rfl

/-- An end of an `apply` begins none. -/
theorem starts_ends (outcome : ApplyOutcome) (h : s.applied ≠ []) :
    starts (s.ends outcome) name = starts s name := by
  obtain ⟨before, last, hsplit⟩ : ∃ before last, s.applied = before ++ [last] :=
    ⟨_, _, (List.dropLast_append_getLast h).symm⟩
  unfold starts Machine.ends
  rw [hsplit]
  simp

theorem starts_begins (s : Machine K) (name : Text) (account : Account) :
    starts (s.begins account) name = starts s name + if account.name = name then 1 else 0 := by
  unfold starts Machine.begins
  simp [List.countP_append, List.countP_cons]

/-- The loop's record is written, and no budget is exceeded. -/
structure Within (identity : Text → Text → Account → K) (name : Text) (key : K) (config : Text)
    (bound : ℕ) (state : Status K) (s : Machine K) : Prop where
  status : s.status = some state
  config : s.config = config
  kept : starts s name + left state.accounts name key ≤ bound
  entry : ∃ entry, state.accounts.lookup name = some entry ∧ entry.identity = key

section

variable {config release : Text} {bound : ℕ} {outcome : ℕ → Text → ApplyOutcome}
  {account : Account}

theorem left_enter (state : Status K) (entry : AccountEntry K) {old : AccountEntry K}
    (hold : state.accounts.lookup account.name = some old)
    (hkey : account.name = name → old.identity = key ∧ entry.identity = key)
    (hready : old.state ≠ .ready) (hstate : entry.state ≠ .ready)
    (hattempts : entry.attempts = old.attempts + 1) (hleft : old.attempts < MAX_ATTEMPTS) :
    left (state.enter account entry).accounts name key + (if account.name = name then 1 else 0) =
      left state.accounts name key := by
  by_cases hname : account.name = name
  · obtain ⟨hidentity, hnew⟩ := hkey hname
    rw [if_pos hname]
    rw [hname] at hold
    rw [left_of_lookup hold hidentity, if_neg hready]
    have hentry : (state.enter account entry).accounts.lookup name = some entry := by
      rw [lookup_enter, if_pos hname.symm]
    rw [left_of_lookup hentry hnew, if_neg hstate]
    omega
  · rw [if_neg hname]
    unfold left
    rw [lookup_enter, if_neg (Ne.symm hname)]
    rfl

/-- An entry that has been applied leaves no more attempts. -/
theorem left_after {entry : AccountEntry K} (failure : Option Text) {key' : K}
    (hentry : state.accounts.lookup account.name = some entry) (hstate : entry.state ≠ .ready)
    (hkey : account.name = name → entry.identity = key ∧ key' = key) :
    left (state.enter account (entry.after failure key')).accounts name key ≤
      left state.accounts name key := by
  by_cases hname : account.name = name
  · obtain ⟨hidentity, hnew⟩ := hkey hname
    rw [hname] at hentry
    rw [left_of_lookup hentry hidentity, if_neg hstate]
    have hafter : (state.enter account (entry.after failure key')).accounts.lookup name =
        some (entry.after failure key') := by
      rw [lookup_enter, if_pos hname.symm]
    cases failure with
    | none =>
        rw [left_of_lookup hafter hnew]
        exact Nat.zero_le _
    | some message =>
        rw [left_of_lookup hafter hidentity]
        exact le_rfl
  · unfold left
    rw [lookup_enter, if_neg (Ne.symm hname)]

theorem budget_of_status (state : Status K) (h : s.status = some state) :
    budget s name key = starts s name + left state.accounts name key := by
  unfold budget Machine.recorded
  rw [h]
  rfl

/-- One account keeps to the budget. -/
theorem within_applyAccount
    (hkey : account.name = name → identity release config account = key)
    (hconfig : ∀ count name, (outcome count name).config = config)
    (h : Within identity name key config bound state s) :
    (applyAccount identity outcome release state account).Leads
      (fun _ t => budget t name key ≤ bound)
      (fun result t => ∀ state', result = .ok state' →
        Within identity name key config bound state' t) s := by
  unfold applyAccount
  rw [leads_bind, Program.leads_ofExcept]
  cases hold : state.accounts.lookup account.name with
  | none => exact fun state' hstate => (by cases hstate)
  | some old =>
      dsimp only [Option.map_some, Option.getD_some]
      rw [Program.leads_ite]
      split_ifs with hdone
      · rw [leads_pure]
        intro state' hstate
        rw [← Except.ok.inj hstate]
        exact h
      · obtain ⟨hready, hattempts⟩ := not_or.mp hdone
        -- The record is written, the account is applied, and the record is written again.
        rw [leads_effect_bind, leads_effect_bind, leads_look_bind, leads_effect_bind,
          leads_look_bind, leads_effect_bind, leads_pure]
        dsimp only [id]
        have hidentity (hname : account.name = name) : old.identity = key := by
          obtain ⟨entry, hentry, hsame⟩ := h.entry
          rw [← hname, hold] at hentry
          rw [Option.some.inj hentry]
          exact hsame
        have hleft := left_enter { state with state := .running }
          { old with state := .running, attempts := old.attempts + 1 } hold
          (fun hname => ⟨hidentity hname, hidentity hname⟩) hready nofun rfl
          (Nat.lt_of_not_le hattempts)
        have hrunning : (Status.enter { state with state := .running } account
            { old with state := .running, attempts := old.attempts + 1 }).accounts.lookup
              account.name = some { old with state := .running, attempts := old.attempts + 1 } := by
          rw [lookup_enter, if_pos rfl]
        have hothers (hname : account.name ≠ name) :
            (Status.enter { state with state := .running } account
              { old with state := .running, attempts := old.attempts + 1 }).accounts.lookup name =
                state.accounts.lookup name := by
          rw [lookup_enter, if_neg (Ne.symm hname)]
        generalize Status.enter { state with state := .running } account
          { old with state := .running, attempts := old.attempts + 1 } = running
            at hleft hrunning hothers ⊢
        have hbegun := starts_begins (s.write running) name account
        have hkept := h.kept
        have hwritten : starts (s.write running) name = starts s name := rfl
        have hstate : ({ state with state := .running } : Status K).accounts = state.accounts := rfl
        rw [hstate] at hleft
        have hsaves := hconfig ((s.write running).begins account).applied.length account.name
        have hbegins : ((s.write running).begins account).applied ≠ [] := by
          simp [Machine.begins]
        generalize outcome ((s.write running).begins account).applied.length account.name = result
          at hsaves ⊢
        have hsaved : (((s.write running).begins account).ends result).config = config := hsaves
        have hagain (hname : account.name = name) : old.identity = key ∧
            identity release (((s.write running).begins account).ends result).config account =
              key := by
          rw [hsaved]
          exact ⟨hidentity hname, hkey hname⟩
        have hwrites (last : Status K) :
            starts ((((s.write running).begins account).ends result).write last) name =
              starts ((s.write running).begins account) name := starts_ends _ hbegins
        refine ⟨?_, ?_, ?_, ?_, ?_⟩
        · rw [budget_of_status running rfl]
          omega
        · rw [budget_of_status running rfl]
          omega
        · rw [budget_of_status running rfl, starts_ends _ hbegins]
          omega
        · rw [budget_of_status (running.enter account _) rfl, hwrites]
          have hafter := left_after result.failure hrunning nofun hagain
          omega
        · intro state' hstate'
          rw [← Except.ok.inj hstate']
          refine ⟨rfl, hsaved, ?_, ?_⟩
          · rw [hwrites]
            have hafter := left_after result.failure hrunning nofun hagain
            omega
          · by_cases hname : account.name = name
            · refine ⟨_, (lookup_enter account _).trans (if_pos hname.symm), ?_⟩
              cases result.failure with
              | none => exact (hagain hname).2
              | some message => exact hidentity hname
            · obtain ⟨entry, hentry, hsame⟩ := h.entry
              refine ⟨entry, ((lookup_enter account _).trans (if_neg (Ne.symm hname))).trans ?_,
                hsame⟩
              rw [hothers hname]
              exact hentry

theorem closed_accounts : state.closed.accounts = state.accounts := by
  unfold Status.closed
  dsimp only
  split_ifs <;> rfl

theorem within_close (h : Within identity name key config bound state s) :
    (close state).Leads (fun _ t => budget t name key ≤ bound) (fun _ _ => True) s := by
  have hkept : budget s name key ≤ bound := by
    rw [budget_of_status state h.status]
    exact h.kept
  have hwritten : budget (s.write state.closed) name key ≤ bound := by
    rw [budget_of_status state.closed rfl, closed_accounts]
    exact h.kept
  unfold close
  split_ifs
  · rw [leads_effect_bind, leads_effect_bind, leads_pure]
    exact ⟨hkept, hwritten, trivial⟩
  · rw [leads_effect_bind, leads_pure]
    exact ⟨hwritten, trivial⟩

/-- A run keeps to the budget that it starts with. -/
theorem within_reconcile {met : Circumstances} (huser : ∃ account ∈ s.users, account.name = name)
    (hkey : ∀ account ∈ s.users, account.name = name →
      identity s.version s.config account = key)
    (hconfig : ∀ count name, (met.outcome count name).config = s.config) :
    (reconcile identity met false).Leads (fun _ t => budget t name key ≤ budget s name key)
      (fun _ _ => True) s := by
  obtain ⟨hentry, hleft⟩ := left_startAccounts huser hkey
  have hwritten (t : Machine K) (state : Status K) (hsame : t.applied = s.applied)
      (hstatus : t.status = some state)
      (haccounts : state.accounts = startAccounts identity s false) :
      budget t name key ≤ budget s name key := by
    rw [budget_of_status state hstatus, haccounts, hleft]
    unfold starts
    rw [hsame]
    exact le_rfl
  unfold reconcile
  rw [leads_look_bind]
  dsimp only [id]
  split_ifs with hversion hnone hready
  · exact leads_fail.mpr trivial
  · rw [leads_effect_bind, leads_pure]
    exact ⟨hwritten _ _ rfl rfl rfl, trivial⟩
  · rw [leads_effect_bind]
    refine ⟨le_rfl, ?_⟩
    split
    · exact leads_pure.mpr trivial
    · rw [leads_effect_bind, leads_effect_bind, leads_pure]
      exact ⟨hwritten _ _ rfl rfl rfl, hwritten _ _ rfl rfl rfl, trivial⟩
  · rw [leads_effect_bind]
    refine ⟨hwritten _ _ rfl rfl rfl, ?_⟩
    cases met.unavailable with
    | some message =>
        rw [leads_effect_bind, leads_pure]
        exact ⟨hwritten _ _ rfl rfl rfl, trivial⟩
    | none =>
        have hwithin : Within identity name key s.config (budget s name key)
            ⟨s.version, .pending, startAccounts identity s false, met.now, none⟩
            (s.write ⟨s.version, .pending, startAccounts identity s false, met.now, none⟩) := by
          refine ⟨rfl, rfl, ?_, hentry⟩
          rw [hleft]
          exact le_rfl
        refine Program.Leads.bind (Program.leads_foldlM _ hwithin fun account haccount state t h =>
          within_applyAccount (hkey account haccount) hconfig h) (fun state t h => ?_)
          fun _ _ _ => trivial
        exact within_close (h state rfl)

end

/-- Whatever runs are made and killed, an account is applied at most as often as it has
attempts left for its identity: `MAX_ATTEMPTS` times at most, and never once it is ready. -/
theorem reconcile_bounded (s : Machine K) (name : Text) (key : K) (events : List ReconcileEvent)
    (hsteady : EachStep (Machine.step identity) (Steady identity name key) s events) :
    ∀ t ∈ states (Machine.step identity) s events,
      starts t name ≤ starts s name + left s.recorded name key := by
  intro t ht
  have hbudget : budget t name key ≤ budget s name key := by
    refine hsteady.states (fun t event (h : budget t name key ≤ budget s name key) hstep => ?_)
      le_rfl t ht
    cases event with
    | queues => exact h
    | changes version config users => exact h
    | runs met retry killed =>
        obtain ⟨rfl, huser, hkey, hconfig⟩ := hstep
        have hmoments (u : Machine K) (hu : u ∈ (reconcile identity met false).moments t) :
            budget u name key ≤ budget s name key :=
          (Program.Leads.moments_of (within_reconcile huser hkey hconfig) u hu).trans h
        exact @Program.leaves_of_moments _ _ _ t _ (fun u => budget u name key ≤ budget s name key)
          h hmoments killed
  exact (Nat.le_add_right _ _).trans hbudget

/-! ### Ready accounts -/

/-- Each ready account has been applied well, with the payload and, at the end, the
configuration that its identity names. -/
def Vouched (identity : Text → Text → Account → K) (applied : List Applying)
    (accounts : List (Text × AccountEntry K)) : Prop :=
  ∀ name entry, accounts.lookup name = some entry → entry.state = .ready →
    ∃ applying ∈ applied, ∃ config ∈ applying.completed, applying.account.name = name ∧
      entry.identity = identity applying.version config applying.account

def Honest (identity : Text → Text → Account → K) (s : Machine K) : Prop :=
  ∀ status ∈ s.status, Vouched identity s.applied status.accounts

section

variable {applied : List Applying} {account : Account} {release : Text}

omit [DecidableEq K] in
theorem Vouched.recorded (h : Honest identity s) : Vouched identity s.applied s.recorded := by
  unfold Machine.recorded
  cases hstatus : s.status with
  | none => exact fun name entry hentry => (by cases hentry)
  | some status => exact h status hstatus

theorem startEntry_ready {previous : List (Text × AccountEntry K)} {retry : Bool}
    (h : (startEntry previous account release key retry).state = .ready) :
    previous.lookup account.name = some (startEntry previous account release key retry) := by
  have hentry : startEntry previous account release key retry =
      ((previous.lookup account.name).filter fun old => old.identity = key).getD
        (freshEntry account release key) := by
    unfold startEntry at h ⊢
    dsimp only at h ⊢
    generalize ((previous.lookup account.name).filter fun old => old.identity = key).getD
      (freshEntry account release key) = entry at h ⊢
    by_cases hretry : (retry && entry.state ≠ .ready) = true
    · rw [if_pos hretry] at h
      cases h
    · rw [if_neg hretry]
  rw [hentry] at h ⊢
  cases hold : previous.lookup account.name with
  | none =>
      rw [hold] at h
      cases h
  | some old =>
      rw [hold, Option.filter_some] at h
      rw [Option.filter_some]
      split_ifs at h ⊢
      · rfl
      · cases h

theorem Vouched.startAccounts (h : Honest identity s) (retry : Bool) :
    Vouched identity s.applied (startAccounts identity s retry) := by
  intro name entry hentry hready
  obtain ⟨account, -, rfl, rfl⟩ := lookup_startAccounts hentry
  exact Vouched.recorded h _ _ (startEntry_ready hready) hready

theorem Vouched.enter (state : Status K) (h : Vouched identity applied state.accounts)
    {entry : AccountEntry K}
    (hentry : entry.state = .ready → ∃ applying ∈ applied, ∃ config ∈ applying.completed,
      applying.account.name = account.name ∧
        entry.identity = identity applying.version config applying.account) :
    Vouched identity applied (state.enter account entry).accounts := by
  intro name found hfound hready
  rw [lookup_enter] at hfound
  split_ifs at hfound with hname
  · obtain rfl := Option.some.inj hfound
    rw [hname]
    exact hentry hready
  · exact h name found hfound hready

omit [DecidableEq K] in
theorem Vouched.mono (h : Vouched identity applied accounts) {applied' : List Applying}
    (hsub : ∀ applying ∈ applied, applying.completed ≠ none → applying ∈ applied') :
    Vouched identity applied' accounts := by
  intro name entry hentry hready
  obtain ⟨applying, happlying, config, hconfig, hname, hidentity⟩ := h name entry hentry hready
  refine ⟨applying, hsub applying happlying ?_, config, hconfig, hname, hidentity⟩
  rw [Option.mem_def] at hconfig
  rw [hconfig]
  nofun

omit [DecidableEq K] in
/-- What an `apply` of a machine leaves in its list. -/
theorem applied_ends (s : Machine K) (account : Account) (outcome : ApplyOutcome) :
    ((s.begins account).ends outcome).applied = s.applied ++
      [⟨account, s.version, s.config,
        if outcome.failure = none then some outcome.config else none⟩] := by
  unfold Machine.ends Machine.begins
  simp

/-- One account, with a record that vouches for the ready ones. -/
theorem honest_applyAccount {outcome : ℕ → Text → ApplyOutcome}
    (h : s.status = some state ∧ s.version = release ∧ Vouched identity s.applied state.accounts) :
    (applyAccount identity outcome release state account).Leads (fun _ t => Honest identity t)
      (fun result t => ∀ state', result = .ok state' → t.status = some state' ∧
        t.version = release ∧ Vouched identity t.applied state'.accounts) s := by
  unfold applyAccount
  rw [leads_bind, Program.leads_ofExcept]
  cases hold : state.accounts.lookup account.name with
  | none => exact fun state' hstate => (by cases hstate)
  | some old =>
      dsimp only [Option.map_some, Option.getD_some]
      rw [Program.leads_ite]
      split_ifs with hdone
      · rw [leads_pure]
        intro state' hstate
        rw [← Except.ok.inj hstate]
        exact h
      · obtain ⟨-, hversion, hvouched⟩ := h
        rw [leads_effect_bind, leads_effect_bind, leads_look_bind, leads_effect_bind,
          leads_look_bind, leads_effect_bind, leads_pure]
        dsimp only [id]
        have hrunning : Vouched identity s.applied (Status.enter { state with state := .running }
            account { old with state := .running, attempts := old.attempts + 1 }).accounts :=
          Vouched.enter { state with state := .running } hvouched nofun
        generalize Status.enter { state with state := .running } account
          { old with state := .running, attempts := old.attempts + 1 } = running at hrunning ⊢
        generalize outcome ((s.write running).begins account).applied.length account.name = result
        have hended := applied_ends (s.write running) account result
        have hbegun : Vouched identity ((s.write running).begins account).applied
            running.accounts :=
          hrunning.mono fun applying happlying _ => List.mem_append_left _ happlying
        have hafter : Vouched identity (((s.write running).begins account).ends result).applied
            running.accounts := by
          rw [hended]
          exact hrunning.mono fun applying happlying _ => List.mem_append_left _ happlying
        have hlast : Vouched identity (((s.write running).begins account).ends result).applied
            (running.enter account (AccountEntry.after
              { old with state := .running, attempts := old.attempts + 1 } result.failure
              (identity release (((s.write running).begins account).ends result).config
                account))).accounts := by
          refine hafter.enter running fun hready => ?_
          rw [hended]
          cases hfailure : result.failure with
          | some message =>
              rw [hfailure] at hready
              cases hready
          | none =>
              refine ⟨_, List.mem_append_right _ (List.mem_singleton.mpr rfl), result.config,
                rfl, rfl, ?_⟩
              change identity release result.config account =
                identity s.version result.config account
              rw [hversion]
        refine ⟨?_, ?_, ?_, ?_, ?_⟩
        · exact fun status hstatus => Option.some.inj hstatus ▸ hrunning
        · exact fun status hstatus => Option.some.inj hstatus ▸ hbegun
        · exact fun status hstatus => Option.some.inj hstatus ▸ hafter
        · exact fun status hstatus => Option.some.inj hstatus ▸ hlast
        · intro state' hstate
          rw [← Except.ok.inj hstate]
          exact ⟨rfl, hversion, hlast⟩

theorem honest_reconcile {met : Circumstances} {retry : Bool} (h : Honest identity s) :
    (reconcile identity met retry).Leads (fun _ t => Honest identity t) (fun _ _ => True) s := by
  have hstart := Vouched.startAccounts h retry
  have hwritten (t : Machine K) (state : Status K) (hsame : t.applied = s.applied)
      (hstatus : t.status = some state)
      (haccounts : state.accounts = startAccounts identity s retry) : Honest identity t := by
    intro status hfound
    rw [hstatus] at hfound
    rw [← Option.some.inj hfound, haccounts, hsame]
    exact hstart
  unfold reconcile
  rw [leads_look_bind]
  dsimp only [id]
  split_ifs with hversion hnone hready
  · exact leads_fail.mpr trivial
  · rw [leads_effect_bind, leads_pure]
    exact ⟨hwritten _ _ rfl rfl rfl, trivial⟩
  · rw [leads_effect_bind]
    refine ⟨h, ?_⟩
    split
    · exact leads_pure.mpr trivial
    · rw [leads_effect_bind, leads_effect_bind, leads_pure]
      exact ⟨hwritten _ _ rfl rfl rfl, hwritten _ _ rfl rfl rfl, trivial⟩
  · rw [leads_effect_bind]
    refine ⟨hwritten _ _ rfl rfl rfl, ?_⟩
    cases met.unavailable with
    | some message =>
        rw [leads_effect_bind, leads_pure]
        exact ⟨hwritten _ _ rfl rfl rfl, trivial⟩
    | none =>
        refine Program.Leads.bind (Program.leads_foldlM (fun (state : Status K) t =>
            t.status = some state ∧ t.version = s.version ∧
              Vouched identity t.applied state.accounts) ⟨rfl, rfl, hstart⟩
          fun account _ state t h => honest_applyAccount h) (fun state t h => ?_)
          fun _ _ _ => trivial
        obtain ⟨hstatus, -, hvouched⟩ := h state rfl
        have hkept : Honest identity t := fun status hfound => by
          rw [hstatus] at hfound
          rw [← Option.some.inj hfound]
          exact hvouched
        have hclosed : Honest identity (t.write state.closed) := fun status hfound => by
          rw [← Option.some.inj hfound, closed_accounts]
          exact hvouched
        unfold close
        split_ifs
        · rw [leads_effect_bind, leads_effect_bind, leads_pure]
          exact ⟨hkept, hclosed, trivial⟩
        · rw [leads_effect_bind, leads_pure]
          exact ⟨hclosed, trivial⟩

end

/-- In every run from a machine without a record, whatever is killed or changed: a ready
account has been applied well with the payload and the configuration of its identity. -/
theorem reconcile_honest (identity : Text → Text → Account → K) (version config : Text)
    (users : List Account) (events : List ReconcileEvent) :
    ∀ s ∈ states (Machine.step identity) ⟨none, false, version, config, users, []⟩ events,
      Honest identity s := by
  have hall : EachStep (Machine.step identity) (fun _ _ => True)
      ⟨none, false, version, config, users, []⟩ events :=
    EachStep.of_forall (fun _ _ => trivial) _ _
  refine hall.states (fun s event h _ => ?_) fun status hstatus => (by cases hstatus)
  cases event with
  | queues => exact h
  | changes version config users => exact h
  | runs met retry killed =>
      exact Program.leaves_of_moments h (Program.Leads.moments_of (honest_reconcile h)) killed

end

/-! ### A failing account -/

/-- A machine with one account. -/
def oneAccount : Machine (Text × Text × ℕ) :=
  ⟨none, true, List.replicate 64 48, [], [⟨ascii "a", 1000, 1000, ascii "/home/a"⟩], []⟩

/-- Every `apply` fails. -/
def failing : Circumstances := ⟨0, none, fun _ _ => ⟨some [], []⟩⟩

/-- Two runs in which it fails, the first of them killed. -/
def twoFailures : List ReconcileEvent :=
  [.runs failing false (some 3), .queues, .runs failing false none]

theorem reconcile_bounded_failing :
    starts (twoFailures.foldl
        (Machine.step fun version config account => (version, config, account.uid)) oneAccount)
        (ascii "a") ≤
      starts oneAccount (ascii "a") +
        left oneAccount.recorded (ascii "a") (List.replicate 64 48, [], 1000) :=
  reconcile_bounded oneAccount (ascii "a") (List.replicate 64 48, [], 1000) twoFailures
    ⟨⟨rfl, by decide, by decide, fun _ _ => rfl⟩, trivial,
      ⟨rfl, by decide +kernel, by decide +kernel, fun _ _ => rfl⟩, trivial⟩ _
    (foldl_mem_states _ _)

/-- The second of two runs succeeds, while the configuration is saved. -/
def lateSuccess : List ReconcileEvent :=
  [.runs failing false none, .runs ⟨1, none, fun _ _ => ⟨none, ascii "saved"⟩⟩ false none]

theorem reconcile_honest_lateSuccess :
    Honest (fun version config account => (version, config, account.uid))
      (lateSuccess.foldl
        (Machine.step fun version config account => (version, config, account.uid))
        ⟨none, false, oneAccount.version, [], oneAccount.users, []⟩) :=
  reconcile_honest (fun version config account => (version, config, account.uid))
    oneAccount.version [] oneAccount.users lateSuccess _ (foldl_mem_states _ _)

end Reconcile

end CybexOS
