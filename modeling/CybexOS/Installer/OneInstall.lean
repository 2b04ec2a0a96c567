/-
The installer starts and runs one installation at most, the reviewed one, as
long as no command that changes Anaconda first is cut short.
-/
import CybexOS.Installer.Commands
import CybexOS.Runs

namespace CybexOS

namespace Installer

open Program

/-! ### The property -/

def Event.isStarted : Event → Bool
  | .started .. => true
  | _ => false

def Event.isRan : Event → Bool
  | .ran _ => true
  | _ => false

/-- The settings are those of the reviewed account. -/
structure Review.Describes (review : Review) (settings : Settings) : Prop where
  users : ∃ password, settings.users = [review.account.user password]
  layouts : settings.layouts = [review.account.keyboard]
  consoleKeymap : settings.consoleKeymap = review.bootKeyboard
  language : settings.language = review.account.locale
  timezone : settings.timezone = review.account.timezone
  hostname : settings.hostname = review.account.hostname

section

variable (digest : Identity → Text)

/-- The storage is the reviewed one, with its disk unchanged. -/
structure Review.Covers (review : Review) (storage : Storage) : Prop where
  selected : storage.selected = [review.disk.name]
  applied : storage.applied = review.partitioning
  actions : actionSet storage.actions = actionSet review.actions
  disk : ∃ disk ∈ storage.disks, disk.name = review.disk.name ∧
    Installer.fingerprint digest disk = Installer.fingerprint digest review.disk

/-- One installation at most is started and run, the reviewed one. -/
structure Safe (log : List Event) : Prop where
  startedOnce : log.countP Event.isStarted ≤ 1
  ranOnce : log.countP Event.isRan ≤ 1
  started : ∀ token review settings storage, .started token review settings storage ∈ log →
    .reviewed token review settings ∈ log ∧ review.Describes settings ∧
      review.Covers digest storage
  ran : ∀ job, .ran job ∈ log → .queued job ∈ log

/-! ### The condition -/

/-- Anaconda and the live session take the layout. -/
def Env.Takes (env : Env) (layout : Text) : Prop :=
  (∀ site ∈ [Call.layouts, .clearKeymap, .populate, .live], env.fate site = .done) ∧
    env.keymap ≠ [] ∧ matchLayout layout ≠ none ∧ env.evaluated = true ∧
    match env.instances with
    | [signature] => signature ≠ [] ∧ signature.all (fun c => isLayoutUnit c || c == 46) = true
    | _ => False

/-- Other programs leave alone what is compared with a review. -/
def Storage.SameChecked (a b : Storage) : Prop :=
  b.disks = a.disks ∧ b.selected = a.selected ∧ b.applied = a.applied ∧ b.actions = a.actions

def Saved.IsReview : Saved → Prop
  | .review .. => True
  | _ => False

/-- With a review in force, `keyboard` and `reset` stop before they change a
setting or run to their ends, and nobody else changes the storage under
`install`; and a worker is not killed before it has recorded its task. -/
def Fit (s : System) (move : Move) : Prop :=
  match move.name with
  | .keyboard data => s.file.IsReview →
      (move.killed = some 0 ∨ move.killed = some 1 ∨ move.env.fate .inventory ≠ .done) ∨
        match chosen (data.get "keyboard" (.str [])) move.env.offers.keyboards
          "Choose an available keyboard layout." with
        | .ok layout => move.killed = none ∧ move.env.Takes layout
        | .error _ => True
  | .reset => s.file.IsReview →
      (move.killed = some 0 ∨ move.killed = some 1 ∨ move.env.fate .resetPartitioning ≠ .done) ∨
        move.killed = none ∧ ∀ site ∈ [Call.clearUsers, .unselect, .keepPartitions, .clearDrives,
          .clearDevices], move.env.fate site = .done
  | .install _ => s.file.IsReview →
      ∀ site ∈ [Call.inventory, .applied, .selected, .actions, .validate, .service],
        ∀ storage ∈ move.env.others site, s.storage.SameChecked storage
  | .worker =>
      match s.file with
      | .installing job => job.task = none → move.killed ≠ some 1 ∧ move.killed ≠ some 2
      | _ => True
  | _ => True

/-! ### The invariant -/

/-- Nothing was started. -/
def Idle (log : List Event) : Prop :=
  log.countP Event.isStarted = 0 ∧ log.countP Event.isRan = 0

/-- What the saved state says of the log and of Anaconda's settings. -/
def Told (s : System) : Prop :=
  match s.file with
  | .review token review => Idle s.log ∧ .reviewed token review s.settings ∈ s.log ∧
      review.Describes s.settings ∧ review.fingerprint = fingerprint digest review.disk
  | .installing job => job.task = none → .queued job ∈ s.log ∧ s.log.countP Event.isRan = 0
  | .complete _ | .failedInstall .. => True
  | _ => Idle s.log

structure Sound (s : System) : Prop where
  safe : Safe digest s.log
  told : Told digest s

end

/-! ### What calls leave alone -/

/-- The saved state and the log are the same. -/
def Quiet (s t : System) : Prop := t.file = s.file ∧ t.log = s.log

theorem Quiet.refl (s : System) : Quiet s s := ⟨rfl, rfl⟩

theorem Quiet.trans (s t u : System) (hst : Quiet s t) (htu : Quiet t u) : Quiet s u :=
  ⟨htu.1.trans hst.1, htu.2.trans hst.2⟩

/-- Also the settings are the same. -/
def Still (s t : System) : Prop := Quiet s t ∧ t.settings = s.settings

theorem Still.refl (s : System) : Still s s := ⟨Quiet.refl s, rfl⟩

theorem Still.trans (s t u : System) (hst : Still s t) (htu : Still t u) : Still s u :=
  ⟨hst.1.trans _ _ _ htu.1, htu.2.trans hst.2⟩

section

variable {env : Env}

theorem disturb_still (site : Call) (s : System) : Still s (env.disturb site s) := by
  unfold Env.disturb
  cases env.others site with
  | none => exact Still.refl s
  | some storage => exact ⟨⟨rfl, rfl⟩, rfl⟩

/-- What the change keeps and other programs keep, the call keeps. -/
theorem keeps_call {kept : System → System → Prop} (hrefl : ∀ s, kept s s)
    (htrans : ∀ s t u, kept s t → kept t u → kept s u) {site : Call} {change : System → System}
    (hothers : ∀ s, kept s (env.disturb site s)) (hchange : ∀ s, kept s (change s)) :
    (env.call site change).Keeps kept := by
  refine Keeps.bind htrans (keeps_effect fun s => ?_) fun _ => ?_
  · split_ifs
    · exact htrans _ _ _ (hothers s) (hchange _)
    · exact hothers s
  · unfold Env.ends
    cases env.fate site with
    | done => exact keeps_pure hrefl
    | raises => exact keeps_fail hrefl

theorem keeps_set (site : Call) (change : Settings → Settings) :
    (env.set site change).Keeps Quiet :=
  keeps_call Quiet.refl Quiet.trans (fun s => (disturb_still site s).1) fun _ => ⟨rfl, rfl⟩

theorem keeps_store (site : Call) (change : Storage → Storage) :
    (env.store site change).Keeps Still :=
  keeps_call Still.refl Still.trans (disturb_still site) fun _ => ⟨⟨rfl, rfl⟩, rfl⟩

theorem keeps_call_id (site : Call) : (env.call site id).Keeps Still :=
  keeps_call Still.refl Still.trans (disturb_still site) Still.refl

theorem keeps_inventory : (inventory env).Keeps Still :=
  (keeps_call_id .inventory).bind Still.trans fun _ => keeps_look Still.refl

/-- The end of a change of the settings: it took place, or the call raised. -/
theorem leads_set {site : Call} {change : Settings → Settings} {s : System} :
    (env.set site change).Leads Quiet (fun result t => Quiet s t ∧
      ∀ value, result = .ok value → t.settings = change s.settings) s := by
  refine ⟨(keeps_set site change s).1, (keeps_set site change s).2, fun value hvalue => ?_⟩
  unfold Env.set Env.call Env.ends at hvalue ⊢
  cases hfate : env.fate site with
  | raises tookEffect =>
      simp only [hfate] at hvalue
      cases hvalue
  | done =>
      have hsame := (@disturb_still env site s).2
      exact congrArg change hsame

theorem leads_set_bind {α : Type} {site : Call} {change : Settings → Settings} {s : System}
    {next : Unit → Command α} {post : Except Failure α → System → Prop}
    (hnext : ∀ t, Quiet s t → t.settings = change s.settings → (next ()).Leads Quiet post t)
    (herror : ∀ error t, Quiet s t → post (.error error) t) :
    (env.set site change >>= next).Leads Quiet post s :=
  leads_set.bind (fun _ t ht => hnext t ht.1 (ht.2 () rfl)) fun error t ht => herror error t ht.1

/-- What a program that stays quiet comes to, whatever its end. -/
abbrev Comes {α : Type} (s : System) (good : α → System → Prop) (result : Except Failure α)
    (t : System) : Prop :=
  Quiet s t ∧ ∀ value, result = .ok value → good value t

theorem comes_error {α : Type} {s t : System} {good : α → System → Prop} {error : Failure}
    (h : Quiet s t) : Comes s good (.error error) t := ⟨h, nofun⟩

theorem setLayout_leads (layout : Text) (s : System) :
    (setLayout env layout).Leads Quiet (Comes s fun keymap t =>
      t.settings = { s.settings with layouts := [layout], consoleKeymap := keymap }) s := by
  refine leads_set_bind (fun t ht hlayouts => ?_) fun _ t ht => comes_error ht
  refine leads_set_bind (fun u hu hclear => ?_) fun _ u hu => comes_error (ht.trans _ _ _ hu)
  have hsu := ht.trans _ _ _ hu
  refine leads_set_bind (fun v hv hpopulate => ?_) fun _ v hv => comes_error (hsu.trans _ _ _ hv)
  refine leads_look.mpr ⟨hsu.trans _ _ _ hv, fun keymap hkeymap => ?_⟩
  obtain rfl := Except.ok.inj hkeymap
  rw [hpopulate, hclear, hlayouts]

/-- The settings of a planned account. -/
def planned (env : Env) (account : Account) (keymap : Text) : Settings where
  users := [account.user env.crypted]
  rootLocked := true
  layouts := [account.keyboard]
  consoleKeymap := keymap
  language := account.locale
  timezone := account.timezone
  hostname := account.hostname

theorem planSettings_leads (account : Account) (s : System) :
    (planSettings env account).Leads Quiet (Comes s fun keymap t =>
      t.settings = planned env account keymap) s := by
  refine leads_set_bind (fun t ht husers => ?_) fun _ t ht => comes_error ht
  refine Leads.bind ((keeps_call_id .clearRootPassword t).mono (fun _ _ h => h.1)
    fun _ _ => id) (fun _ u hu => ?_) fun _ u hu => comes_error (ht.trans _ _ _ hu.1)
  have hsu := ht.trans _ _ _ hu.1
  refine leads_set_bind (fun v hv hlock => ?_) fun _ v hv => comes_error (hsu.trans _ _ _ hv)
  have hsv := hsu.trans _ _ _ hv
  refine leads_set_bind (fun w hw hlanguage => ?_) fun _ w hw => comes_error (hsv.trans _ _ _ hw)
  have hsw := hsv.trans _ _ _ hw
  refine (setLayout_leads account.keyboard w).bind (fun keymap x hx => ?_)
    fun _ x hx => comes_error (hsw.trans _ _ _ hx.1)
  have hsx := hsw.trans _ _ _ hx.1
  have hlayout := hx.2 keymap rfl
  split_ifs
  · exact leads_fail.mpr (comes_error hsx)
  · refine leads_set_bind (fun y hy htimezone => ?_) fun _ y hy => comes_error (hsx.trans _ _ _ hy)
    have hsy := hsx.trans _ _ _ hy
    refine leads_set_bind (fun z hz hhostname => ?_) fun _ z hz => comes_error (hsy.trans _ _ _ hz)
    refine leads_pure.mpr ⟨hsy.trans _ _ _ hz, fun value hvalue => ?_⟩
    obtain rfl := Except.ok.inj hvalue
    rw [hhostname, htimezone, hlayout, hlanguage, hlock, hu.2, husers]
    rfl

theorem keeps_planStorage (account : Account) (password : Text) (disk : Disk) :
    (planStorage env account password disk).Keeps Still := by
  unfold planStorage
  iterate 7 refine (keeps_store _ _).bind Still.trans fun _ => ?_
  refine Keeps.bind Still.trans ?_ fun _ => ?_
  · unfold setPassphrase
    split_ifs
    · exact keeps_store _ _
    · exact keeps_pure Still.refl
  · refine (keeps_store _ _).bind Still.trans fun _ => ?_
    refine (keeps_call_id _).bind Still.trans fun _ => ?_
    refine (keeps_store _ _).bind Still.trans fun _ => ?_
    iterate 2 refine (keeps_call_id _).bind Still.trans fun _ => ?_
    exact keeps_look Still.refl

theorem keeps_resetAnaconda : (resetAnaconda env).Keeps Quiet := by
  have hstore (site : Call) (change : Storage → Storage) : (env.store site change).Keeps Quiet :=
    fun s => (keeps_store site change s).mono (fun _ _ h => h.1) fun _ _ h => h.1
  refine (hstore _ _).bind Quiet.trans fun _ => (keeps_set _ _).bind Quiet.trans fun _ => ?_
  iterate 3 refine (hstore _ _).bind Quiet.trans fun _ => ?_
  exact hstore _ _

theorem planAnaconda_leads (account : Account) (password : Text) (disk : Disk) (s : System) :
    (planAnaconda env account password disk).Leads Quiet (Comes s fun plan t =>
      t.settings = planned env account plan.bootKeyboard) s := by
  refine (keeps_resetAnaconda s).bind (fun _ t ht => ?_) fun _ t ht => comes_error ht
  refine (planSettings_leads account t).bind (fun keymap u hu => ?_)
    fun _ u hu => comes_error (ht.trans _ _ _ hu.1)
  have hsu := ht.trans _ _ _ hu.1
  have hstorage : (planStorage env account password disk).Leads Quiet (fun _ v => Still u v) u :=
    (keeps_planStorage account password disk u).mono (fun _ _ h => h.1) fun _ _ => id
  refine hstorage.bind (fun actions v hv => ?_) fun _ v hv => comes_error (hsu.trans _ _ _ hv.1)
  refine leads_pure.mpr ⟨hsu.trans _ _ _ hv.1, fun value hvalue => ?_⟩
  obtain rfl := Except.ok.inj hvalue
  exact hv.2.trans (hu.2 keymap rfl)

section

variable {digest : Identity → Text}

/-- The review says what Anaconda's settings are. -/
theorem makeReview_leads (data : Data) (s : System) :
    (makeReview digest env data).Leads Quiet (Comes s fun review t =>
      review.Describes t.settings ∧ review.fingerprint = fingerprint digest review.disk) s := by
  have hinventory : (inventory env).Leads Quiet (fun _ t => Quiet s t) s :=
    (keeps_inventory s).mono (fun _ _ h => h.1) fun _ _ h => h.1
  refine hinventory.bind (fun choices t ht => ?_) fun _ t ht => comes_error ht
  rw [leads_bind, leads_ofExcept]
  cases validateAccount data choices with
  | error failure => exact comes_error ht
  | ok checked =>
      obtain ⟨account, password⟩ := checked
      dsimp only
      cases findDisk choices.disks (data.get "disk" .null) with
      | none => exact leads_fail.mpr (comes_error ht)
      | some disk =>
          dsimp only
          split_ifs with hsmall
          · exact leads_fail.mpr (comes_error ht)
          · refine (planAnaconda_leads account password disk t).bind (fun plan u hu => ?_)
              fun _ u hu => comes_error (ht.trans _ _ _ hu.1)
            have hsu := ht.trans _ _ _ hu.1
            have hsettings := hu.2 plan rfl
            split_ifs
            · exact leads_fail.mpr (comes_error hsu)
            · refine leads_pure.mpr ⟨hsu, fun review hreview => ?_⟩
              obtain rfl := Except.ok.inj hreview
              rw [hsettings]
              exact ⟨⟨⟨env.crypted, rfl⟩, rfl, rfl, rfl, rfl, rfl⟩, rfl⟩

/-! ### The log -/

theorem Safe.append {log : List Event} (h : Safe digest log) {event : Event}
    (hstarted : event.isStarted = true → log.countP Event.isStarted = 0)
    (hran : event.isRan = true → log.countP Event.isRan = 0)
    (hstart : ∀ token review settings storage, event = .started token review settings storage →
      .reviewed token review settings ∈ log ∧ review.Describes settings ∧
        review.Covers digest storage)
    (hrun : ∀ job, event = .ran job → .queued job ∈ log) : Safe digest (log ++ [event]) where
  startedOnce := by
    rw [List.countP_append, List.countP_singleton]
    split_ifs with hevent
    · rw [hstarted hevent]
    · exact h.startedOnce
  ranOnce := by
    rw [List.countP_append, List.countP_singleton]
    split_ifs with hevent
    · rw [hran hevent]
    · exact h.ranOnce
  started := by
    intro token review settings storage hmem
    rcases List.mem_append.mp hmem with hold | hnew
    · obtain ⟨hreviewed, hrest⟩ := h.started token review settings storage hold
      exact ⟨List.mem_append_left _ hreviewed, hrest⟩
    · obtain ⟨hreviewed, hrest⟩ :=
        hstart token review settings storage (List.mem_singleton.mp hnew).symm
      exact ⟨List.mem_append_left _ hreviewed, hrest⟩
  ran := by
    intro job hmem
    rcases List.mem_append.mp hmem with hold | hnew
    · exact List.mem_append_left _ (h.ran job hold)
    · exact List.mem_append_left _ (hrun job (List.mem_singleton.mp hnew).symm)

theorem Safe.append_reviewed {log : List Event} (h : Safe digest log) (token : Text)
    (review : Review) (settings : Settings) :
    Safe digest (log ++ [.reviewed token review settings]) :=
  h.append nofun nofun nofun nofun

/-! ### Commands that start nothing -/

theorem Sound.of_still {s t : System} (h : Sound digest s) (hstill : Still s t) :
    Sound digest t := by
  obtain ⟨⟨hfile, hlog⟩, hsettings⟩ := hstill
  refine ⟨hlog ▸ h.safe, ?_⟩
  have htold := h.told
  unfold Told at htold ⊢
  rw [hfile, hlog, hsettings]
  exact htold

/-- Without a review the settings do not matter. -/
theorem Sound.of_quiet {s t : System} (h : Sound digest s) (hfile : ¬ s.file.IsReview)
    (hquiet : Quiet s t) : Sound digest t := by
  obtain ⟨hsame, hlog⟩ := hquiet
  refine ⟨hlog ▸ h.safe, ?_⟩
  have htold := h.told
  unfold Told at htold ⊢
  rw [hsame, hlog]
  cases hcase : s.file with
  | review token review =>
      rw [hcase] at hfile
      exact absurd trivial hfile
  | _ =>
      rw [hcase] at htold
      exact htold

theorem Sound.idle {s : System} (h : Sound digest s) (hover : s.file.isOver = false) :
    Idle s.log := by
  have htold := h.told
  unfold Told at htold
  cases hcase : s.file with
  | review token review =>
      rw [hcase] at htold
      exact htold.1
  | installing job =>
      rw [hcase] at hover
      cases hover
  | complete job =>
      rw [hcase] at hover
      cases hover
  | failedInstall job message =>
      rw [hcase] at hover
      cases hover
  | _ =>
      rw [hcase] at htold
      exact htold

/-- A review is put aside. -/
theorem Sound.setup {s t : System} (h : Sound digest s) (hidle : Idle s.log) (hlog : t.log = s.log)
    (keyboard : Option Text) : Sound digest { t with file := .setup keyboard } := by
  refine ⟨hlog ▸ h.safe, ?_⟩
  unfold Told
  exact hlog ▸ hidle

theorem Sound.written {s : System} (h : Sound digest s) (hidle : Idle s.log)
    {file : Saved}
    (hfile : file = .planning ∨ file = .failedPlan ∨ ∃ keyboard, file = .setup keyboard) :
    Sound digest { s with file := file } := by
  refine ⟨h.safe, ?_⟩
  unfold Told
  rcases hfile with rfl | rfl | ⟨keyboard, rfl⟩ <;> exact hidle

/-- Every moment is sound. -/
abbrev Sounds (digest : Identity → Text) {α : Type} (program : Command α) (s : System) : Prop :=
  program.Leads (fun _ t => Sound digest t) (fun _ _ => True) s

theorem Sound.still {α : Type} {program : Command α} (hkeeps : program.Keeps Still) {s : System}
    (h : Sound digest s) : Sounds digest program s :=
  ((hkeeps s).always (fun _ _ hstill hsound => hsound.of_still hstill) h).imp fun _ _ _ => trivial

/-- A quiet program, when there is no review. -/
theorem Sound.quiet {α : Type} {program : Command α} {s : System} (h : Sound digest s)
    (hfile : ¬ s.file.IsReview) {post : Except Failure α → System → Prop}
    (hquiet : program.Leads Quiet post s) :
    program.Leads (fun _ t => Sound digest t) post s := by
  refine (hquiet.always (fun _ _ ht hu => hu.trans _ _ _ ht) (Quiet.refl s)).mono ?_ fun _ _ => id
  exact fun _ t ht => h.of_quiet hfile ht

theorem requireIdle_bind {α : Type} {next : Unit → Command α} {s : System}
    {step : System → System → Prop} {post : Except Failure α → System → Prop}
    (hnext : s.file.isOver = false → (next ()).Leads step post s)
    (herror : ∀ error, post (.error error) s) : (requireIdle >>= next).Leads step post s := by
  unfold requireIdle demand
  rw [leads_bind, leads_look_bind]
  split_ifs with hover
  · exact leads_pure.mpr (hnext hover)
  · exact leads_fail.mpr (herror _)

theorem rescan_sound {s : System} (h : Sound digest s) : Sounds digest (rescan env) s := by
  refine requireIdle_bind (fun hover => ?_) fun _ => trivial
  have hwritten := h.written (h.idle hover) (Or.inr (Or.inr ⟨none, rfl⟩))
  refine leads_effect_bind.mpr ⟨hwritten, ?_⟩
  refine hwritten.still ?_
  exact (keeps_call_id .rescan).bind Still.trans fun _ => keeps_inventory

/-- What a sound program leaves, wherever it is killed. -/
theorem Sound.leaves {α : Type} {program : Command α} {s : System} (h : Sound digest s)
    (hsounds : Sounds digest program s) (killed : Option ℕ) :
    Sound digest (program.leaves killed s) :=
  leaves_of_moments h hsounds.moments_of killed

theorem plan_sound {s : System} (h : Sound digest s) (data : Data) :
    Sounds digest (plan digest env data) s := by
  refine requireIdle_bind (fun hover => ?_) fun _ => trivial
  have hidle := h.idle hover
  have hplanning := h.written hidle (Or.inl rfl)
  refine leads_effect_bind.mpr ⟨hplanning, ?_⟩
  refine leads_catching.mpr (Leads.bind (hplanning.quiet id (makeReview_leads data _)) ?_ ?_)
  · rintro review t ⟨⟨-, hlog⟩, hmade⟩
    obtain ⟨hdescribes, hfingerprint⟩ := hmade review rfl
    have hold : t.log = s.log := hlog
    refine leads_effect_bind.mpr ⟨⟨?_, ?_⟩, leads_pure.mpr trivial⟩
    · change Safe digest (t.log ++ [_])
      rw [hold]
      exact h.safe.append_reviewed _ _ _
    · change Idle (t.log ++ [_]) ∧ _ ∈ t.log ++ [_] ∧ _
      rw [hold]
      refine ⟨?_, List.mem_append_right _ (List.mem_singleton_self _), hdescribes, hfingerprint⟩
      unfold Idle
      rw [List.countP_append, List.countP_append]
      exact hidle
  · rintro error t ⟨hquiet, -⟩
    refine leads_effect_bind.mpr ⟨?_, leads_fail.mpr trivial⟩
    have hidle' : Idle t.log := by
      rw [hquiet.2]
      exact hidle
    exact (hplanning.of_quiet id hquiet).written hidle' (Or.inr (Or.inl rfl))

/-! ### Commands that change Anaconda first -/

theorem keeps_setLayout (layout : Text) : (setLayout env layout).Keeps Quiet := by
  iterate 3 refine (keeps_set _ _).bind Quiet.trans fun _ => ?_
  exact keeps_look Quiet.refl

theorem keeps_applyLiveKeyboard (layout : Text) : (applyLiveKeyboard env layout).Keeps Still := by
  unfold applyLiveKeyboard
  cases matchLayout layout with
  | none => exact keeps_fail Still.refl
  | some _ =>
      refine (keeps_call_id .live).bind Still.trans fun _ => ?_
      split
      · split_ifs
        · exact keeps_fail Still.refl
        · exact keeps_pure Still.refl
        · exact keeps_fail Still.refl
      · exact keeps_fail Still.refl

theorem keeps_keyboardAnaconda (layout : Text) : (keyboardAnaconda env layout).Keeps Quiet := by
  refine (keeps_setLayout layout).bind Quiet.trans fun keymap => ?_
  split_ifs
  · exact keeps_fail Quiet.refl
  · exact fun s => (keeps_applyLiveKeyboard layout s).mono (fun _ _ h => h.1) fun _ _ h => h.1

/-- A call that does not raise. -/
theorem leads_call_done {site : Call} (hfate : env.fate site = .done) {change : System → System}
    {s : System} {α : Type} {next : Unit → Command α} {step : System → System → Prop}
    {post : Except Failure α → System → Prop} (hstep : step s (change (env.disturb site s)))
    (hnext : (next ()).Leads step post (change (env.disturb site s))) :
    (env.call site change >>= next).Leads step post s := by
  unfold Env.call Env.ends
  rw [hfate, leads_bind, leads_bind, leads_effect]
  exact ⟨hstep, leads_pure.mpr hnext⟩

/-- The layout is taken. -/
theorem keyboardAnaconda_takes {layout : Text} (htakes : env.Takes layout) (s : System) :
    (keyboardAnaconda env layout).Leads (fun _ _ => True) (fun result _ => result = .ok ()) s := by
  obtain ⟨hdone, hkeymap, hmatch, hevaluated, hinstances⟩ := htakes
  unfold keyboardAnaconda setLayout
  rw [leads_bind]
  refine leads_call_done (hdone _ (by simp)) trivial ?_
  refine leads_call_done (hdone _ (by simp)) trivial ?_
  refine leads_call_done (hdone _ (by simp)) trivial ?_
  rw [leads_look]
  change (if env.keymap = [] then _ else _ : Command Unit).Leads _ _ _
  rw [if_neg hkeymap]
  unfold applyLiveKeyboard
  cases hcase : matchLayout layout with
  | none => exact absurd hcase hmatch
  | some _ =>
      refine leads_call_done (hdone _ (by simp)) trivial ?_
      cases hlist : env.instances with
      | nil =>
          rw [hlist] at hinstances
          exact absurd hinstances id
      | cons signature rest =>
          cases rest with
          | cons => 
              rw [hlist] at hinstances
              exact absurd hinstances id
          | nil =>
              rw [hlist] at hinstances
              dsimp only
              rw [if_neg (by rw [not_or, not_not]; exact hinstances), if_pos hevaluated]
              exact leads_pure.mpr rfl

/-- The inventory comes from the storage, unless its call raises. -/
theorem inventory_leads (s : System) : (inventory env).Leads Still (fun result t => Still s t ∧
    ∀ choices, result = .ok choices → env.fate .inventory = .done ∧
      choices = ⟨env.offers, t.storage.disks, t.storage.requiredBytes⟩) s := by
  refine ⟨(keeps_inventory s).1, (keeps_inventory s).2, fun choices hchoices => ?_⟩
  unfold inventory Env.call Env.ends at hchoices ⊢
  cases hfate : env.fate .inventory with
  | raises tookEffect =>
      simp only [hfate] at hchoices
      cases hchoices
  | done =>
      simp only [hfate] at hchoices
      exact ⟨rfl, (Except.ok.inj hchoices).symm⟩

theorem requireIdle_apply {α : Type} {next : Unit → Command α} {s : System}
    (hover : s.file.isOver = false) : (requireIdle >>= next) s = next () s := by
  rw [bind_apply]
  unfold requireIdle demand
  rw [bind_apply]
  simp [look, hover, pure]

/-- A command that is killed after its first call. -/
theorem leaves_call {α : Type} {site : Call} {change : System → System} {next : Unit → Command α}
    {s : System} (hover : s.file.isOver = false)
    {good : System → Prop} (hothers : good (env.disturb site s))
    (hchange : good (change (env.disturb site s))) :
    good ((requireIdle >>= fun _ => env.call site change >>= next).leaves (some 1) s) := by
  have hsame : (requireIdle >>= fun _ => env.call site change >>= next).leaves (some 1) s =
      (env.call site change >>= next).leaves (some 1) s := by
    unfold leaves moments
    rw [requireIdle_apply hover]
  rw [hsame]
  unfold Env.call
  rw [bind_assoc, leaves_one]
  split_ifs
  · exact hchange
  · exact hothers

theorem Sound.keyboardBody {s : System} (h : Sound digest s) (hidle : Idle s.log)
    (hfile : ¬ s.file.IsReview) (layout : Text) :
    Sounds digest (do keyboardAnaconda env layout; write (.setup (some layout))) s := by
  refine Leads.bind (h.quiet hfile (keeps_keyboardAnaconda layout s)) (fun _ t ht => ?_)
    fun _ _ _ => trivial
  refine leads_effect.mpr ⟨?_, trivial⟩
  exact h.setup hidle ht.2 (some layout)

theorem keyboard_call (data : Data) : ∃ next : Unit → Command Unit,
    keyboard env data = requireIdle >>= fun _ => env.call .inventory id >>= next := by
  unfold keyboard inventory
  simp only [bind_assoc]
  exact ⟨_, rfl⟩

theorem keyboard_sound {s : System} (h : Sound digest s) {data : Data} {killed : Option ℕ}
    (hfit : Fit s ⟨.keyboard data, env, killed⟩) :
    Sound digest ((keyboard env data).leaves killed s) := by
  by_cases hover : s.file.isOver = false
  swap
  · refine h.leaves ?_ killed
    exact requireIdle_bind (fun hidle => absurd hidle hover) fun _ => trivial
  have hidle := h.idle hover
  have hstill (t : System) (ht : Still s t) : Sound digest t := h.of_still ht
  -- what is left to show of the command after its inventory
  have hsounds (hrest : ∀ t layout, Still s t → env.fate .inventory = .done →
      chosen (data.get "keyboard" (.str [])) env.offers.keyboards
        "Choose an available keyboard layout." = .ok layout →
      Sounds digest (do keyboardAnaconda env layout; write (.setup (some layout))) t) :
      Sound digest ((keyboard env data).leaves killed s) := by
    refine h.leaves (requireIdle_bind (fun _ => ?_) fun _ => trivial) killed
    refine Leads.bind ((inventory_leads s).always (fun _ _ ht hu => hu.of_still ht) h)
      (fun choices t ht => ?_) fun _ _ _ => trivial
    obtain ⟨hdone, rfl⟩ := ht.2 choices rfl
    rw [leads_bind, leads_ofExcept]
    cases hchosen : chosen (data.get "keyboard" (.str [])) env.offers.keyboards
        "Choose an available keyboard layout." with
    | error failure => trivial
    | ok layout => exact hrest t layout ht.1 hdone hchosen
  by_cases hreview : s.file.IsReview
  swap
  · refine hsounds fun t layout ht _ _ => (hstill t ht).keyboardBody ?_ ?_ layout
    · exact ht.1.2 ▸ hidle
    · exact ht.1.1 ▸ hreview
  rcases hfit hreview with (rfl | rfl | hraises) | hrest
  · exact h
  · obtain ⟨next, hnext⟩ := @keyboard_call env data
    rw [hnext]
    exact leaves_call hover (hstill _ (disturb_still _ _)) (hstill _ (disturb_still _ _))
  · exact hsounds fun _ _ _ hdone => absurd hdone hraises
  · dsimp only at hrest
    cases hchosen : chosen (data.get "keyboard" (.str [])) env.offers.keyboards
        "Choose an available keyboard layout." with
    | error failure =>
        refine hsounds fun _ _ _ _ hok => ?_
        rw [hchosen] at hok
        cases hok
    | ok layout =>
        rw [hchosen] at hrest
        obtain ⟨rfl, htakes⟩ := hrest
        have hlast : (keyboard env data).Leads (fun _ _ => True) (fun _ t => Sound digest t) s := by
          refine requireIdle_bind (fun _ => ?_) fun _ => h
          refine Leads.bind ((inventory_leads s).mono (fun _ _ _ => trivial) fun _ _ => id)
            (fun choices t ht => ?_) fun _ t ht => hstill t ht.1
          obtain ⟨-, rfl⟩ := ht.2 choices rfl
          rw [leads_bind, leads_ofExcept, hchosen]
          have htaken := (keyboardAnaconda_takes htakes t)
          have hquiet := (@keeps_keyboardAnaconda env layout t).2
          have hboth : (keyboardAnaconda env layout).Leads (fun _ _ => True)
              (fun result u => result = .ok () ∧ Quiet t u) t := ⟨htaken.1, htaken.2, hquiet⟩
          refine hboth.bind (fun _ u hu => ?_) fun _ _ hu => by cases hu.1
          refine leads_effect.mpr ⟨trivial, ?_⟩
          exact h.setup hidle (hu.2.2.trans ht.1.1.2) (some layout)
        exact hlast.2

theorem store_leads {site : Call} {change : Storage → Storage} (s : System) :
    (env.store site change).Leads Still (fun result t => Still s t ∧
      ∀ value, result = .ok value → env.fate site = .done) s := by
  refine ⟨(keeps_store site change s).1, (keeps_store site change s).2, fun value hvalue => ?_⟩
  unfold Env.store Env.call Env.ends at hvalue
  cases hfate : env.fate site with
  | raises tookEffect =>
      simp only [hfate] at hvalue
      cases hvalue
  | done => rfl

/-- The rest of `reset`, when nothing raises. -/
theorem resetAnaconda_done (hdone : ∀ site ∈ [Call.resetPartitioning, .clearUsers, .unselect,
      .keepPartitions, .clearDrives, .clearDevices], env.fate site = .done) (s : System) :
    (resetAnaconda env).Leads (fun _ _ => True) (fun result _ => result = .ok ()) s := by
  unfold resetAnaconda
  iterate 5 refine leads_call_done (hdone _ (by simp)) trivial ?_
  rw [← bind_pure (env.store .clearDevices _)]
  exact leads_call_done (hdone _ (by simp)) trivial (leads_pure.mpr rfl)

theorem reset_sound {s : System} (h : Sound digest s) {killed : Option ℕ}
    (hfit : Fit s ⟨.reset, env, killed⟩) : Sound digest ((reset env).leaves killed s) := by
  by_cases hover : s.file.isOver = false
  swap
  · refine h.leaves ?_ killed
    exact requireIdle_bind (fun hidle => absurd hidle hover) fun _ => trivial
  have hidle := h.idle hover
  have hstill (t : System) (ht : Still s t) : Sound digest t := h.of_still ht
  by_cases hreview : s.file.IsReview
  swap
  · refine h.leaves (requireIdle_bind (fun _ => ?_) fun _ => trivial) killed
    refine Leads.bind (h.quiet hreview (keeps_resetAnaconda s)) (fun _ t ht => ?_)
      fun _ _ _ => trivial
    exact leads_effect.mpr ⟨h.setup hidle ht.2 none, trivial⟩
  have hrefused (hraises : env.fate .resetPartitioning ≠ .done) :
      Sound digest ((reset env).leaves killed s) := by
    refine h.leaves (requireIdle_bind (fun _ => ?_) fun _ => trivial) killed
    unfold resetAnaconda
    rw [bind_assoc]
    exact Leads.bind ((store_leads s).always (fun _ _ ht hu => hu.of_still ht) h)
      (fun _ t ht => absurd (ht.2 () rfl) hraises) fun _ _ _ => trivial
  have hreset : ∃ (change : System → System) (next : Unit → Command Unit),
      (∀ t, Still t (change t)) ∧
      reset env = requireIdle >>= fun _ => env.call .resetPartitioning change >>= next := by
    unfold reset resetAnaconda Env.store
    simp only [bind_assoc]
    refine ⟨_, _, ?_, rfl⟩
    exact fun t => ⟨⟨rfl, rfl⟩, rfl⟩
  rcases hfit hreview with (rfl | rfl | hraises) | ⟨rfl, hdone⟩
  · exact h
  · obtain ⟨change, next, hchange, hnext⟩ := hreset
    rw [hnext]
    exact leaves_call hover (hstill _ (disturb_still _ _))
      (hstill _ ((disturb_still _ _).trans _ _ _ (hchange _)))
  · exact hrefused hraises
  · by_cases hraises : env.fate .resetPartitioning = .done
    swap
    · exact hrefused hraises
    have hlast : (reset env).Leads (fun _ _ => True) (fun _ t => Sound digest t) s := by
      refine requireIdle_bind (fun _ => ?_) fun _ => h
      have hall := resetAnaconda_done (List.forall_mem_cons.mpr ⟨hraises, hdone⟩) s
      have hboth : (resetAnaconda env).Leads (fun _ _ => True)
          (fun result t => result = .ok () ∧ Quiet s t) s :=
        ⟨hall.1, hall.2, (keeps_resetAnaconda s).2⟩
      refine hboth.bind (fun _ t ht => ?_) fun _ _ ht => by cases ht.1
      exact leads_effect.mpr ⟨trivial, h.setup hidle ht.2.2 none⟩
    exact hlast.2

/-! ### Confirmation -/

theorem Storage.SameChecked.refl (storage : Storage) : storage.SameChecked storage :=
  ⟨rfl, rfl, rfl, rfl⟩

theorem Storage.SameChecked.symm {a b : Storage} (h : a.SameChecked b) : b.SameChecked a :=
  ⟨h.1.symm, h.2.1.symm, h.2.2.1.symm, h.2.2.2.symm⟩

theorem Storage.SameChecked.trans {a b c : Storage} (h : a.SameChecked b) (h' : b.SameChecked c) :
    a.SameChecked c :=
  ⟨h'.1.trans h.1, h'.2.1.trans h.2.1, h'.2.2.1.trans h.2.2.1, h'.2.2.2.trans h.2.2.2⟩

/-- Nothing that a review is compared with has changed. -/
def At (s t : System) : Prop := Still s t ∧ s.storage.SameChecked t.storage

theorem At.disturb {s t : System} {site : Call}
    (hothers : ∀ storage ∈ env.others site, s.storage.SameChecked storage) (h : At s t) :
    At s (env.disturb site t) := by
  refine ⟨h.1.trans _ _ _ (disturb_still site t), ?_⟩
  unfold Env.disturb
  cases hcase : env.others site with
  | none => exact h.2
  | some storage => exact hothers storage hcase

theorem checked_bind {α : Type} {s t : System} {site : Call} {next : Unit → Command α}
    {post : Except Failure α → System → Prop}
    (hothers : ∀ storage ∈ env.others site, s.storage.SameChecked storage) (h : At s t)
    (hnext : ∀ u, At s u → (next ()).Leads (fun _ u => At s u) post u)
    (herror : ∀ error u, At s u → post (.error error) u) :
    (env.call site id >>= next).Leads (fun _ u => At s u) post t := by
  have hdisturbed := h.disturb hothers
  unfold Env.call Env.ends
  rw [bind_assoc, leads_effect_bind]
  simp only [id, ite_self]
  refine ⟨hdisturbed, ?_⟩
  cases env.fate site with
  | done => exact leads_bind.mpr (leads_pure.mpr (hnext _ hdisturbed))
  | raises => exact leads_bind.mpr (leads_fail.mpr (herror _ _ hdisturbed))

theorem demand_bind {α : Type} {condition : Prop} [Decidable condition] {message : String}
    {s : System} {next : Unit → Command α} {step : System → System → Prop}
    {post : Except Failure α → System → Prop} (hnext : condition → (next ()).Leads step post s)
    (herror : ∀ error, post (.error error) s) :
    (demand condition message >>= next).Leads step post s := by
  unfold demand
  split_ifs with hcondition
  · exact leads_bind.mpr (leads_pure.mpr (hnext hcondition))
  · exact leads_bind.mpr (leads_fail.mpr (herror _))

/-- The plan is checked against the storage as it was. -/
theorem checkPlan_leads {review : Review} {s t : System} (h : At s t)
    (hothers : ∀ site ∈ [Call.inventory, .applied, .selected, .actions, .validate, .service],
      ∀ storage ∈ env.others site, s.storage.SameChecked storage) :
    (checkPlan env review).Leads (fun _ u => At s u) (fun result u => At s u ∧
      ∀ value, result = .ok value → s.storage.applied = review.partitioning ∧
        s.storage.selected = [review.disk.name] ∧
        actionSet s.storage.actions = actionSet review.actions) t := by
  have hfail {error : Failure} {u : System} (hu : At s u) : At s u ∧ ∀ value : Unit,
      (Except.error error : Except Failure Unit) = .ok value →
        s.storage.applied = review.partitioning ∧ s.storage.selected = [review.disk.name] ∧
        actionSet s.storage.actions = actionSet review.actions := ⟨hu, nofun⟩
  refine checked_bind (hothers _ (by simp)) h (fun u hu => ?_) fun _ _ => hfail
  refine leads_look_bind.mpr (demand_bind (fun happlied => ?_) fun _ => hfail hu)
  refine checked_bind (hothers _ (by simp)) hu (fun v hv => ?_) fun _ _ => hfail
  refine leads_look_bind.mpr (demand_bind (fun hselected => ?_) fun _ => hfail hv)
  refine checked_bind (hothers _ (by simp)) hv (fun w hw => ?_) fun _ _ => hfail
  refine leads_look_bind.mpr (demand_bind (fun hactions => ?_) fun _ => hfail hw)
  refine checked_bind (hothers _ (by simp)) hw (fun x hx => ?_) fun _ _ => hfail
  unfold demand
  split_ifs
  · refine leads_pure.mpr ⟨hx, fun _ _ => ⟨?_, ?_, ?_⟩⟩
    · exact hu.2.2.2.1.symm.trans happlied
    · exact hv.2.2.1.symm.trans hselected
    · rw [← hw.2.2.2.2]
      exact hactions
  · exact leads_fail.mpr (hfail hx)

theorem mem_findDisk {disks : List Disk} {name : Text} {disk : Disk}
    (h : findDisk disks (.str name) = some disk) : disk ∈ disks ∧ disk.name = name :=
  ⟨List.mem_of_find?_eq_some h, by simpa using List.find?_some h⟩

/-- What a confirmed review is before it is queued. -/
theorem Sound.queue {s t : System} (h : Sound digest s) {token : Text} {review : Review}
    (hfile : s.file = .review token review) (hat : At s t)
    {disk : Disk} (hdisk : disk ∈ s.storage.disks) (hname : disk.name = review.disk.name)
    (hsame : fingerprint digest disk = review.fingerprint)
    (hchecked : s.storage.applied = review.partitioning ∧
      s.storage.selected = [review.disk.name] ∧
      actionSet s.storage.actions = actionSet review.actions) (job : Job) :
    Sound digest (note (.queued job) { t with file := .installing job }) ∧
      ∀ u, At (note (.queued job) { t with file := .installing job }) u →
        Safe digest (u.log ++ [.started token review u.settings u.storage]) := by
  have htold := h.told
  unfold Told at htold
  rw [hfile] at htold
  obtain ⟨⟨hstarted, hran⟩, hreviewed, hdescribes, hfingerprint⟩ := htold
  have hlog : t.log = s.log := hat.1.1.2
  have hqueued : Safe digest (s.log ++ [.queued job]) := h.safe.append nofun nofun nofun nofun
  have hnone (p : Event → Bool) (hp : p (.queued job) = false) (hzero : s.log.countP p = 0) :
      (s.log ++ [Event.queued job]).countP p = 0 := by
    rw [List.countP_append, hzero, List.countP_singleton, hp]
    rfl
  constructor
  · refine ⟨?_, ?_⟩
    · change Safe digest (t.log ++ [_])
      rw [hlog]
      exact hqueued
    · intro htask
      change _ ∈ t.log ++ [_] ∧ (t.log ++ [_]).countP _ = 0
      rw [hlog]
      exact ⟨List.mem_append_right _ (List.mem_singleton_self _), hnone _ rfl hran⟩
  · intro u hu
    have hulog : u.log = s.log ++ [.queued job] := by
      rw [hu.1.1.2]
      exact congrArg (· ++ [Event.queued job]) hlog
    have husettings : u.settings = s.settings := hu.1.2.trans hat.1.2
    rw [hulog, husettings]
    refine hqueued.append (fun _ => hnone _ rfl hstarted) nofun ?_ nofun
    rintro _ _ _ _ ⟨⟩
    obtain ⟨hdisks, hselected, happlied, hactions⟩ := hu.2
    obtain ⟨hdisks', hselected', happlied', hactions'⟩ := hat.2
    refine ⟨List.mem_append_left _ hreviewed, hdescribes, ?_, ?_, ?_, disk, ?_, hname, ?_⟩
    · exact hselected.trans (hselected'.trans hchecked.2.1)
    · exact happlied.trans (happlied'.trans hchecked.1)
    · rw [hactions]
      change actionSet t.storage.actions = _
      rw [hactions']
      exact hchecked.2.2
    · rw [hdisks]
      change disk ∈ t.storage.disks
      rw [hdisks']
      exact hdisk
    · exact hsame.trans hfingerprint

/-- The inventory of an install, in which nothing changes. -/
theorem inventory_checked {s : System}
    (hothers : ∀ storage ∈ env.others .inventory, s.storage.SameChecked storage) :
    (inventory env).Leads (fun _ u => At s u) (fun result u => At s u ∧
      ∀ choices, result = .ok choices → choices.disks = s.storage.disks) s := by
  refine checked_bind hothers ⟨Still.refl s, .refl _⟩ (fun u hu => ?_) fun _ _ hu => ⟨hu, nofun⟩
  refine leads_look.mpr ⟨hu, fun choices hchoices => ?_⟩
  obtain rfl := Except.ok.inj hchoices
  exact hu.2.1

/-- A confirmed installation goes on. -/
theorem Sound.note {s : System} (h : Sound digest s) {job : Job} (hfile : s.file = .installing job)
    {event : Event} (hsafe : Safe digest (s.log ++ [event])) (hran : event.isRan = false) :
    Sound digest (note event s) := by
  refine ⟨hsafe, ?_⟩
  have htold := h.told
  have hsame : (Installer.note event s).file = .installing job := hfile
  unfold Told at htold ⊢
  rw [hfile] at htold
  rw [hsame]
  intro htask
  refine ⟨List.mem_append_left _ (htold htask).1, ?_⟩
  change (s.log ++ [event]).countP Event.isRan = 0
  rw [List.countP_append, (htold htask).2, List.countP_singleton, hran]
  rfl

theorem Sound.over {s : System} (h : Safe digest s.log) {file : Saved}
    (hfile : (∃ job, file = .complete job) ∨ ∃ job message, file = .failedInstall job message) :
    Sound digest { s with file := file } := by
  refine ⟨h, ?_⟩
  unfold Told
  rcases hfile with ⟨job, rfl⟩ | ⟨job, message, rfl⟩ <;> trivial

theorem install_sound {s : System} (h : Sound digest s) {data : Data} {killed : Option ℕ}
    (hfit : Fit s ⟨.install data, env, killed⟩) :
    Sound digest ((install digest env data).leaves killed s) := by
  refine h.leaves ?_ killed
  unfold install
  rw [Sounds, leads_look_bind]
  cases hfile : s.file with
  | review token review =>
      have hothers := hfit (by rw [hfile]; trivial)
      have hat : At s s := ⟨Still.refl s, .refl _⟩
      have hstill (t : System) (ht : At s t) : Sound digest t := h.of_still ht.1
      rw [leads_bind, leads_ofExcept]
      cases checkRequest env data token review with
      | error failure => trivial
      | ok _ =>
          refine Leads.bind ((inventory_checked (hothers _ (by simp))).mono
            (fun _ u hu => hstill u hu) fun _ _ => id) (fun choices t ht => ?_) fun _ _ _ => trivial
          split_ifs with hfound
          · obtain ⟨disk, hdisk, hsame⟩ := Option.map_eq_some_iff.mp hfound
            rw [ht.2 choices rfl] at hdisk
            obtain ⟨hmember, hname⟩ := mem_findDisk hdisk
            refine Leads.bind ((checkPlan_leads ht.1 hothers).mono
              (fun _ u hu => hstill u hu) fun _ _ => id) (fun _ u hu => ?_) fun _ _ _ => trivial
            have hqueue := h.queue hfile hu.1 hmember hname hsame (hu.2 () rfl)
              ⟨review, env.now, none, none⟩
            refine leads_effect_bind.mpr ⟨hqueue.1, leads_catching.mpr ?_⟩
            have hservice : At (note (.queued ⟨review, env.now, none, none⟩)
                { u with file := .installing ⟨review, env.now, none, none⟩ })
                (env.disturb .service (note (.queued ⟨review, env.now, none, none⟩)
                { u with file := .installing ⟨review, env.now, none, none⟩ })) :=
              At.disturb (fun storage hstorage =>
                hu.1.2.symm.trans (hothers _ (by simp) storage hstorage)) ⟨Still.refl _, .refl _⟩
            have hstarted := (hqueue.1.of_still hservice.1).note hservice.1.1.1
              (hqueue.2 _ hservice) rfl
            refine leads_effect_bind.mpr ⟨hstarted, ?_⟩
            unfold Env.ends
            cases env.fate .service with
            | done => exact leads_pure.mpr trivial
            | raises =>
                refine leads_fail.mpr (leads_effect_bind.mpr ⟨?_, leads_fail.mpr trivial⟩)
                exact Sound.over hstarted.safe (Or.inr ⟨_, _, rfl⟩)
          · refine leads_effect_bind.mpr ⟨?_, leads_fail.mpr trivial⟩
            have hsound := hstill t ht.1
            refine hsound.written (hsound.idle ?_) (Or.inr (Or.inl rfl))
            rw [ht.1.1.1.1, hfile]
            rfl
  | _ => exact leads_fail.mpr trivial

/-! ### The worker -/

/-- An installation whose task is recorded. -/
structure Running (log : List Event) (s : System) : Prop where
  file : ∃ job, s.file = .installing job ∧ job.task ≠ none
  log : s.log = log

theorem Running.sound {log : List Event} {s : System} (h : Running log s) (hsafe : Safe digest log) :
    Sound digest s := by
  refine ⟨h.log ▸ hsafe, ?_⟩
  obtain ⟨job, hfile, htask⟩ := h.file
  unfold Told
  rw [hfile]
  exact fun hnone => absurd hnone htask

theorem Running.quiet {log : List Event} {s t : System} (h : Running log s) (hquiet : Quiet s t) :
    Running log t := ⟨hquiet.1 ▸ h.file, hquiet.2.trans h.log⟩

/-- The end of the worker is written. -/
theorem ended_sound {log : List Event} (hsafe : Safe digest log) {s : System} {job : Job}
    (hfile : s.file = .installing job) (hlog : s.log = log) {file : Job → Saved}
    (hover : (∃ job', file job = .complete job') ∨
      ∃ job' message, file job = .failedInstall job' message) :
    (ended file).Leads (fun _ t => Sound digest t)
      (fun _ t => ∀ job', t.file ≠ .installing job') s := by
  unfold ended
  rw [leads_look_bind, hfile]
  refine leads_effect.mpr ⟨Sound.over (hlog ▸ hsafe) hover, fun job' => ?_⟩
  rcases hover with ⟨other, hover⟩ | ⟨other, message, hover⟩
  · exact hover ▸ nofun
  · exact hover ▸ nofun

theorem runTasks_leads {log : List Event} (hsafe : Safe digest log) {s : System} {job : Job}
    (hfile : s.file = .installing job) (hlog : s.log = log) :
    (runTasks env job).Leads (fun _ t => Sound digest t)
      (fun _ t => (∃ job', t.file = .installing job') ∧ t.log = log) s := by
  unfold runTasks
  split
  · rename_i task htasks
    have hrunning (progress : Option (ℕ × ℕ)) (t : System) (hlog : t.log = log) :
        Running log { t with
          file := .installing { job with task := some task, progress := progress } } :=
      ⟨⟨_, rfl, nofun⟩, hlog⟩
    have hcall (site : Call) (t : System) (ht : Running log t) :
        (env.call site id).Leads (fun _ u => Sound digest u) (fun _ u => Running log u) t := by
      exact ((keeps_call_id site t).always (fun _ _ hu hrun => Running.quiet hrun hu.1) ht).mono
        (fun _ _ hrun => hrun.sound hsafe) fun _ _ hu => ht.quiet hu.1
    have hpost (t : System) (ht : Running log t) :
        (∃ job', t.file = .installing job') ∧ t.log = log :=
      ⟨ht.file.imp fun _ h => h.1, ht.log⟩
    have hwritten := hrunning job.progress s hlog
    refine leads_effect_bind.mpr ⟨hwritten.sound hsafe, ?_⟩
    refine Leads.bind (hcall .startTask _ hwritten) (fun _ t ht => ?_) fun _ => hpost
    have hbody (progress : ℕ × ℕ) (u : System) (hu : Running log u) :
        (write (.installing { job with task := some task, progress := some progress })).Leads
          (fun _ v => Sound digest v) (fun _ v => Running log v) u :=
      leads_effect.mpr ⟨(hrunning (some progress) u hu.log).sound hsafe,
        hrunning (some progress) u hu.log⟩
    refine Leads.bind (leads_forEach (Running log) ht fun progress _ u hu => hbody progress u hu)
      (fun _ u hu => ?_) fun _ => hpost
    exact (hcall .finishTask u hu).imp fun _ => hpost
  · exact leads_fail.mpr ⟨⟨job, hfile⟩, hlog⟩

/-- The worker after its call for the tasks. -/
def workerRest (env : Env) (job : Job) : Command Unit := do
  let body : Command Unit := do
    env.ends .installTasks
    runTasks env job
  body.catching fun error => do
    ended fun job => .failedInstall job notFinished
    fail error
  ended .complete

theorem worker_moments {s : System} {job : Job} (hfile : s.file = .installing job)
    (htask : job.task = none) : ∃ t, Still (note (.ran job) s) t ∧
      (worker env).moments s = note (.ran job) s :: t :: (workerRest env job).moments t := by
  refine ⟨env.disturb .installTasks (note (.ran job) s), disturb_still _ _, ?_⟩
  unfold worker moments
  rw [look_bind_apply, hfile]
  dsimp only
  rw [htask, if_neg (by simp)]
  unfold runInstall Env.call
  rw [catching_effect_bind, bind_assoc, effect_bind_apply, bind_assoc, catching_effect_bind,
    bind_assoc, effect_bind_apply]
  simp only [id, ite_self]
  rfl

/-- The rest of the worker writes what it comes to. -/
theorem workerRest_sound {log : List Event} (hsafe : Safe digest log) {s : System} {job : Job}
    (hfile : s.file = .installing job) (hlog : s.log = log) :
    (workerRest env job).Leads (fun _ t => Sound digest t)
      (fun _ t => ∀ job', t.file ≠ .installing job') s := by
  have hends : (env.ends .installTasks).Leads (fun _ t => Sound digest t) (fun _ t => t = s) s := by
    unfold Env.ends
    cases env.fate .installTasks with
    | done => exact leads_pure.mpr rfl
    | raises => exact leads_fail.mpr rfl
  have hbody : (env.ends .installTasks >>= fun _ => runTasks env job).Leads
      (fun _ t => Sound digest t) (fun _ t => (∃ job', t.file = .installing job') ∧ t.log = log)
      s := by
    refine hends.bind (fun _ t ht => ?_) fun _ t ht => ?_
    · subst ht
      exact runTasks_leads hsafe hfile hlog
    · subst ht
      exact ⟨⟨job, hfile⟩, hlog⟩
  refine leads_bind.mpr (leads_catching.mpr (hbody.imp fun result t ht => ?_))
  obtain ⟨⟨last, hlast⟩, hlog⟩ := ht
  cases result with
  | ok _ => exact ended_sound hsafe hlast hlog (Or.inl ⟨_, rfl⟩)
  | error failure =>
      refine Leads.bind (ended_sound hsafe hlast hlog (Or.inr ⟨_, _, rfl⟩)) (fun _ u hu => ?_)
        fun _ _ hu => hu
      exact leads_fail.mpr hu

theorem worker_sound {s : System} (h : Sound digest s) {killed : Option ℕ}
    (hfit : Fit s ⟨.worker, env, killed⟩) : Sound digest ((worker env).leaves killed s) := by
  cases hfile : s.file with
  | installing job =>
      cases htask : job.task with
      | some task =>
          refine h.leaves ?_ killed
          unfold worker
          rw [Sounds, leads_look_bind, hfile]
          dsimp only
          rw [htask, Option.isSome_some, if_pos rfl]
          exact leads_fail.mpr trivial
      | none =>
          have htold := h.told
          unfold Told at htold
          rw [hfile] at htold
          obtain ⟨hqueued, hran⟩ := htold htask
          have hsafe : Safe digest (s.log ++ [.ran job]) :=
            h.safe.append nofun (fun _ => hran) nofun fun other hother => by
              cases hother
              exact hqueued
          obtain ⟨t, ht, hmoments⟩ := @worker_moments env s job hfile htask
          have hrest : (workerRest env job).Leads _ _ t :=
            workerRest_sound hsafe (ht.1.1.trans hfile) ht.1.2
          have hne : (workerRest env job).moments t ≠ [] := by
            intro hnil
            have hlast : (workerRest env job).last t = t := by
              unfold last
              rw [hnil]
              rfl
            exact hlast ▸ hrest.2 job <| ht.1.1.trans hfile
          unfold Fit at hfit
          rw [hfile] at hfit
          exact leaves_of_two hmoments h hrest.moments_of hne (hfit htask).1 (hfit htask).2
  | _ =>
      refine h.leaves ?_ killed
      unfold worker
      rw [Sounds, leads_look_bind, hfile]
      exact leads_fail.mpr trivial

/-! ### Runs -/

theorem Sound.step {s : System} (h : Sound digest s) {move : Move} (hfit : Fit s move) :
    Sound digest (move.step digest s) := by
  obtain ⟨name, env, killed⟩ := move
  cases name with
  | inventory => exact h.leaves (h.still keeps_inventory) killed
  | rescan => exact h.leaves (rescan_sound h) killed
  | keyboard data => exact keyboard_sound h hfit
  | plan data => exact h.leaves (plan_sound h data) killed
  | install data => exact install_sound h hfit
  | worker => exact worker_sound h hfit
  | reset => exact reset_sound h hfit
  | status active => exact h.leaves (h.still (keeps_look Still.refl)) killed

/-- The live session, before the first command. -/
def booted (settings : Settings) (storage : Storage) : System :=
  ⟨.setup none, settings, storage, []⟩

/-- In every fit run one installation at most is started and run, and it is the
reviewed one. -/
theorem fit_runs_safe {settings : Settings} {storage : Storage} {moves : List Move}
    (hrun : EachStep (fun s move => move.step digest s) Fit (booted settings storage) moves) :
    ∀ s ∈ states (fun s move => move.step digest s) (booted settings storage) moves,
      Safe digest s.log := by
  have hbooted : Sound digest (booted settings storage) :=
    ⟨⟨Nat.zero_le _, Nat.zero_le _, nofun, nofun⟩, rfl, rfl⟩
  exact fun s hs => (hrun.states (fun _ _ hsound hfit => hsound.step hfit) hbooted s hs).safe

/-! ### A keyboard that Anaconda cannot map -/

/-- An Anaconda with one disk that does what it is told. -/
def willing : Env where
  fate := fun _ => .done
  others := fun _ => none
  offers := ⟨[ascii "us", ascii "de"], [ascii "C.UTF-8"], [ascii "UTC"]⟩
  now := 0
  token := ascii "token"
  crypted := ascii "crypted"
  keymap := ascii "us"
  instances := []
  evaluated := false
  partitioning := ascii "partitioning"
  newRequest := ⟨0, false, [], none⟩
  plannedActions := []
  errors := []
  warnings := []
  tasks := [ascii "install"]
  progress := []
  unusualToken := []

def blank : Settings := ⟨[], false, [], [], [], [], []⟩

def oneDisk : Storage where
  disks := [⟨ascii "sda", ascii "/dev/sda", 1024 ^ 4, [], [], [], [], false, []⟩]
  requiredBytes := 0
  selected := []
  initializationMode := 0
  drivesToClear := []
  devicesToClear := []
  initializeLabels := false
  bootDrive := []
  partitionings := []
  applied := []
  actions := []

def planData : Data :=
  [("username", "kim"), ("password", "long enough!"), ("confirm", "long enough!"),
    ("keyboard", "us"), ("locale", "C.UTF-8"), ("timezone", "UTC"), ("disk", "sda")].map
      fun field => (ascii field.1, .str (ascii field.2))

def installData : Data :=
  [(ascii "token", .str (ascii "token")), (ascii "confirmed_disk", .str (ascii "sda")),
    (ascii "erase_confirmed", .bool true)]

/-- A plan, a keyboard that has no console keymap, and the confirmation. -/
def unmappedKeyboard : List Move :=
  [⟨.plan planData, willing, none⟩,
    ⟨.keyboard [(ascii "keyboard", .str (ascii "de"))], { willing with keymap := [] }, none⟩,
    ⟨.install installData, willing, none⟩]

/-- A start with settings that were not reviewed. -/
def Unreviewed (log : List Event) : Bool :=
  log.any fun event => match event with
    | .started token review settings _ => Event.reviewed token review settings ∉ log
    | _ => false

/-- The keyboard command fails, and its layout is installed. -/
theorem unmappedKeyboard_started :
    ¬ ∀ (moves : List Move), ∀ s ∈ states (fun s move => move.step (fun _ => []) s)
      (booted blank oneDisk) moves, Safe (fun _ => []) s.log := by
  intro h
  have hsafe := h unmappedKeyboard _ (foldl_mem_states _ _)
  have hunreviewed : Unreviewed (unmappedKeyboard.foldl
      (fun s move => move.step (fun _ => []) s) (booted blank oneDisk)).log = true := by
    decide +kernel
  obtain ⟨event, hmember, hevent⟩ := List.any_eq_true.mp hunreviewed
  cases event with
  | started token review settings storage =>
      exact of_decide_eq_true hevent (hsafe.started token review settings storage hmember).1
  | _ => cases hevent

/-- A plan, its confirmation and the worker. -/
def confirmed : List Move :=
  [⟨.plan planData, willing, none⟩, ⟨.install installData, willing, none⟩, ⟨.worker, willing, none⟩]

theorem fit_runs_safe_confirmed : Safe (fun _ => [])
    (confirmed.foldl (fun s move => move.step (fun _ => []) s) (booted blank oneDisk)).log := by
  have hinstall (s : System) : Fit s ⟨.install installData, willing, none⟩ := by
    intro _ site _ storage hstorage
    cases hstorage
  have hworker (s : System) : Fit s ⟨.worker, willing, none⟩ := by
    unfold Fit
    dsimp only
    split
    · exact fun _ => ⟨nofun, nofun⟩
    · trivial
  have hrun : EachStep (fun s move => Move.step (fun _ => []) s move) Fit
      (booted blank oneDisk) confirmed := ⟨trivial, hinstall _, hworker _, trivial⟩
  exact fit_runs_safe hrun _ (foldl_mem_states _ _)

example : (confirmed.foldl (fun s move => move.step (fun _ => []) s)
    (booted blank oneDisk)).log.countP Event.isRan = 1 := by
  decide +kernel

end

end

end Installer

end CybexOS
