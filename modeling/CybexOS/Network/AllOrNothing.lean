/-
The changing actions of the network helper, command by command: an action that
fails leaves the profiles as they were, but for the commands it does not guard.
-/
import CybexOS.Excepts
import CybexOS.Network.Tool

namespace CybexOS

namespace Network

open Program (effect look fail catching)

/-! ### How an action ends -/

/-- The end of an action, whatever it passes on its way. -/
abbrev Ends {α : Type} (program : Action α) (w : World) (post : Except ToolError α → World → Prop) :
    Prop :=
  program.Leads (fun _ _ => True) post w

theorem ends_self {α : Type} (program : Action α) (w : World) :
    Ends program w fun result t => result = program.result w ∧ t = program.last w := by
  refine ⟨?_, rfl, rfl⟩
  generalize program.moments w = moments
  induction moments generalizing w with
  | nil => simp
  | cons head tail ih => exact List.isChain_cons_cons.mpr ⟨trivial, ih head⟩

section

variable {nmcli : Nmcli} {w : World}

theorem run_ends {command : Command} {label code : Text} {secret check : Bool}
    {change : World → World} {post : Except ToolError Bool → World → Prop}
    (hok : nmcli.reply command = .ok → post (.ok true) (change w))
    (hfailed : nmcli.reply command = .failed → check = false → post (.ok false) w)
    (herror : ∀ error t, nmcli.reply command ≠ .ok →
      (nmcli.reply command = .failed → check = true) →
      nmcli.reply command ≠ .timedOut true ∧ t = w ∨
        nmcli.reply command = .timedOut true ∧ t = change w → post (.error error) t) :
    Ends (run nmcli command label code secret check change) w post := by
  unfold run
  cases hreply : nmcli.reply command with
  | ok =>
      refine Program.leads_bind.mpr (Program.leads_effect.mpr ⟨trivial, ?_⟩)
      exact Program.leads_pure.mpr (hok hreply)
  | failed =>
      cases hcheck : check with
      | true =>
          refine Program.leads_fail.mpr (herror _ _ (by simp [hreply]) (fun _ => hcheck) ?_)
          exact Or.inl ⟨by simp [hreply], rfl⟩
      | false => exact Program.leads_pure.mpr (hfailed hreply hcheck)
  | timedOut tookEffect =>
      cases tookEffect with
      | false =>
          refine Program.leads_bind.mpr (Program.leads_pure.mpr (Program.leads_fail.mpr ?_))
          exact herror _ _ (by simp [hreply]) (by simp [hreply]) (Or.inl ⟨by simp [hreply], rfl⟩)
      | true =>
          refine Program.leads_bind.mpr (Program.leads_effect.mpr
            ⟨trivial, Program.leads_fail.mpr ?_⟩)
          exact herror _ _ (by simp [hreply]) (by simp [hreply]) (Or.inr ⟨hreply, rfl⟩)
  | missing =>
      refine Program.leads_fail.mpr (herror _ _ (by simp [hreply]) (by simp [hreply]) ?_)
      exact Or.inl ⟨by simp [hreply], rfl⟩

/-- A command that changes nothing. -/
theorem run_reads {command : Command} {label code : Text} {secret check : Bool}
    {post : Except ToolError Bool → World → Prop} (hpost : ∀ result, post result w) :
    Ends (run nmcli command label code secret check id) w post := by
  refine run_ends (fun _ => hpost _) (fun _ _ => hpost _) ?_
  rintro error t - - (⟨-, rfl⟩ | ⟨-, rfl⟩) <;> exact hpost _

/-! ### Reading -/

theorem profileSummaries_ends (nmcli : Nmcli) (again : Bool) (w : World) :
    Ends (profileSummaries nmcli again) w fun result t => t = w ∧
      (nmcli.reply (.list again) = .ok → result = .ok (w.profiles.map w.summary)) ∧
      (nmcli.reply (.list again) ≠ .ok → ∃ error, result = .error error) := by
  refine Program.leads_bind.mpr (run_ends ?_ ?_ ?_)
  · intro hok
    exact Program.leads_look.mpr ⟨rfl, fun _ => rfl, fun hne => absurd hok hne⟩
  · intro _ hcheck
    cases hcheck
  · rintro error t hne - (⟨-, rfl⟩ | ⟨-, rfl⟩)
    · exact ⟨rfl, fun hok => absurd hok hne, fun _ => ⟨error, rfl⟩⟩
    · exact ⟨rfl, fun hok => absurd hok hne, fun _ => ⟨error, rfl⟩⟩

/-- The detail that is read of a saved profile. -/
def World.detail (w : World) (profile : Profile) : Detail := ⟨profile, w.deviceOf profile.uuid⟩

theorem World.profile?_eq (hdistinct : (w.profiles.map Profile.uuid).Nodup) {profile : Profile}
    (hprofile : profile ∈ w.profiles) : w.profile? profile.uuid = some profile := by
  obtain ⟨found, hfound⟩ : ∃ found, w.profile? profile.uuid = some found := by
    rw [← Option.isSome_iff_exists]
    exact List.find?_isSome.mpr ⟨profile, hprofile, decide_eq_true rfl⟩
  have hmem := List.mem_of_find?_eq_some hfound
  have huuid : found.uuid = profile.uuid := by simpa using List.find?_some hfound
  rw [hfound, List.inj_on_of_nodup_map hdistinct hmem hprofile huuid]

theorem getProfileDetail_ends (hdistinct : (w.profiles.map Profile.uuid).Nodup)
    {profile : Profile} (hprofile : profile ∈ w.profiles) :
    Ends (getProfileDetail nmcli (w.summary profile)) w fun result t => t = w ∧
      ∀ detail, result = .ok detail → detail = w.detail profile ∧ isUuid profile.uuid = true := by
  have huuid : (w.summary profile).uuid = profile.uuid := rfl
  unfold getProfileDetail
  rw [huuid]
  by_cases hvalid : isUuid profile.uuid = true
  · have hrequire : requireUuid profile.uuid = .ok profile.uuid := if_pos hvalid
    rw [hrequire]
    refine Program.leads_bind.mpr (Program.leads_ofExcept.mpr ?_)
    refine Program.leads_bind.mpr (run_reads fun result => ?_)
    cases result with
    | error error => exact ⟨rfl, fun _ h => by cases h⟩
    | ok value =>
        refine Program.leads_bind.mpr (Program.leads_look.mpr ?_)
        dsimp only
        rw [World.profile?_eq hdistinct hprofile]
        refine Program.leads_pure.mpr ⟨rfl, fun detail hdetail => ⟨?_, hvalid⟩⟩
        exact (Except.ok.inj hdetail).symm
  · have hrequire : ∃ error, requireUuid profile.uuid = .error error := ⟨_, if_neg hvalid⟩
    obtain ⟨error, hrequire⟩ := hrequire
    rw [hrequire]
    exact Program.leads_bind.mpr (Program.leads_ofExcept.mpr ⟨rfl, fun _ h => by cases h⟩)

/-- The physical profiles, as they are saved. -/
theorem physicalProfiles_ends (nmcli : Nmcli) (hdistinct : (w.profiles.map Profile.uuid).Nodup) :
    Ends (physicalProfiles nmcli) w fun result t => t = w ∧
      ∀ details, result = .ok details →
        details = (w.profiles.filter Profile.physical).map w.detail ∧
          ∀ profile ∈ w.profiles.filter Profile.physical, isUuid profile.uuid = true := by
  refine Program.leads_bind.mpr ((profileSummaries_ends nmcli false w).imp ?_)
  rintro (error | summaries) t ⟨rfl, hok, hne⟩
  · exact ⟨rfl, fun _ h => by cases h⟩
  · by_cases hreply : nmcli.reply (.list false) = .ok
    · have hsummaries : (summaries.filter fun summary => isPhysicalType summary.connectionType) =
          (t.profiles.filter Profile.physical).map t.summary := by
        rw [Except.ok.inj (hok hreply), List.filter_map]
        rfl
      dsimp only
      rw [hsummaries]
      split_ifs
      · exact Program.leads_fail.mpr ⟨rfl, fun _ h => by cases h⟩
      · have hmap : List.mapM (getProfileDetail nmcli)
              ((t.profiles.filter Profile.physical).map t.summary) =
            (t.profiles.filter Profile.physical).mapM
              fun profile => getProfileDetail nmcli (t.summary profile) := by
          rw [List.mapM_map]
          rfl
        rw [hmap]
        refine Program.leads_mapM t.detail (fun profile => isUuid profile.uuid = true) ?_
        exact fun profile hprofile =>
          getProfileDetail_ends hdistinct (List.mem_filter.mp hprofile).1
    · obtain ⟨error, herror⟩ := hne hreply
      cases herror

end

/-! ### What is assumed -/

/-- Distinct profiles, a new one that can be told from them, and commands that
undo a change and succeed. -/
structure Nmcli.Reliable (nmcli : Nmcli) (w : World) : Prop where
  distinct : (w.profiles.map Profile.uuid).Nodup
  newValid : isUuid nmcli.newUuid = true
  newFresh : nmcli.newUuid ∉ w.profiles.map Profile.uuid
  printed : parseAddedUuid nmcli.addOutput = [] ∨ parseAddedUuid nmcli.addOutput = nmcli.newUuid
  undoDns : ∀ uuid, nmcli.reply (.modifyDns uuid true) = .ok
  undoBand : ∀ uuid, nmcli.reply (.modifyBand uuid true) = .ok
  delete : ∀ uuid, nmcli.reply (.delete uuid) = .ok

/-! ### DNS -/

/-- Only the DNS settings differ, and only of the profiles named. -/
def SameBut (uuids : List Text) (before after : List Profile) : Prop :=
  List.Forall₂ (fun old new => { new with dns := old.dns } = old ∧
    (old.uuid ∉ uuids → new = old)) before after

theorem SameBut.refl (uuids : List Text) (profiles : List Profile) :
    SameBut uuids profiles profiles :=
  List.forall₂_same.mpr fun _ _ => ⟨rfl, fun _ => rfl⟩

theorem SameBut.eq {before after : List Profile} (h : SameBut [] before after) : after = before :=
  (List.forall₂_eq_eq_eq ▸ h.imp fun _ _ hpair => (hpair.2 List.not_mem_nil).symm :
    before = after).symm

theorem SameBut.uuid_eq {old new : Profile} (h : { new with dns := old.dns } = old) :
    new.uuid = old.uuid := by
  rw [← h]

theorem SameBut.set {uuids : List Text} {before : List Profile} {w : World}
    (h : SameBut uuids before w.profiles) (uuid : Text) (settings : DnsSettings) :
    SameBut (uuid :: uuids) before (w.setDns uuid settings).profiles := by
  refine List.forall₂_map_right_iff.mpr (h.imp fun old new hpair => ?_)
  split_ifs with huuid
  · refine ⟨hpair.1, fun hnot => absurd ?_ hnot⟩
    rw [← SameBut.uuid_eq hpair.1, huuid]
    exact List.mem_cons_self
  · exact ⟨hpair.1, fun hnot => hpair.2 fun hmem => hnot (List.mem_cons_of_mem _ hmem)⟩

/-- A profile gets back the settings it had. -/
theorem SameBut.restore {uuids : List Text} {before : List Profile} {w : World} {profile : Profile}
    (h : SameBut (profile.uuid :: uuids) before w.profiles) (hmem : profile ∈ before)
    (hdistinct : (before.map Profile.uuid).Nodup) :
    SameBut uuids before (w.setDns profile.uuid profile.dns).profiles := by
  have hmembers : ∀ old ∈ before, old.uuid = profile.uuid → old = profile :=
    fun old hold huuid => List.inj_on_of_nodup_map hdistinct hold hmem huuid
  refine List.forall₂_map_right_iff.mpr ?_
  clear hmem hdistinct
  unfold SameBut at h
  generalize w.profiles = profiles at h ⊢
  induction h with
  | nil => exact List.Forall₂.nil
  | @cons old new olds news hpair _ ih =>
      obtain ⟨hhead, htail⟩ := List.forall_mem_cons.mp hmembers
      refine List.Forall₂.cons ?_ (ih htail)
      split_ifs with huuid
      · have hold : old = profile := hhead (SameBut.uuid_eq hpair.1 ▸ huuid)
        rw [← hold]
        exact ⟨hpair.1, fun _ => hpair.1⟩
      · refine ⟨hpair.1, fun hnot => hpair.2 fun hmem => ?_⟩
        rcases List.mem_cons.mp hmem with hsame | hrest
        · exact huuid ((SameBut.uuid_eq hpair.1).trans hsame)
        · exact hnot hrest

/-- The settings of the profiles that differ are all the new ones. -/
def AllSet (uuids : List Text) (settings : DnsSettings) (before after : List Profile) : Prop :=
  after = before.map fun profile =>
    if profile.uuid ∈ uuids then { profile with dns := settings } else profile

theorem AllSet.set {uuids : List Text} {settings : DnsSettings} {before : List Profile} {w : World}
    (h : AllSet uuids settings before w.profiles) (uuid : Text) :
    AllSet (uuid :: uuids) settings before (w.setDns uuid settings).profiles := by
  unfold AllSet World.setDns at *
  dsimp only
  rw [h, List.map_map]
  refine List.map_congr_left fun profile _ => ?_
  simp only [Function.comp_apply, List.mem_cons]
  split_ifs <;> simp_all

/-- New settings that change no profile are the ones the targets had. -/
theorem AllSet.eq_iff {targets : List Detail} {settings : DnsSettings} {before after : List Profile}
    (h : AllSet (targets.map (·.profile.uuid)) settings before after)
    (htargets : ∀ detail ∈ targets, detail.profile ∈ before)
    (hdistinct : (before.map Profile.uuid).Nodup) :
    after = before ↔ ∀ detail ∈ targets, detail.profile.dns = settings := by
  have hkept : after = before ↔ ∀ profile ∈ before,
      profile.uuid ∈ targets.map (·.profile.uuid) → profile.dns = settings := by
    conv_lhs => rw [h, ← List.map_id before, List.map_map, List.map_inj_left]
    refine forall₂_congr fun profile _ => ?_
    simp only [Function.comp_apply, id_eq]
    split_ifs with huuid
    · refine ⟨fun heq _ => by rw [← heq], fun hdns => ?_⟩
      rw [← hdns huuid]
    · exact ⟨fun _ hmem => absurd hmem huuid, fun _ => rfl⟩
  rw [hkept]
  constructor
  · exact fun hall detail hdetail =>
      hall _ (htargets detail hdetail) (List.mem_map.mpr ⟨detail, hdetail, rfl⟩)
  · intro hall profile hprofile huuid
    obtain ⟨detail, hdetail, hsame⟩ := List.mem_map.mp huuid
    rw [← List.inj_on_of_nodup_map hdistinct (htargets detail hdetail) hprofile hsame]
    exact hall detail hdetail

section

variable {nmcli : Nmcli} {w : World}

theorem modifyDns_ends {uuid : Text} {settings : DnsSettings} {rollback : Bool} {t : World}
    (huuid : isUuid uuid = true) {post : Except ToolError Unit → World → Prop}
    (hok : nmcli.reply (.modifyDns uuid rollback) = .ok → post (.ok ()) (t.setDns uuid settings))
    (herror : ∀ error u, nmcli.reply (.modifyDns uuid rollback) ≠ .ok →
      u = t ∨ u = t.setDns uuid settings → post (.error error) u) :
    Ends (modifyDns nmcli uuid settings rollback) t post := by
  have hrequire : requireUuid uuid = .ok uuid := if_pos huuid
  unfold modifyDns
  rw [hrequire]
  refine Program.leads_bind.mpr (Program.leads_ofExcept.mpr ?_)
  refine Program.leads_bind.mpr (run_ends ?_ ?_ ?_)
  · exact fun hreply => Program.leads_pure.mpr (hok hreply)
  · intro _ hcheck
    cases hcheck
  · exact fun error u hne _ hstate => herror error u hne (hstate.imp And.right And.right)

/-- Rolling back what was attempted brings every profile back. -/
theorem rollbackDns_ends (h : nmcli.Reliable w) {attempted : List Detail}
    (hattempted : ∀ detail ∈ attempted, detail.profile ∈ w.profiles ∧
      isUuid detail.profile.uuid = true) {t : World}
    (hsame : SameBut (attempted.map (·.profile.uuid)) w.profiles t.profiles) :
    Ends (rollbackDns nmcli [] attempted) t fun result u =>
      result = .ok [] ∧ u.profiles = w.profiles := by
  induction attempted generalizing t with
  | nil => exact Program.leads_pure.mpr ⟨rfl, hsame.eq⟩
  | cons detail attempted ih =>
      obtain ⟨⟨hmem, huuid⟩, hrest⟩ := List.forall_mem_cons.mp hattempted
      refine Program.leads_bind.mpr (Program.leads_catching.mpr (Program.leads_bind.mpr ?_))
      refine modifyDns_ends huuid (fun _ => ?_) fun _ _ hne => absurd (h.undoDns _) hne
      refine Program.leads_pure.mpr ?_
      exact ih hrest (hsame.restore hmem h.distinct)

theorem undoDns_ends (h : nmcli.Reliable w) {attempted : List Detail}
    (hattempted : ∀ detail ∈ attempted, detail.profile ∈ w.profiles ∧
      isUuid detail.profile.uuid = true) {t : World}
    (hsame : SameBut (attempted.map (·.profile.uuid)) w.profiles t.profiles) (original : ToolError) :
    Ends (undoDns nmcli attempted original) t fun result u =>
      result = .error original ∧ u.profiles = w.profiles := by
  refine Program.leads_bind.mpr ((rollbackDns_ends h hattempted hsame).imp ?_)
  rintro (error | failures) u ⟨hresult, hprofiles⟩
  · cases hresult
  · rw [Except.ok.inj hresult]
    exact Program.leads_fail.mpr ⟨rfl, hprofiles⟩

/-- The modifications all succeed, or nothing is left of them. -/
theorem modifyTargets_ends (h : nmcli.Reliable w) (settings : DnsSettings)
    {attempted targets : List Detail}
    (hattempted : ∀ detail ∈ attempted, detail.profile ∈ w.profiles ∧
      isUuid detail.profile.uuid = true)
    (htargets : ∀ detail ∈ targets, detail.profile ∈ w.profiles ∧
      isUuid detail.profile.uuid = true) {t : World}
    (hset : AllSet (attempted.map (·.profile.uuid)) settings w.profiles t.profiles)
    (hsame : SameBut (attempted.map (·.profile.uuid)) w.profiles t.profiles) :
    Ends (modifyTargets nmcli settings attempted targets) t fun result u =>
      (result = .ok () ∧
        (∀ detail ∈ targets, nmcli.reply (.modifyDns detail.profile.uuid false) = .ok) ∧
        AllSet ((targets.reverse ++ attempted).map (·.profile.uuid)) settings w.profiles
          u.profiles) ∨
      (∃ error, result = .error error) ∧
        (∃ detail ∈ targets, nmcli.reply (.modifyDns detail.profile.uuid false) ≠ .ok) ∧
        u.profiles = w.profiles := by
  induction targets generalizing attempted t with
  | nil => exact Program.leads_pure.mpr (Or.inl ⟨rfl, by simp, hset⟩)
  | cons detail targets ih =>
      obtain ⟨hdetail, hrest⟩ := List.forall_mem_cons.mp htargets
      have hmore : ∀ other ∈ detail :: attempted, other.profile ∈ w.profiles ∧
          isUuid other.profile.uuid = true :=
        List.forall_mem_cons.mpr ⟨hdetail, hattempted⟩
      refine Program.leads_bind.mpr (Program.leads_catching.mpr (modifyDns_ends hdetail.2 ?_ ?_))
      · intro hreply
        refine (ih hmore hrest (hset.set _) (hsame.set _ _)).imp ?_
        rintro result u (⟨hresult, hreplies, hall⟩ | ⟨hresult, ⟨other, hmem, hne⟩, hprofiles⟩)
        · refine Or.inl ⟨hresult, List.forall_mem_cons.mpr ⟨hreply, hreplies⟩, ?_⟩
          rwa [List.reverse_cons, List.append_assoc]
        · exact Or.inr ⟨hresult, ⟨other, List.mem_cons_of_mem _ hmem, hne⟩, hprofiles⟩
      · intro error u hne hstate
        have hleft : SameBut ((detail :: attempted).map (·.profile.uuid)) w.profiles
            u.profiles := by
          rcases hstate with rfl | rfl
          · exact hsame.imp fun _ _ hpair =>
              ⟨hpair.1, fun hnot => hpair.2 fun hmem => hnot (List.mem_cons_of_mem _ hmem)⟩
          · exact hsame.set _ _
        refine (undoDns_ends h hmore hleft error).imp ?_
        rintro result v ⟨rfl, hprofiles⟩
        exact Or.inr ⟨⟨error, rfl⟩, ⟨detail, List.mem_cons_self, hne⟩, hprofiles⟩

/-- A command that raises although its return code is not checked. -/
def Reply.Raises (reply : Reply) : Prop := reply ≠ .ok ∧ reply ≠ .failed

theorem reapplyDevices_ends (nmcli : Nmcli) (devices reapplied reconnect : List Text) (t : World) :
    Ends (reapplyDevices nmcli reapplied reconnect devices) t fun result u => u = t ∧
      ((∃ error, result = .error error) ↔
        ∃ device ∈ devices, (nmcli.reply (.reapply device)).Raises) := by
  induction devices generalizing reapplied reconnect with
  | nil =>
      refine Program.leads_pure.mpr ⟨rfl, ⟨?_, ?_⟩⟩
      · rintro ⟨error, herror⟩
        cases herror
      · rintro ⟨device, hdevice, -⟩
        cases hdevice
  | cons device devices ih =>
      have hskip : ¬ (nmcli.reply (.reapply device)).Raises →
          ((∃ other ∈ device :: devices, (nmcli.reply (.reapply other)).Raises) ↔
            ∃ other ∈ devices, (nmcli.reply (.reapply other)).Raises) := by
        intro hquiet
        rw [List.exists_mem_cons_iff, or_iff_right hquiet]
      refine Program.leads_bind.mpr (run_ends ?_ ?_ ?_)
      · intro hok
        rw [hskip fun h => h.1 hok]
        exact ih _ _
      · intro hfailed _
        rw [hskip fun h => h.2 hfailed]
        exact ih _ _
      · intro error u hne hcheck hstate
        have hraises : (nmcli.reply (.reapply device)).Raises :=
          ⟨hne, fun hfailed => Bool.false_ne_true (hcheck hfailed)⟩
        refine ⟨hstate.elim And.right And.right, fun _ => ⟨device, List.mem_cons_self, hraises⟩, ?_⟩
        exact fun _ => ⟨error, rfl⟩

/-- A plan is about profiles that are saved, and nothing has changed yet. -/
theorem dnsPlan_ends (h : nmcli.Reliable w) (request : DnsRequest) :
    Ends (dnsPlan nmcli request) w fun result t => t = w ∧
      ∀ plan, result = .ok (.inr plan) → ∀ detail ∈ plan.targets, detail.profile ∈ w.profiles ∧
        isUuid detail.profile.uuid = true := by
  refine Program.leads_bind.mpr ((physicalProfiles_ends nmcli h.distinct).imp ?_)
  rintro (error | details) t ⟨rfl, hdetails⟩
  · exact ⟨rfl, fun _ hresult => by cases hresult⟩
  · obtain ⟨rfl, hvalid⟩ := hdetails details rfl
    dsimp only
    split_ifs
    · exact Program.leads_pure.mpr ⟨rfl, fun _ hresult => by cases hresult⟩
    · refine Program.leads_bind.mpr (Program.leads_ofExcept.mpr ?_)
      cases providerConfiguration request.provider request.servers with
      | error error => exact ⟨rfl, fun _ hresult => by cases hresult⟩
      | ok configuration =>
          refine Program.leads_pure.mpr ⟨rfl, fun plan hplan detail hdetail => ?_⟩
          rw [← Sum.inr.inj (Except.ok.inj hplan)] at hdetail
          obtain ⟨profile, hprofile, rfl⟩ := List.mem_map.mp (List.mem_filter.mp hdetail).1
          exact ⟨(List.mem_filter.mp hprofile).1, hvalid profile hprofile⟩

end

/-- An action that fails leaves the profiles as they were. -/
def AllOrNothing {α : Type} (before : World) (result : Except ToolError α) (after : World) : Prop :=
  (∃ error, result = .error error) → after.profiles = before.profiles

@[simp]
theorem allOrNothing_ok {α : Type} {before after : World} {value : α} :
    AllOrNothing before (.ok value) after :=
  fun ⟨_, h⟩ => by cases h

@[simp]
theorem allOrNothing_error {α : Type} {before after : World} {error : ToolError} :
    AllOrNothing before (.error error : Except ToolError α) after ↔
      after.profiles = before.profiles := by
  simp [AllOrNothing]

/-- The settings of a target change, and a reapply that comes after raises. -/
def DnsPlan.Exposed (nmcli : Nmcli) (plan : DnsPlan) : Prop :=
  (∀ detail ∈ plan.targets, nmcli.reply (.modifyDns detail.profile.uuid false) = .ok) ∧
    (∃ device ∈ activeDevices plan.targets, (nmcli.reply (.reapply device)).Raises) ∧
    ∃ detail ∈ plan.targets, detail.profile.dns ≠ plan.configuration.settings

def DnsExposed (nmcli : Nmcli) (request : DnsRequest) (w : World) : Prop :=
  ∃ plan, (dnsPlan nmcli request).result w = .ok (.inr plan) ∧ plan.Exposed nmcli

/-- The profiles are modified and the devices of the active ones reapplied. -/
theorem DnsPlan.ends {nmcli : Nmcli} {w : World} (h : nmcli.Reliable w) {plan : DnsPlan}
    (hmembers : ∀ detail ∈ plan.targets, detail.profile ∈ w.profiles ∧
      isUuid detail.profile.uuid = true) (payload : List Text × List Text → Payload) :
    Ends (do
        modifyTargets nmcli plan.configuration.settings [] plan.targets
        let done ← reapplyDevices nmcli [] [] (activeDevices plan.targets)
        pure (payload done)) w
      fun result t => AllOrNothing w result t ↔ ¬ plan.Exposed nmcli := by
  have hnone : AllSet [] plan.configuration.settings w.profiles w.profiles := by simp [AllSet]
  have hattempted : ∀ detail ∈ ([] : List Detail), detail.profile ∈ w.profiles ∧
      isUuid detail.profile.uuid = true := by simp
  refine Program.leads_bind.mpr ((modifyTargets_ends h plan.configuration.settings
    hattempted hmembers hnone (SameBut.refl _ _)).imp ?_)
  rintro result t (⟨rfl, hreplies, hall⟩ | ⟨⟨error, rfl⟩, ⟨detail, hmem, hne⟩, hprofiles⟩)
  · rw [List.append_nil] at hall
    have hchanged := hall.eq_iff (fun detail hdetail =>
      (hmembers detail (List.mem_reverse.mp hdetail)).1) h.distinct
    refine Program.leads_bind.mpr ((reapplyDevices_ends nmcli _ _ _ t).imp ?_)
    rintro (error | done) u ⟨rfl, hraises⟩
    · have hdevice := hraises.mp ⟨error, rfl⟩
      dsimp only
      rw [allOrNothing_error, hchanged]
      constructor
      · rintro hsame ⟨-, -, detail, hdetail, hne⟩
        exact hne (hsame detail (List.mem_reverse.mpr hdetail))
      · intro hnot detail hdetail
        by_contra hne
        exact hnot ⟨hreplies, hdevice, detail, List.mem_reverse.mp hdetail, hne⟩
    · refine Program.leads_pure.mpr (iff_of_true allOrNothing_ok ?_)
      rintro ⟨-, hdevice, -⟩
      obtain ⟨error, herror⟩ := hraises.mpr hdevice
      cases herror
  · exact iff_of_true (fun _ => hprofiles) fun hexposed => hne (hexposed.1 detail hmem)

theorem dnsAction_ends {nmcli : Nmcli} {w : World} (h : nmcli.Reliable w) (request : DnsRequest) :
    Ends (dnsAction nmcli request) w fun result t =>
      AllOrNothing w result t ↔ ¬ DnsExposed nmcli request w := by
  obtain ⟨hstate, htargets⟩ := (dnsPlan_ends h request).2
  refine Program.leads_bind.mpr ⟨(ends_self _ w).1, ?_⟩
  rw [hstate]
  unfold DnsExposed
  cases hresult : (dnsPlan nmcli request).result w with
  | error error => simp
  | ok planned =>
      cases planned with
      | inl status => simp
      | inr plan =>
          have hexposed : (∃ other, Except.ok (Sum.inr plan : Payload ⊕ DnsPlan) =
              (Except.ok (Sum.inr other) : Except ToolError _) ∧ other.Exposed nmcli) ↔
              plan.Exposed nmcli := by
            simp
          rw [hexposed]
          exact DnsPlan.ends h (htargets plan hresult) _

/-! ### Bands -/

theorem World.setBand_setBand {w : World} (hdistinct : (w.profiles.map Profile.uuid).Nodup)
    {old : Profile} (hold : old ∈ w.profiles) (band : Text) (channel : Nat) :
    ((w.setBand old.uuid band channel).setBand old.uuid old.band old.channel).profiles =
      w.profiles := by
  unfold World.setBand
  rw [List.map_map]
  conv_rhs => rw [← List.map_id w.profiles]
  refine List.map_congr_left fun profile hprofile => ?_
  simp only [Function.comp_apply, id_eq]
  by_cases huuid : profile.uuid = old.uuid
  · rw [List.inj_on_of_nodup_map hdistinct hprofile hold huuid]
    simp
  · simp [huuid]

theorem World.setBand_eq_iff {w : World} (hdistinct : (w.profiles.map Profile.uuid).Nodup)
    {old : Profile} (hold : old ∈ w.profiles) (band : Text) (channel : Nat) :
    (w.setBand old.uuid band channel).profiles = w.profiles ↔
      old.band = band ∧ old.channel = channel := by
  unfold World.setBand
  conv_lhs => rw [← List.map_id w.profiles, List.map_map, List.map_inj_left]
  constructor
  · intro hall
    have hsame := hall old hold
    simp only [Function.comp_apply, id_eq, if_true] at hsame
    rw [← hsame]
    exact ⟨rfl, rfl⟩
  · rintro ⟨rfl, rfl⟩ profile hprofile
    simp only [Function.comp_apply, id_eq]
    split_ifs with huuid
    · rw [List.inj_on_of_nodup_map hdistinct hprofile hold huuid]
    · rfl

section

variable {nmcli : Nmcli} {w : World}

theorem modifyBand_ends {uuid band : Text} {channel : Nat} {rollback : Bool} {t : World}
    (huuid : isUuid uuid = true) {post : Except ToolError Unit → World → Prop}
    (hok : nmcli.reply (.modifyBand uuid rollback) = .ok →
      post (.ok ()) (t.setBand uuid band channel))
    (herror : ∀ error u, nmcli.reply (.modifyBand uuid rollback) ≠ .ok →
      nmcli.reply (.modifyBand uuid rollback) ≠ .timedOut true ∧ u = t ∨
        nmcli.reply (.modifyBand uuid rollback) = .timedOut true ∧ u = t.setBand uuid band channel →
          post (.error error) u) :
    Ends (modifyBand nmcli uuid band channel rollback) t post := by
  have hrequire : requireUuid uuid = .ok uuid := if_pos huuid
  unfold modifyBand
  rw [hrequire]
  refine Program.leads_bind.mpr (Program.leads_ofExcept.mpr ?_)
  refine Program.leads_bind.mpr (run_ends ?_ ?_ ?_)
  · exact fun hreply => Program.leads_pure.mpr (hok hreply)
  · intro _ hcheck
    cases hcheck
  · exact fun error u hne _ hstate => herror error u hne hstate

/-- Activating a profile changes no profile. -/
theorem reconnectBand_ends (nmcli : Nmcli) (uuid interface : Text) (rollback : Bool) (t : World) :
    Ends (reconnectBand nmcli uuid interface rollback) t fun _ u => u.profiles = t.profiles := by
  refine Program.leads_bind.mpr (run_ends ?_ ?_ ?_)
  · exact fun _ => Program.leads_pure.mpr rfl
  · intro _ hcheck
    cases hcheck
  · rintro error u - - (⟨-, rfl⟩ | ⟨-, rfl⟩) <;> rfl

theorem shownBand_ends (nmcli : Nmcli) (detail : Detail) (t : World) :
    Ends (shownBand nmcli detail) t fun _ u => u = t := by
  unfold shownBand
  generalize (if detail.device = [] then detail.profile.interface else detail.device) = interface
  dsimp only
  split_ifs
  · refine Program.leads_bind.mpr (run_reads fun result => ?_)
    cases result with
    | error error => rfl
    | ok ok =>
        dsimp only
        split_ifs <;> exact Program.leads_pure.mpr rfl
  · exact Program.leads_pure.mpr rfl

theorem bandChoice_plan {request : BandRequest} {uuid : Text} {detail : Detail} {shown : Text}
    {plan : BandPlan} (h : bandChoice request uuid detail shown = .ok (.inr plan)) :
    plan.old = detail.profile ∧ plan.uuid = uuid := by
  unfold bandChoice at h
  split at h
  · cases h
  · split at h
    · cases h
    · obtain ⟨interface, -, h⟩ := bind_eq_ok.mp h
      obtain ⟨channel, -, h⟩ := bind_eq_ok.mp h
      rw [← Sum.inr.inj (Except.ok.inj h)]
      exact ⟨rfl, rfl⟩

/-- A plan is about a profile that is saved, and nothing has changed yet. -/
theorem bandPlan_ends (h : nmcli.Reliable w) (request : BandRequest) :
    Ends (bandPlan nmcli request) w fun result t => t = w ∧
      ∀ plan, result = .ok (.inr plan) → plan.old ∈ w.profiles ∧ plan.uuid = plan.old.uuid ∧
        isUuid plan.uuid = true := by
  refine Program.leads_bind.mpr (Program.leads_ofExcept.mpr ?_)
  cases requireUuid request.uuid with
  | error error => exact ⟨rfl, fun _ hresult => by cases hresult⟩
  | ok uuid =>
      refine Program.leads_bind.mpr ((profileSummaries_ends nmcli false w).imp ?_)
      rintro (error | summaries) t ⟨rfl, hok, hne⟩
      · exact ⟨rfl, fun _ hresult => by cases hresult⟩
      · dsimp only
        have hsummaries : summaries = t.profiles.map t.summary := by
          by_cases hreply : nmcli.reply (.list false) = .ok
          · exact Except.ok.inj (hok hreply)
          · obtain ⟨error, herror⟩ := hne hreply
            cases herror
        cases hfound : summaries.find? fun summary => summary.uuid = uuid with
        | none => exact Program.leads_fail.mpr ⟨rfl, fun _ hresult => by cases hresult⟩
        | some summary =>
            dsimp only
            split_ifs
            · exact Program.leads_fail.mpr ⟨rfl, fun _ hresult => by cases hresult⟩
            · have hmem := List.mem_of_find?_eq_some hfound
              rw [hsummaries] at hmem
              obtain ⟨profile, hprofile, rfl⟩ := List.mem_map.mp hmem
              have huuid : (t.summary profile).uuid = uuid := by simpa using List.find?_some hfound
              refine Program.leads_bind.mpr ((getProfileDetail_ends h.distinct hprofile).imp ?_)
              rintro (error | detail) u ⟨rfl, hdetail⟩
              · exact ⟨rfl, fun _ hresult => by cases hresult⟩
              · obtain ⟨rfl, hvalid⟩ := hdetail detail rfl
                refine Program.leads_bind.mpr ((shownBand_ends nmcli _ u).imp ?_)
                rintro (error | shown) v rfl
                · exact ⟨rfl, fun _ hresult => by cases hresult⟩
                · refine Program.leads_ofExcept.mpr ⟨rfl, fun plan hplan => ?_⟩
                  obtain ⟨hold, hplanned⟩ := bandChoice_plan hplan
                  rw [hplanned, hold]
                  exact ⟨hprofile, huuid.symm, huuid ▸ hvalid⟩

end

/-- The modification takes effect although it times out. -/
def BandPlan.Exposed (nmcli : Nmcli) (plan : BandPlan) : Prop :=
  nmcli.reply (.modifyBand plan.uuid false) = .timedOut true ∧
    ¬ (plan.old.band = plan.band ∧ plan.old.channel = plan.channel)

def BandExposed (nmcli : Nmcli) (request : BandRequest) (w : World) : Prop :=
  ∃ plan, (bandPlan nmcli request).result w = .ok (.inr plan) ∧ plan.Exposed nmcli

theorem undoBand_ends {nmcli : Nmcli} {w t : World} (h : nmcli.Reliable w) {plan : BandPlan}
    (hold : plan.old ∈ w.profiles) (huuid : plan.uuid = plan.old.uuid)
    (hvalid : isUuid plan.uuid = true)
    (hset : t.profiles = (w.setBand plan.uuid plan.band plan.channel).profiles)
    (original : ToolError) :
    Ends (undoBand nmcli plan original) t fun result u =>
      (∃ error, result = .error error) ∧ u.profiles = w.profiles := by
  have hback : (t.setBand plan.uuid plan.old.band plan.old.channel).profiles = w.profiles := by
    rw [← World.setBand_setBand h.distinct hold plan.band plan.channel, ← huuid]
    unfold World.setBand at hset ⊢
    dsimp only at hset ⊢
    rw [hset]
  refine Program.leads_bind.mpr (Program.leads_catching.mpr (Program.leads_bind.mpr ?_))
  refine modifyBand_ends hvalid (fun _ => ?_) fun _ _ hne => absurd (h.undoBand _) hne
  refine (reconnectBand_ends nmcli _ _ _ _).imp ?_
  rintro (error | value) u hprofiles
  · exact Program.leads_fail.mpr ⟨⟨_, rfl⟩, hprofiles.trans hback⟩
  · exact Program.leads_fail.mpr ⟨⟨_, rfl⟩, hprofiles.trans hback⟩

theorem bandAction_ends {nmcli : Nmcli} {w : World} (h : nmcli.Reliable w) (request : BandRequest) :
    Ends (bandAction nmcli request) w fun result t =>
      AllOrNothing w result t ↔ ¬ BandExposed nmcli request w := by
  obtain ⟨hstate, hplan⟩ := (bandPlan_ends h request).2
  refine Program.leads_bind.mpr ⟨(ends_self _ w).1, ?_⟩
  rw [hstate]
  unfold BandExposed
  cases hresult : (bandPlan nmcli request).result w with
  | error error => simp
  | ok planned =>
      cases planned with
      | inl status => simp
      | inr plan =>
          have hexposed : (∃ other, Except.ok (Sum.inr plan : Payload ⊕ BandPlan) =
              (Except.ok (Sum.inr other) : Except ToolError _) ∧ other.Exposed nmcli) ↔
              plan.Exposed nmcli := by
            simp
          rw [hexposed]
          obtain ⟨hold, huuid, hvalid⟩ := hplan plan hresult
          refine Program.leads_bind.mpr (modifyBand_ends hvalid ?_ ?_)
          · intro hreply
            have hsafe : ¬ plan.Exposed nmcli := fun hexposed => by
              rw [hexposed.1] at hreply
              cases hreply
            refine Program.leads_bind.mpr (Program.leads_catching.mpr
              ((reconnectBand_ends nmcli _ _ _ _).imp ?_))
            rintro (error | value) t hprofiles
            · refine (undoBand_ends h hold huuid hvalid hprofiles error).imp ?_
              rintro result u ⟨⟨error, rfl⟩, hback⟩
              exact iff_of_true (allOrNothing_error.mpr hback) hsafe
            · exact Program.leads_pure.mpr (iff_of_true allOrNothing_ok hsafe)
          · rintro error t - (⟨hreply, rfl⟩ | ⟨hreply, rfl⟩)
            · exact iff_of_true (allOrNothing_error.mpr rfl) fun hexposed => hreply hexposed.1
            · dsimp only
              rw [allOrNothing_error, huuid, World.setBand_eq_iff h.distinct hold]
              unfold BandPlan.Exposed
              rw [not_and_not_right]
              exact ⟨fun hsame _ => hsame, fun himp => himp hreply⟩

/-! ### Wi-Fi -/

/-- All profiles but the new one are as before. -/
def OnlyNew (nmcli : Nmcli) (before after : World) : Prop :=
  (after.profiles.filter fun profile => profile.uuid ≠ nmcli.newUuid) = before.profiles

section

variable {nmcli : Nmcli} {w : World}

theorem OnlyNew.map {t : World} (h : OnlyNew nmcli w t) (change : Profile → Profile)
    (huuid : ∀ profile, (change profile).uuid = profile.uuid) :
    OnlyNew nmcli w { t with profiles := t.profiles.map fun profile =>
      if profile.uuid = nmcli.newUuid then change profile else profile } := by
  unfold OnlyNew at h ⊢
  rw [← h]
  dsimp only
  rw [List.filter_map]
  have hsame : ((fun profile : Profile => decide (profile.uuid ≠ nmcli.newUuid)) ∘ fun profile =>
      if profile.uuid = nmcli.newUuid then change profile else profile) =
      fun profile => decide (profile.uuid ≠ nmcli.newUuid) := by
    funext profile
    simp only [Function.comp_apply]
    split_ifs with hnew
    · rw [huuid]
    · rfl
  rw [hsame]
  conv_rhs => rw [← List.map_id (t.profiles.filter _)]
  refine List.map_congr_left fun profile hprofile => ?_
  exact if_neg (by simpa using (List.mem_filter.mp hprofile).2)

theorem onlyNew_add (h : nmcli.Reliable w) {profile : Profile}
    (huuid : profile.uuid = nmcli.newUuid) : OnlyNew nmcli w (w.add profile) := by
  unfold OnlyNew World.add
  dsimp only
  rw [List.filter_append, List.filter_eq_self.mpr]
  · simp [huuid]
  · intro other hother
    refine decide_eq_true fun hsame => h.newFresh ?_
    exact List.mem_map.mpr ⟨other, hother, hsame⟩

/-- With the new profile deleted all is as before. -/
theorem removeCreated_ends (h : nmcli.Reliable w) {t : World} (honly : OnlyNew nmcli w t)
    (label : String) (original : ToolError) :
    Ends (removeCreated nmcli nmcli.newUuid label original) t fun result u =>
      (∃ error, result = .error error) ∧ u.profiles = w.profiles := by
  refine Program.leads_bind.mpr (run_ends ?_ ?_ ?_)
  · exact fun _ => Program.leads_fail.mpr ⟨⟨_, rfl⟩, honly⟩
  · intro hfailed
    rw [h.delete] at hfailed
    cases hfailed
  · exact fun _ _ hne => absurd (h.delete _) hne

theorem activate_ends (nmcli : Nmcli) (uuid interface : Text) (t : World) :
    Ends (activate nmcli uuid interface) t fun _ u => u.profiles = t.profiles := by
  refine Program.leads_bind.mpr (Program.leads_ofExcept.mpr ?_)
  cases requireUuid uuid with
  | error error => rfl
  | ok uuid =>
      refine Program.leads_bind.mpr (Program.leads_ofExcept.mpr ?_)
      cases requireInterface interface with
      | error error => rfl
      | ok interface =>
          refine Program.leads_bind.mpr (run_ends ?_ ?_ ?_)
          · exact fun _ => Program.leads_pure.mpr rfl
          · intro _ hcheck
            cases hcheck
          · rintro error u - - (⟨-, rfl⟩ | ⟨-, rfl⟩) <;> rfl

theorem inheritDns_ends (h : nmcli.Reliable w) (previous : List Detail) {t : World}
    (honly : OnlyNew nmcli w t) :
    Ends (inheritDns nmcli nmcli.newUuid previous) t fun _ u => OnlyNew nmcli w u := by
  unfold inheritDns
  dsimp only
  split_ifs
  · exact Program.leads_pure.mpr honly
  · refine Program.leads_bind.mpr (Program.leads_ofExcept.mpr ?_)
    cases providerConfiguration _ _ with
    | error error => exact honly
    | ok configuration =>
        have hset : OnlyNew nmcli w (t.setDns nmcli.newUuid configuration.settings) :=
          honly.map (fun profile => { profile with dns := configuration.settings }) fun _ => rfl
        refine modifyDns_ends h.newValid (fun _ => hset) ?_
        rintro error u - (rfl | rfl)
        · exact honly
        · exact hset

theorem prepareCreated_ends (h : nmcli.Reliable w) (request : WifiRequest)
    (previous : List Detail) {t : World} (honly : OnlyNew nmcli w t) :
    Ends (prepareCreated nmcli request previous nmcli.newUuid) t fun _ u =>
      OnlyNew nmcli w u := by
  refine Program.leads_bind.mpr (Program.leads_ofExcept.mpr ?_)
  cases securitySettings (securityKind request.security) with
  | error error => exact honly
  | ok security =>
      dsimp only
      generalize (if request.hidden then _ else _ : List (Text × Text)) ++ security = settings
      have hset : OnlyNew nmcli w (t.configure nmcli.newUuid settings) :=
        honly.map (fun profile =>
          { profile with properties := Dict.merge profile.properties settings }) fun _ => rfl
      refine Program.leads_bind.mpr (Program.leads_ite.mpr ?_)
      split_ifs
      · refine run_ends (fun _ => inheritDns_ends h previous hset) ?_ ?_
        · intro _ hcheck
          cases hcheck
        · rintro error u - - (⟨-, rfl⟩ | ⟨-, rfl⟩)
          · exact honly
          · exact hset
      · exact Program.leads_pure.mpr (inheritDns_ends h previous honly)

/-- The profiles with a wireless type are among those that were listed. -/
def Listed (w : World) (previous : List Detail) : Prop :=
  ∀ profile ∈ w.profiles, profile.connectionType = wireless →
    profile.uuid ∈ previous.map fun detail => detail.profile.uuid

/-- The new profile cannot be told from what `add` printed, nor from a new list. -/
def Unidentified (nmcli : Nmcli) : Prop :=
  parseAddedUuid nmcli.addOutput = [] ∧ nmcli.reply (.list true) ≠ .ok

theorem fresh_summaries (h : nmcli.Reliable w) {previous : List Detail}
    (hlisted : Listed w previous) (hunlisted : nmcli.newUuid ∉
      previous.map fun detail => detail.profile.uuid) (ssid interface : Text) :
    let t := w.add (newProfile nmcli.newUuid ssid interface)
    ((t.profiles.map t.summary).filter fun summary => summary.connectionType = wireless ∧
      summary.uuid ∉ previous.map fun detail => detail.profile.uuid) =
      [t.summary (newProfile nmcli.newUuid ssid interface)] := by
  intro t
  have hold : (w.profiles.map t.summary).filter (fun summary =>
      summary.connectionType = wireless ∧
        summary.uuid ∉ previous.map fun detail => detail.profile.uuid) = [] := by
    refine List.filter_eq_nil_iff.mpr fun summary hsummary => ?_
    obtain ⟨profile, hprofile, rfl⟩ := List.mem_map.mp hsummary
    rw [decide_eq_true_eq]
    rintro ⟨htype, hnot⟩
    exact hnot (hlisted profile hprofile htype)
  have hprofiles : t.profiles = w.profiles ++ [newProfile nmcli.newUuid ssid interface] := rfl
  rw [hprofiles, List.map_append, List.filter_append, hold, List.nil_append, List.map_singleton]
  exact List.filter_eq_self.mpr fun summary hsummary => by
    rw [List.mem_singleton.mp hsummary]
    exact decide_eq_true ⟨rfl, hunlisted⟩

theorem identifyCreated_ends (h : nmcli.Reliable w) {previous : List Detail}
    (hlisted : Listed w previous) (hunlisted : nmcli.newUuid ∉
      previous.map fun detail => detail.profile.uuid) (ssid interface : Text) :
    Ends (identifyCreated nmcli previous) (w.add (newProfile nmcli.newUuid ssid interface))
      fun result t => t = w.add (newProfile nmcli.newUuid ssid interface) ∧
        (¬ Unidentified nmcli → result = .ok nmcli.newUuid) ∧
        (Unidentified nmcli → ∃ error, result = .error error) := by
  have hfresh := fresh_summaries h hlisted hunlisted ssid interface
  dsimp only at hfresh
  generalize hworld : w.add (newProfile nmcli.newUuid ssid interface) = t at hfresh ⊢
  have hnamed : ∀ u, u = t → ¬ Unidentified nmcli →
      Ends (if isUuid nmcli.newUuid = true then pure nmcli.newUuid
        else fail ⟨ascii "profile_create_failed",
          ascii "NetworkManager did not identify the new profile"⟩ : Action Text) u
        fun result u => u = t ∧ (¬ Unidentified nmcli → result = .ok nmcli.newUuid) ∧
          (Unidentified nmcli → ∃ error, result = .error error) := by
    rintro u rfl hidentified
    rw [if_pos h.newValid]
    exact Program.leads_pure.mpr ⟨rfl, fun _ => rfl, fun hnot => absurd hnot hidentified⟩
  unfold identifyCreated
  by_cases hprinted : parseAddedUuid nmcli.addOutput = []
  · simp only [hprinted, ne_eq, not_true_eq_false, if_false]
    refine Program.leads_bind.mpr (Program.leads_bind.mpr
      ((profileSummaries_ends nmcli true t).imp ?_))
    rintro (error | summaries) u ⟨rfl, hok, hne⟩
    · have hreply : nmcli.reply (.list true) ≠ .ok := fun hreply => by
        have herror := hok hreply
        cases herror
      exact ⟨rfl, fun hnot => absurd ⟨hprinted, hreply⟩ hnot, fun _ => ⟨error, rfl⟩⟩
    · have hreply : nmcli.reply (.list true) = .ok := by
        by_contra hreply
        obtain ⟨error, herror⟩ := hne hreply
        cases herror
      dsimp only
      rw [Except.ok.inj (hok hreply), hfresh]
      exact Program.leads_pure.mpr (hnamed u rfl fun hnot => hnot.2 hreply)
  · simp only [hprinted, ne_eq, not_false_eq_true, if_true]
    have hsame := h.printed.resolve_left hprinted
    rw [hsame]
    exact Program.leads_bind.mpr (Program.leads_pure.mpr (hnamed t rfl fun hnot => hprinted hnot.1))

/-- The profile is added although the command times out, or cannot be named. -/
def CreationExposed (nmcli : Nmcli) : Prop :=
  nmcli.reply .add = .timedOut true ∨ nmcli.reply .add = .ok ∧ Unidentified nmcli

theorem createProfile_ends (h : nmcli.Reliable w) {previous : List Detail}
    (hlisted : Listed w previous) (hunlisted : nmcli.newUuid ∉
      previous.map fun detail => detail.profile.uuid) (request : WifiRequest)
    (interface ssid : Text) :
    Ends (createProfile nmcli request interface ssid previous) w fun result t =>
      result = .ok nmcli.newUuid ∧ OnlyNew nmcli w t ∧ ¬ CreationExposed nmcli ∨
        (∃ error, result = .error error) ∧
          (t.profiles = w.profiles ↔ ¬ CreationExposed nmcli) := by
  have hadded : (w.add (newProfile nmcli.newUuid ssid interface)).profiles ≠ w.profiles := by
    simp [World.add]
  refine Program.leads_bind.mpr (run_ends ?_ ?_ ?_)
  · intro hreply
    refine Program.leads_bind.mpr
      ((identifyCreated_ends h hlisted hunlisted ssid interface).imp ?_)
    rintro result t ⟨rfl, hidentified, hunidentified⟩
    by_cases hknown : Unidentified nmcli
    · obtain ⟨error, rfl⟩ := hunidentified hknown
      refine Or.inr ⟨⟨error, rfl⟩, iff_of_false hadded ?_⟩
      exact fun hnot => hnot (Or.inr ⟨hreply, hknown⟩)
    · rw [hidentified hknown]
      have hsafe : ¬ CreationExposed nmcli := by
        rintro (htimed | ⟨-, hunknown⟩)
        · rw [htimed] at hreply
          cases hreply
        · exact hknown hunknown
      refine Program.leads_bind.mpr (Program.leads_catching.mpr
        ((prepareCreated_ends h request previous (onlyNew_add h rfl)).imp ?_))
      rintro (error | value) t honly
      · refine (removeCreated_ends h honly _ error).imp ?_
        rintro result u ⟨⟨error, rfl⟩, hprofiles⟩
        exact Or.inr ⟨⟨error, rfl⟩, iff_of_true hprofiles hsafe⟩
      · exact Program.leads_pure.mpr (Or.inl ⟨rfl, honly, hsafe⟩)
  · intro _ hcheck
    cases hcheck
  · rintro error t hne - (⟨htimed, rfl⟩ | ⟨htimed, rfl⟩)
    · refine Or.inr ⟨⟨error, rfl⟩, iff_of_true rfl ?_⟩
      rintro (hexposed | ⟨hok, -⟩)
      · exact htimed hexposed
      · exact hne hok
    · exact Or.inr ⟨⟨error, rfl⟩, iff_of_false hadded fun hnot => hnot (Or.inl htimed)⟩

/-- A plan that creates a profile knows the wireless ones there are. -/
theorem connectPlan_ends (h : nmcli.Reliable w) (request : WifiRequest) :
    Ends (connectPlan nmcli request) w fun result t => t = w ∧
      ∀ plan ssid previous, result = .ok plan → plan.profile = .inr (ssid, previous) →
        Listed w previous ∧
          nmcli.newUuid ∉ previous.map fun detail => detail.profile.uuid := by
  refine Program.leads_bind.mpr (Program.leads_ofExcept.mpr ?_)
  cases requireInterface request.interface with
  | error error => exact ⟨rfl, fun _ _ _ hresult => by cases hresult⟩
  | ok interface =>
      refine Program.leads_bind.mpr (Program.leads_ofExcept.mpr ?_)
      cases connectSecrets request with
      | error error => exact ⟨rfl, fun _ _ _ hresult => by cases hresult⟩
      | ok secrets =>
          dsimp only
          rw [Program.leads_ite]
          split_ifs
          · refine Program.leads_bind.mpr (Program.leads_ofExcept.mpr ?_)
            cases requireUuid request.uuid with
            | error error => exact ⟨rfl, fun _ _ _ hresult => by cases hresult⟩
            | ok uuid =>
                refine Program.leads_pure.mpr ⟨rfl, fun plan ssid previous hplan hprofile => ?_⟩
                rw [← Except.ok.inj hplan] at hprofile
                cases hprofile
          · refine Program.leads_bind.mpr (Program.leads_ofExcept.mpr ?_)
            cases requireSsid request.ssid with
            | error error => exact ⟨rfl, fun _ _ _ hresult => by cases hresult⟩
            | ok ssid =>
                refine Program.leads_bind.mpr ((physicalProfiles_ends nmcli h.distinct).imp ?_)
                rintro (error | details) t ⟨rfl, hdetails⟩
                · exact ⟨rfl, fun _ _ _ hresult => by cases hresult⟩
                · obtain ⟨rfl, -⟩ := hdetails details rfl
                  refine Program.leads_pure.mpr ⟨rfl, fun plan ssid' previous hplan hprofile => ?_⟩
                  rw [← Except.ok.inj hplan] at hprofile
                  obtain ⟨-, rfl⟩ := Prod.mk.inj (Sum.inr.inj hprofile)
                  rw [Listed, List.map_map]
                  constructor
                  · intro profile hmem htype
                    refine List.mem_map.mpr ⟨profile, List.mem_filter.mpr ⟨hmem, ?_⟩, rfl⟩
                    rw [Profile.physical, htype]
                    decide
                  · intro hnew
                    obtain ⟨profile, hmem, huuid⟩ := List.mem_map.mp hnew
                    exact h.newFresh (List.mem_map.mpr
                      ⟨profile, (List.mem_filter.mp hmem).1, huuid⟩)

end

def ConnectExposed (nmcli : Nmcli) (request : WifiRequest) (w : World) : Prop :=
  ∃ plan created, (connectPlan nmcli request).result w = .ok plan ∧ plan.profile = .inr created ∧
    CreationExposed nmcli

theorem connect_ends {nmcli : Nmcli} {w : World} (h : nmcli.Reliable w) (request : WifiRequest) :
    Ends (connect nmcli request) w fun result t =>
      AllOrNothing w result t ↔ ¬ ConnectExposed nmcli request w := by
  obtain ⟨hstate, hplan⟩ := (connectPlan_ends h request).2
  refine Program.leads_bind.mpr ⟨(ends_self _ w).1, ?_⟩
  rw [hstate]
  unfold ConnectExposed
  cases hresult : (connectPlan nmcli request).result w with
  | error error => simp
  | ok plan =>
      obtain ⟨interface, profile⟩ := plan
      cases profile with
      | inl uuid =>
          have hsafe : ¬ ∃ plan created, (Except.ok ⟨interface, .inl uuid⟩ :
              Except ToolError ConnectPlan) = .ok plan ∧ plan.profile = .inr created ∧
                CreationExposed nmcli := by
            rintro ⟨plan, created, hsame, hcreated, -⟩
            rw [← Except.ok.inj hsame] at hcreated
            cases hcreated
          refine Program.leads_bind.mpr ((activate_ends nmcli uuid interface w).imp ?_)
          rintro (error | value) t hprofiles
          · exact iff_of_true (allOrNothing_error.mpr hprofiles) hsafe
          · exact Program.leads_pure.mpr (iff_of_true allOrNothing_ok hsafe)
      | inr created =>
          obtain ⟨ssid, previous⟩ := created
          have hexposed : (∃ plan created, (Except.ok ⟨interface, .inr (ssid, previous)⟩ :
              Except ToolError ConnectPlan) = .ok plan ∧ plan.profile = .inr created ∧
                CreationExposed nmcli) ↔ CreationExposed nmcli := by
            simp
          rw [hexposed]
          obtain ⟨hlisted, hunlisted⟩ := hplan _ ssid previous hresult rfl
          refine Program.leads_bind.mpr
            ((createProfile_ends h hlisted hunlisted request interface ssid).imp ?_)
          rintro result t (⟨rfl, honly, hsafe⟩ | ⟨⟨error, rfl⟩, hiff⟩)
          · refine Program.leads_bind.mpr (Program.leads_catching.mpr
              ((activate_ends nmcli _ interface t).imp ?_))
            rintro (error | value) u hprofiles
            · have hkept : OnlyNew nmcli w u := by
                unfold OnlyNew
                rw [hprofiles]
                exact honly
              refine (removeCreated_ends h hkept _ error).imp ?_
              rintro result v ⟨⟨error, rfl⟩, hback⟩
              exact iff_of_true (allOrNothing_error.mpr hback) hsafe
            · exact Program.leads_pure.mpr (iff_of_true allOrNothing_ok hsafe)
          · exact allOrNothing_error.trans hiff

/-! ### The actions -/

/-- A change of the DNS servers, of the band, or a connection to a network. -/
def Request.Changes : Request → Prop
  | .dns _ | .band _ => True
  | .wifi request => request.action = ascii "connect"

/-- The commands that a failing action does not undo. -/
def Request.Exposed (nmcli : Nmcli) (w : World) : Request → Prop
  | .dns request => DnsExposed nmcli request w
  | .wifi request => ConnectExposed nmcli request w
  | .band request => BandExposed nmcli request w

/-- A wired profile on its device. -/
def wiredWorld : World where
  profiles := [⟨ascii "Wired", ascii "11111111-1111-1111-1111-111111111111",
    ascii "802-3-ethernet", [], [], [], [], [], ⟨[], [], false, false⟩, [], 0, []⟩]
  devices := [(ascii "11111111-1111-1111-1111-111111111111", ascii "eth0")]

/-- Every command succeeds but those given. -/
def repliesBut (replies : List (Command × Reply)) : Nmcli where
  reply := fun command => (replies.lookup command).getD .ok
  detail := fun _ => []
  newUuid := ascii "22222222-2222-2222-2222-222222222222"
  addOutput := ascii "Connection 'cafe' (22222222-2222-2222-2222-222222222222) successfully added."
  frequency := none

def slowReapply : Nmcli := repliesBut [(.reapply (ascii "eth0"), .timedOut false)]

def cloudflare : Request := .dns ⟨ascii "cloudflare", .other⟩

theorem slowReapply_reliable : slowReapply.Reliable wiredWorld where
  distinct := by decide
  newValid := by decide
  newFresh := by decide
  printed := Or.inr (by decide)
  undoDns := fun _ => rfl
  undoBand := fun _ => rfl
  delete := fun _ => rfl

/-- A network whose activation fails. -/
def refused : Nmcli :=
  repliesBut [(.up (ascii "22222222-2222-2222-2222-222222222222") false, .failed)]

def joinCafe : Request :=
  .wifi ⟨ascii "connect", ascii "wlan0", [], ascii "cafe", ascii "WPA2", some (ascii "secret"),
    none, false, true⟩

end Network

end CybexOS
