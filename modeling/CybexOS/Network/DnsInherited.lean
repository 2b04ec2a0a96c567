/-
A new Wi-Fi profile takes over the DNS choice that the saved profiles share
(`inherit_dns_for_new_profile` in `network-tool.py`), where that choice can be
written.
-/
import CybexOS.Network.Reread
import CybexOS.Network.Tool

namespace CybexOS

namespace Network

open Displays.Py (isSpace strip)

/-! ### The configuration -/

/-- The configuration that a new profile gets; none where the profiles are mixed. -/
def inheritedConfiguration (previous : List Profile) : Except ToolError (Option Configuration) :=
  let state := aggregateDnsState previous
  if state.2 then .ok none
  else (providerConfiguration state.1.provider (.list (state.1.servers.map some))).map some

theorem inheritDns_eq (nmcli : Nmcli) (uuid : Text) (previous : List Detail) :
    inheritDns nmcli uuid previous = (do
      let configuration ← Program.ofExcept (inheritedConfiguration (previous.map Detail.profile))
      configuration.elim (pure ()) fun configuration =>
        modifyDns nmcli uuid configuration.settings false) := by
  unfold inheritDns inheritedConfiguration
  dsimp only
  split_ifs
  · rfl
  · cases providerConfiguration (aggregateDnsState (previous.map Detail.profile)).1.provider
      (.list ((aggregateDnsState (previous.map Detail.profile)).1.servers.map some)) <;> rfl

/-- A profile as `get_profile_detail` reads it: its servers were split. -/
structure SplitServers (profile : Profile) : Prop where
  ipv4 : ∃ text, profile.dns.ipv4Dns = splitServers isSpace (strip text)
  ipv6 : ∃ text, profile.dns.ipv6Dns = splitServers isSpace (strip text)

/-- The new profile can be written, and any list of the profiles with it shares
the choice that they had. -/
def Inherits (profiles : List Profile) : Prop :=
  ∃ outcome, inheritedConfiguration profiles = .ok outcome ∧
    ((aggregateDnsState profiles).2 = false → ∃ configuration, outcome = some configuration ∧
      (∀ profile ∈ profiles.filter targetProfile,
        (profileDnsState profile.dns).sameSignature (profileDnsState configuration.settings)) ∧
      ∀ added : Profile, added.dns = configuration.settings →
        ∀ after : List Profile, after.Perm (added :: profiles) →
          (aggregateDnsState after).2 = false)

/-- A choice that `provider_configuration` takes and gives back: none, one of a
known provider, or one to four addresses that are not a known provider's. -/
def Inheritable (dns : DnsSettings) : Prop :=
  dns.all = [] ∧ dns.ipv4IgnoreAutoDns = false ∧ dns.ipv6IgnoreAutoDns = false ∨
  (dns.ipv4IgnoreAutoDns = true ∧ dns.ipv6IgnoreAutoDns = true ∧
    ∃ provider ∈ DNS_PROVIDERS, sameMembers (dns.all.map canonical) provider.2 = true) ∨
  dns.all ≠ [] ∧ (∀ server ∈ dns.all, (ipAddress server).isSome = true) ∧
    (dns.all.map canonical).dedup.length ≤ 4 ∧
    ∀ provider ∈ DNS_PROVIDERS, sameMembers (dns.all.map canonical) provider.2 = false

/-! ### Signatures -/

theorem sameSignature_iff {first second : DnsState} : first.sameSignature second = true ↔
    first.provider = second.provider ∧ first.servers.Perm second.servers := by
  rw [DnsState.sameSignature, decide_eq_true_eq, List.isPerm_iff]

theorem sameSignature_comm {first second : DnsState} (h : first.sameSignature second = true) :
    second.sameSignature first = true := by
  rw [sameSignature_iff] at h ⊢
  exact ⟨h.1.symm, h.2.symm⟩

theorem sameSignature_trans {first second third : DnsState}
    (h : first.sameSignature second = true) (hnext : second.sameSignature third = true) :
    first.sameSignature third = true := by
  rw [sameSignature_iff] at h hnext ⊢
  exact ⟨h.1.trans hnext.1, h.2.trans hnext.2⟩

/-- Profiles are not mixed exactly when each two share a signature. -/
theorem not_mixed_iff (profiles : List Profile) : (aggregateDnsState profiles).2 = false ↔
    ∀ first ∈ profiles.filter targetProfile, ∀ second ∈ profiles.filter targetProfile,
      (profileDnsState first.dns).sameSignature (profileDnsState second.dns) = true := by
  unfold aggregateDnsState
  generalize profiles.filter targetProfile = targets
  cases targets with
  | nil => simp
  | cons head targets =>
      rw [List.map_cons]
      dsimp only
      have hself : (profileDnsState head.dns).sameSignature (profileDnsState head.dns) = true :=
        sameSignature_iff.mpr ⟨rfl, List.Perm.refl _⟩
      split_ifs with hall
      · rw [List.all_map, List.all_eq_true] at hall
        have hhead : ∀ profile ∈ head :: targets,
            (profileDnsState head.dns).sameSignature (profileDnsState profile.dns) = true := by
          intro profile hprofile
          rcases List.mem_cons.mp hprofile with rfl | hprofile
          · exact hself
          · exact hall profile hprofile
        exact iff_of_true rfl fun first hfirst second hsecond =>
          sameSignature_trans (sameSignature_comm (hhead first hfirst)) (hhead second hsecond)
      · refine iff_of_false (by simp) fun hsame => hall ?_
        rw [List.all_map, List.all_eq_true]
        exact fun profile hprofile => hsame head List.mem_cons_self profile
          (List.mem_cons_of_mem _ hprofile)

theorem aggregate_of_not_mixed {head : Profile} {targets profiles : List Profile}
    (htargets : profiles.filter targetProfile = head :: targets)
    (h : (aggregateDnsState profiles).2 = false) :
    (aggregateDnsState profiles).1 = profileDnsState head.dns := by
  unfold aggregateDnsState at h ⊢
  rw [htargets, List.map_cons] at h ⊢
  dsimp only at h ⊢
  split_ifs at h ⊢
  rfl

/-! ### The state of one profile -/

section

variable {dns : DnsSettings}

theorem normalizedServers_eq (values : List Text) :
    normalizedServers values = collect [] (values.map canonical) := by
  rw [collect, List.foldl_map]
  rfl

theorem mem_normalizedServers {values : List Text} {server : Text} :
    server ∈ normalizedServers values ↔ server ∈ values.map canonical := by
  rw [normalizedServers_eq, mem_collect]
  simp

theorem normalizedServers_eq_nil {values : List Text} :
    normalizedServers values = [] ↔ values = [] := by
  rw [normalizedServers_eq, ← not_iff_not]
  exact (collect_ne_nil _).trans (by simp)

theorem sameMembers_normalized (values servers : List Text) :
    sameMembers (normalizedServers values) servers = sameMembers (values.map canonical) servers := by
  rw [Bool.eq_iff_iff, sameMembers_iff, sameMembers_iff]
  simp only [mem_normalizedServers]

/-- What the state of a profile says of it. -/
theorem profileDnsState_cases (dns : DnsSettings) :
    (dns.all = [] ∧ dns.ipv4IgnoreAutoDns = false ∧ dns.ipv6IgnoreAutoDns = false ∧
      profileDnsState dns = ⟨ascii "Automatic", []⟩) ∨
    (∃ provider ∈ DNS_PROVIDERS, dns.ipv4IgnoreAutoDns = true ∧ dns.ipv6IgnoreAutoDns = true ∧
      sameMembers (dns.all.map canonical) provider.2 = true ∧
      profileDnsState dns = ⟨provider.1, provider.2⟩) ∨
    ¬(dns.all = [] ∧ dns.ipv4IgnoreAutoDns = false ∧ dns.ipv6IgnoreAutoDns = false) ∧
      (∀ provider ∈ DNS_PROVIDERS, dns.ipv4IgnoreAutoDns = true → dns.ipv6IgnoreAutoDns = true →
        sameMembers (dns.all.map canonical) provider.2 = false) ∧
      profileDnsState dns = ⟨ascii "Custom", normalizedServers dns.all⟩ := by
  unfold profileDnsState
  change _ ∨ _ ∨ _
  have hall : dns.ipv4Dns ++ dns.ipv6Dns = dns.all := rfl
  simp only [hall, normalizedServers_eq_nil, sameMembers_normalized]
  by_cases hnone : dns.all = [] ∧ dns.ipv4IgnoreAutoDns = false ∧ dns.ipv6IgnoreAutoDns = false
  · rw [if_pos hnone]
    exact Or.inl ⟨hnone.1, hnone.2.1, hnone.2.2, rfl⟩
  · rw [if_neg hnone]
    cases hfind : DNS_PROVIDERS.find? fun provider => dns.ipv4IgnoreAutoDns &&
        dns.ipv6IgnoreAutoDns && sameMembers (dns.all.map canonical) provider.2 with
    | some provider =>
        have htest := List.find?_some hfind
        rw [Bool.and_eq_true, Bool.and_eq_true] at htest
        exact Or.inr (Or.inl ⟨provider, List.mem_of_find?_eq_some hfind, htest.1.1, htest.1.2,
          htest.2, rfl⟩)
    | none =>
        refine Or.inr (Or.inr ⟨hnone, fun provider hprovider hfour hsix => ?_, rfl⟩)
        have htest := List.find?_eq_none.mp hfind provider hprovider
        rw [hfour, hsix, Bool.true_and, Bool.true_and, Bool.not_eq_true] at htest
        exact htest

/-! ### Configurations of a state -/

theorem providerConfiguration_automatic (custom : RawServers) :
    providerConfiguration (ascii "Automatic") custom =
      .ok ⟨ascii "Automatic", [], ⟨[], [], false, false⟩⟩ := rfl

theorem providerConfiguration_known : ∀ provider ∈ DNS_PROVIDERS, ∀ custom, ∃ configuration,
    providerConfiguration provider.1 custom = .ok configuration ∧
      profileDnsState configuration.settings = ⟨provider.1, provider.2⟩ := by
  have hknown : ∀ provider ∈ DNS_PROVIDERS, profileDnsState
      ⟨provider.2.filter isV4, provider.2.filter isV6, true, true⟩ = ⟨provider.1, provider.2⟩ := by
    decide +kernel
  intro provider hprovider custom
  refine ⟨⟨provider.1, provider.2, provider.2.filter isV4, provider.2.filter isV6, true, true⟩,
    ?_, hknown provider hprovider⟩
  simp only [DNS_PROVIDERS, List.mem_cons, List.not_mem_nil, or_false] at hprovider
  rcases hprovider with rfl | rfl <;> rfl

theorem providerConfiguration_custom (custom : RawServers) :
    providerConfiguration (ascii "Custom") custom =
      (validateDnsServers custom).map fun servers =>
        ⟨ascii "Custom", servers, servers.filter isV4, servers.filter isV6, true, true⟩ := by
  have hrun : providerConfiguration (ascii "Custom") custom =
      validateDnsServers custom >>= fun servers => .ok
        ⟨ascii "Custom", servers, servers.filter isV4, servers.filter isV6, true, true⟩ := rfl
  rw [hrun]
  cases validateDnsServers custom <;> rfl

/-- A list of servers in the form they are kept in is taken when it has one to
four and all can be read. -/
theorem validateDnsServers_list {servers result : List Text}
    (hstrip : ∀ server ∈ servers, strip server = server)
    (hcanonical : ∀ server ∈ servers, (ipAddress server).isSome = true → canonical server = server)
    (hnodup : servers.Nodup) :
    validateDnsServers (.list (servers.map some)) = .ok result ↔
      (∀ server ∈ servers, (ipAddress server).isSome = true) ∧ result = servers ∧
        servers.length ≤ 4 ∧ servers ≠ [] := by
  have hrun : validateDnsServers (.list (servers.map some)) =
      addServers [] (servers.map some) >>= fun servers =>
        if servers = [] then .error (invalidDns (ascii "Enter at least one DNS server"))
        else .ok servers := rfl
  rw [hrun, bind_eq_ok]
  have hkept : (∀ server ∈ servers, (ipAddress server).isSome = true) →
      collect [] (servers.map canonical) = servers := by
    intro hread
    have hmap : servers.map canonical = servers := by
      conv_rhs => rw [← List.map_id servers]
      exact List.map_congr_left fun server hserver => hcanonical server hserver (hread server hserver)
    rw [hmap, collect_of_nodup hnodup]
  constructor
  · rintro ⟨added, hadd, hcheck⟩
    obtain ⟨hread, hcollect, hle⟩ := (addServers_ok (by simp) hstrip).mp hadd
    rw [hkept hread] at hcollect
    subst hcollect
    split_ifs at hcheck with hnil
    exact ⟨hread, (Except.ok.inj hcheck).symm, hle, hnil⟩
  · rintro ⟨hread, rfl, hle, hnil⟩
    exact ⟨result, (addServers_ok (by simp) hstrip).mpr ⟨hread, hkept hread, hle⟩, if_neg hnil⟩

/-- The state of a profile with the servers of a custom choice. -/
theorem profileDnsState_custom {servers : List Text}
    (hread : ∀ server ∈ servers, (ipAddress server).isSome = true)
    (hcanonical : ∀ server ∈ servers, canonical server = server) (hnodup : servers.Nodup)
    (hnil : servers ≠ []) :
    (DnsState.mk (ascii "Custom") servers).sameSignature (profileDnsState
        ⟨servers.filter isV4, servers.filter isV6, true, true⟩) = true ↔
      ∀ provider ∈ DNS_PROVIDERS, sameMembers servers provider.2 = false := by
  have hsix : servers.filter isV6 = servers.filter fun server => !isV4 server := by
    refine List.filter_congr fun server hserver => ?_
    obtain ⟨address, haddress⟩ := Option.isSome_iff_exists.mp (hread server hserver)
    unfold isV4 isV6
    rw [haddress]
    cases address <;> rfl
  have hperm : (servers.filter isV4 ++ servers.filter isV6).Perm servers := by
    rw [hsix]
    exact List.filter_append_perm isV4 servers
  generalize hall : servers.filter isV4 ++ servers.filter isV6 = all at hperm
  have hsettings : (DnsSettings.mk (servers.filter isV4) (servers.filter isV6) true true).all =
      all := hall
  have hmap : all.map canonical = all := by
    conv_rhs => rw [← List.map_id all]
    exact List.map_congr_left fun server hserver => hcanonical server (hperm.mem_iff.mp hserver)
  have hmembers : ∀ provider : Text × List Text,
      sameMembers (all.map canonical) provider.2 = sameMembers servers provider.2 := by
    intro provider
    rw [hmap, Bool.eq_iff_iff, sameMembers_iff, sameMembers_iff]
    simp only [hperm.mem_iff]
  have hnormal : normalizedServers all = all := by
    rw [normalizedServers_eq, hmap, collect_of_nodup (hperm.nodup_iff.mpr hnodup)]
  rw [sameSignature_iff]
  rcases profileDnsState_cases ⟨servers.filter isV4, servers.filter isV6, true, true⟩ with
    ⟨hempty, -⟩ | ⟨provider, hprovider, -, -, hsame, hstate⟩ | ⟨-, hnone, hstate⟩
  · rw [hsettings] at hempty
    rw [hempty] at hperm
    exact absurd (List.nil_perm.mp hperm) hnil
  · rw [hstate]
    rw [hsettings, hmembers] at hsame
    refine iff_of_false (fun h => ?_) fun h => ?_
    · have hname : ∀ provider ∈ DNS_PROVIDERS, ascii "Custom" ≠ provider.1 := by decide
      exact hname provider hprovider h.1
    · rw [h provider hprovider] at hsame
      cases hsame
  · rw [hstate, hsettings, hnormal]
    refine iff_of_true ⟨rfl, hperm.symm⟩ fun provider hprovider => ?_
    rw [← hmembers, ← hsettings]
    exact hnone provider hprovider rfl rfl

theorem space_free {text server : Text} (h : server ∈ splitServers isSpace text) :
    ∀ c ∈ server, isSpace c = false := by
  intro c hc
  have hsep := (mem_splitOnP (List.mem_of_mem_filter h) c hc).2
  unfold isSeparator at hsep
  rw [Bool.or_assoc, Bool.or_eq_false_iff] at hsep
  exact hsep.1

/-- A choice can be written and read back exactly where it is inheritable. -/
theorem inheritable_iff (hspace : ∀ server ∈ dns.all, ∀ c ∈ server, isSpace c = false) :
    (∃ configuration, providerConfiguration (profileDnsState dns).provider
        (.list ((profileDnsState dns).servers.map some)) = .ok configuration ∧
      (profileDnsState dns).sameSignature (profileDnsState configuration.settings) = true) ↔
      Inheritable dns := by
  have hself : ∀ state : DnsState, state.sameSignature state = true :=
    fun state => sameSignature_iff.mpr ⟨rfl, List.Perm.refl _⟩
  rcases profileDnsState_cases dns with ⟨hempty, hfour, hsix, hstate⟩ |
    ⟨provider, hprovider, hfour, hsix, hsame, hstate⟩ | ⟨hsome, hnone, hstate⟩
  · rw [hstate]
    exact iff_of_true ⟨_, providerConfiguration_automatic _, hself _⟩
      (Or.inl ⟨hempty, hfour, hsix⟩)
  · rw [hstate]
    obtain ⟨configuration, hok, hnew⟩ := providerConfiguration_known provider hprovider
      (.list (provider.2.map some))
    exact iff_of_true ⟨configuration, hok, hnew ▸ hself _⟩
      (Or.inr (Or.inl ⟨hfour, hsix, provider, hprovider, hsame⟩))
  · rw [hstate, providerConfiguration_custom]
    have hservers : ∀ server ∈ normalizedServers dns.all, ∃ text ∈ dns.all,
        canonical text = server := fun server hserver =>
      List.mem_map.mp (mem_normalizedServers.mp hserver)
    have hstrip : ∀ server ∈ normalizedServers dns.all, strip server = server := by
      intro server hserver
      obtain ⟨text, htext, rfl⟩ := hservers server hserver
      exact strip_canonical (hspace text htext)
    have hcanonical : ∀ server ∈ normalizedServers dns.all, (ipAddress server).isSome = true →
        canonical server = server := by
      intro server hserver hread
      obtain ⟨text, -, rfl⟩ := hservers server hserver
      rw [isSome_canonical] at hread
      exact canonical_canonical hread
    have hnodup : (normalizedServers dns.all).Nodup := by
      rw [normalizedServers_eq]
      exact nodup_collect List.nodup_nil _
    have hreads : (∀ server ∈ normalizedServers dns.all, (ipAddress server).isSome = true) ↔
        ∀ text ∈ dns.all, (ipAddress text).isSome = true := by
      constructor
      · intro h text htext
        rw [← isSome_canonical]
        exact h _ (mem_normalizedServers.mpr (List.mem_map_of_mem htext))
      · intro h server hserver
        obtain ⟨text, htext, rfl⟩ := hservers server hserver
        rw [isSome_canonical]
        exact h text htext
    have hlength : (normalizedServers dns.all).length = (dns.all.map canonical).dedup.length := by
      rw [normalizedServers_eq, length_collect]
    have hvalid : ∀ result, validateDnsServers (.list ((normalizedServers dns.all).map some)) =
        .ok result ↔ (∀ text ∈ dns.all, (ipAddress text).isSome = true) ∧
          result = normalizedServers dns.all ∧ (dns.all.map canonical).dedup.length ≤ 4 ∧
          dns.all ≠ [] := by
      intro result
      rw [validateDnsServers_list hstrip hcanonical hnodup, hreads, hlength, ne_eq,
        normalizedServers_eq_nil]
    constructor
    · rintro ⟨configuration, hok, hsame⟩
      cases hresult : validateDnsServers (.list ((normalizedServers dns.all).map some)) with
      | error problem =>
          rw [hresult] at hok
          cases hok
      | ok result =>
          rw [hresult] at hok
          obtain rfl := Except.ok.inj hok
          obtain ⟨hread, rfl, hle, hnil⟩ := (hvalid result).mp hresult
          have hunknown := (profileDnsState_custom (hreads.mpr hread)
            (fun server hserver => hcanonical server hserver (hreads.mpr hread server hserver))
            hnodup (mt normalizedServers_eq_nil.mp hnil)).mp hsame
          refine Or.inr (Or.inr ⟨hnil, hread, hle, fun provider hprovider => ?_⟩)
          rw [← sameMembers_normalized]
          exact hunknown provider hprovider
    · rintro (⟨hempty, hfour, hsix⟩ | ⟨hfour, hsix, provider, hprovider, hsame⟩ |
        ⟨hnil, hread, hle, hunknown⟩)
      · exact absurd ⟨hempty, hfour, hsix⟩ hsome
      · rw [hnone provider hprovider hfour hsix] at hsame
        cases hsame
      · have hok := (hvalid _).mpr ⟨hread, rfl, hle, hnil⟩
        refine ⟨_, by rw [hok]; rfl, (profileDnsState_custom (hreads.mpr hread)
          (fun server hserver => hcanonical server hserver (hreads.mpr hread server hserver))
          hnodup (mt normalizedServers_eq_nil.mp hnil)).mpr fun provider hprovider => ?_⟩
        rw [sameMembers_normalized]
        exact hunknown provider hprovider

/-! ### Many profiles -/

/-- A new profile takes over the shared choice exactly where the profiles are
mixed, or the first of them holds a choice that can be inherited. -/
theorem inherits_iff {profiles : List Profile}
    (hprofiles : ∀ profile ∈ profiles, SplitServers profile) :
    Inherits profiles ↔ (aggregateDnsState profiles).2 = true ∨
      ∀ profile ∈ (profiles.filter targetProfile).head?, Inheritable profile.dns := by
  cases hmixed : (aggregateDnsState profiles).2 with
  | true =>
      refine iff_of_true ⟨none, if_pos hmixed, fun h => ?_⟩ (Or.inl rfl)
      rw [hmixed] at h
      cases h
  | false =>
      have hconfiguration : inheritedConfiguration profiles =
          (providerConfiguration (aggregateDnsState profiles).1.provider
            (.list ((aggregateDnsState profiles).1.servers.map some))).map some :=
        if_neg (by rw [hmixed]; exact Bool.false_ne_true)
      have hjoined : ∀ added : Profile, (∀ profile ∈ profiles.filter targetProfile,
          (profileDnsState profile.dns).sameSignature (profileDnsState added.dns) = true) →
          ∀ after : List Profile, after.Perm (added :: profiles) →
            (aggregateDnsState after).2 = false := by
        intro added hadded after hafter
        have hself : (profileDnsState added.dns).sameSignature (profileDnsState added.dns) = true :=
          sameSignature_iff.mpr ⟨rfl, List.Perm.refl _⟩
        have hmember : ∀ profile ∈ after.filter targetProfile,
            profile = added ∨ profile ∈ profiles.filter targetProfile := by
          intro profile hprofile
          obtain ⟨hmem, htarget⟩ := List.mem_filter.mp hprofile
          rcases List.mem_cons.mp (hafter.mem_iff.mp hmem) with rfl | hold
          · exact Or.inl rfl
          · exact Or.inr (List.mem_filter.mpr ⟨hold, htarget⟩)
        have hold := (not_mixed_iff profiles).mp hmixed
        refine (not_mixed_iff after).mpr fun first hfirst second hsecond => ?_
        rcases hmember first hfirst with rfl | hfirst
        · rcases hmember second hsecond with rfl | hsecond
          · exact hself
          · exact sameSignature_comm (hadded second hsecond)
        · rcases hmember second hsecond with rfl | hsecond
          · exact hadded first hfirst
          · exact hold first hfirst second hsecond
      cases htargets : profiles.filter targetProfile with
      | nil =>
          have hstate : (aggregateDnsState profiles).1 = ⟨ascii "Automatic", []⟩ := by
            unfold aggregateDnsState
            rw [htargets]
            rfl
          refine iff_of_true ⟨some ⟨ascii "Automatic", [], ⟨[], [], false, false⟩⟩, ?_,
            fun _ => ⟨_, rfl, ?_, ?_⟩⟩ (Or.inr (by simp))
          · rw [hconfiguration, hstate]
            rfl
          · rw [htargets]
            simp
          · exact fun added _ => hjoined added (by rw [htargets]; simp)
      | cons head targets =>
          have hhead : head ∈ profiles.filter targetProfile := htargets ▸ List.mem_cons_self
          have hsplit := hprofiles head (List.mem_of_mem_filter hhead)
          have hspace : ∀ server ∈ head.dns.all, ∀ c ∈ server, isSpace c = false := by
            intro server hserver
            obtain ⟨four, hfour⟩ := hsplit.ipv4
            obtain ⟨six, hsix⟩ := hsplit.ipv6
            rcases List.mem_append.mp hserver with hmem | hmem
            · exact space_free (hfour ▸ hmem)
            · exact space_free (hsix ▸ hmem)
          have hstate := aggregate_of_not_mixed htargets hmixed
          rw [List.head?_cons]
          simp only [Option.mem_some_iff, forall_eq', Bool.false_eq_true, false_or]
          rw [← inheritable_iff hspace]
          constructor
          · rintro ⟨outcome, hok, hshared⟩
            obtain ⟨configuration, rfl, hsame, -⟩ := hshared hmixed
            rw [hconfiguration, hstate] at hok
            cases hprovider : providerConfiguration (profileDnsState head.dns).provider
                (.list ((profileDnsState head.dns).servers.map some)) with
            | error problem =>
                rw [hprovider] at hok
                cases hok
            | ok found =>
                rw [hprovider] at hok
                obtain rfl := Option.some.inj (Except.ok.inj hok)
                exact ⟨found, rfl, hsame head hhead⟩
          · rintro ⟨configuration, hok, hsame⟩
            have hall : ∀ profile ∈ profiles.filter targetProfile,
                (profileDnsState profile.dns).sameSignature
                  (profileDnsState configuration.settings) = true := fun profile hprofile =>
              sameSignature_trans ((not_mixed_iff profiles).mp hmixed profile hprofile head hhead)
                hsame
            refine ⟨some configuration, ?_, fun _ => ⟨configuration, rfl, htargets ▸ hall, ?_⟩⟩
            · rw [hconfiguration, hstate, hok]
              rfl
            · intro added hadded
              exact hjoined added (hadded ▸ hall)

end

/-! ### A profile without servers -/

theorem inherits_wired : Inherits [wiredProfile] := by
  refine (inherits_iff ?_).mpr (Or.inr ?_)
  · exact List.forall_mem_singleton.mpr ⟨⟨_, rfl⟩, ⟨_, rfl⟩⟩
  · intro profile hprofile
    obtain rfl := List.mem_singleton.mp (List.mem_of_mem_filter (List.mem_of_mem_head? hprofile))
    exact Or.inr (Or.inr ⟨by decide +kernel, by decide +kernel, by decide +kernel,
      by decide +kernel⟩)

/-- The wired profile with no servers of its own and those of the network ignored. -/
def silentProfile : Profile := { wiredProfile with dns := ⟨[], [], true, true⟩ }

theorem silent_raises : ¬∀ profiles : List Profile,
    (∀ profile ∈ profiles, SplitServers profile) → Inherits profiles := by
  intro hall
  obtain ⟨outcome, hok, -⟩ := hall [silentProfile] (List.forall_mem_singleton.mpr
    ⟨⟨[], rfl⟩, ⟨[], rfl⟩⟩)
  have hraises : inheritedConfiguration [silentProfile] =
      .error (invalidDns (ascii "Enter at least one DNS server")) := by rfl
  rw [hraises] at hok
  cases hok

end Network

end CybexOS
