/-
The panel and the helper agree on DNS: on the servers that a request may name
and on the state of the profiles that the helper reports.
-/
import CybexOS.Network.Literals
import Mathlib.Data.List.Find

namespace CybexOS

namespace Network

open Displays.Py (isSpace strip)

/-! ### Servers in the order of their first mention -/

def insertNew (servers : List Text) (server : Text) : List Text :=
  if server ∈ servers then servers else servers ++ [server]

def collect (servers texts : List Text) : List Text := texts.foldl insertNew servers

theorem mem_insertNew {servers : List Text} {server text : Text} :
    text ∈ insertNew servers server ↔ text ∈ servers ∨ text = server := by
  unfold insertNew
  split_ifs with hknown
  · exact ⟨Or.inl, fun h => h.elim id fun hsame => hsame ▸ hknown⟩
  · rw [List.mem_append, List.mem_singleton]

theorem length_le_insertNew (servers : List Text) (server : Text) :
    servers.length ≤ (insertNew servers server).length := by
  unfold insertNew
  split_ifs
  · exact le_rfl
  · simp

theorem nodup_insertNew {servers : List Text} (h : servers.Nodup) (server : Text) :
    (insertNew servers server).Nodup := by
  unfold insertNew
  split_ifs with hknown
  · exact h
  · exact List.nodup_append.mpr ⟨h, List.nodup_singleton server, fun a ha b hb hsame =>
      hknown (List.mem_singleton.mp hb ▸ hsame ▸ ha)⟩

theorem mem_collect {servers texts : List Text} {text : Text} :
    text ∈ collect servers texts ↔ text ∈ servers ∨ text ∈ texts := by
  induction texts generalizing servers with
  | nil => simp [collect]
  | cons first texts ih =>
      change text ∈ collect (insertNew servers first) texts ↔ _
      rw [ih, mem_insertNew, List.mem_cons, or_assoc]

theorem length_le_collect (servers texts : List Text) :
    servers.length ≤ (collect servers texts).length := by
  induction texts generalizing servers with
  | nil => exact le_rfl
  | cons first texts ih => exact (length_le_insertNew servers first).trans (ih _)

theorem nodup_collect {servers : List Text} (h : servers.Nodup) (texts : List Text) :
    (collect servers texts).Nodup := by
  induction texts generalizing servers with
  | nil => exact h
  | cons first texts ih => exact ih (nodup_insertNew h first)

/-- The servers are as many as the different texts. -/
theorem length_collect (texts : List Text) : (collect [] texts).length = texts.dedup.length := by
  refine List.Perm.length_eq ?_
  refine (List.perm_ext_iff_of_nodup (nodup_collect List.nodup_nil texts)
    (List.nodup_dedup texts)).mpr fun text => ?_
  rw [mem_collect, List.mem_dedup]
  simp

/-- Texts without a repetition are all kept. -/
theorem collect_of_nodup {texts : List Text} (h : texts.Nodup) : collect [] texts = texts := by
  have hkept : ∀ servers : List Text, (servers ++ texts).Nodup →
      collect servers texts = servers ++ texts := by
    clear h
    induction texts with
    | nil => exact fun servers _ => (List.append_nil servers).symm
    | cons first texts ih =>
        intro servers hnodup
        have hnew : first ∉ servers := fun hmem =>
          (List.nodup_append.mp hnodup).2.2 first hmem first List.mem_cons_self rfl
        have hstep : insertNew servers first = servers ++ [first] := if_neg hnew
        change collect (insertNew servers first) texts = _
        rw [hstep, ih (servers ++ [first]) (by rwa [List.append_assoc]), List.append_assoc]
        rfl
  simpa using hkept [] (by simpa using h)

/-! ### The two loops -/

theorem canonical_of_read {text : Text} {address : Address} (h : ipAddress text = some address) :
    canonical text = address.text := by
  unfold canonical
  rw [h]
  rfl

/-- The helper keeps the addresses in their order, up to four, when it reads all. -/
theorem addServers_ok {servers items result : List Text} (hlength : servers.length ≤ 4)
    (hstrip : ∀ item ∈ items, strip item = item) :
    addServers servers (items.map some) = .ok result ↔
      (∀ item ∈ items, (ipAddress item).isSome = true) ∧
        collect servers (items.map canonical) = result ∧ result.length ≤ 4 := by
  induction items generalizing servers with
  | nil =>
      constructor
      · intro h
        obtain rfl := Except.ok.inj (show Except.ok servers = .ok result from h)
        exact ⟨by simp, rfl, hlength⟩
      · rintro ⟨-, rfl, -⟩
        rfl
  | cons item items ih =>
      obtain ⟨hitem, hitems⟩ := List.forall_mem_cons.mp hstrip
      rw [List.map_cons, addServers, hitem, List.forall_mem_cons]
      cases hread : ipAddress item with
      | none => simp
      | some address =>
          have hcanonical := canonical_of_read hread
          have hstep : (if address.text ∈ servers then servers else servers ++ [address.text]) =
              insertNew servers (canonical item) := by
            rw [hcanonical]
            rfl
          dsimp only
          rw [hstep]
          have hcollect : collect servers ((item :: items).map canonical) =
              collect (insertNew servers (canonical item)) (items.map canonical) := rfl
          rw [hcollect]
          split_ifs with hfull
          · constructor
            · intro h
              cases h
            · rintro ⟨-, rfl, hle⟩
              have := length_le_collect (insertNew servers (canonical item)) (items.map canonical)
              omega
          · rw [ih (by omega) hitems]
            simp

namespace Panel

/-- The panel keeps the spellings in their order, up to four, when it takes all. -/
theorem addServers_ok {servers values result : List Text} (hlength : servers.length ≤ 4)
    (htrim : ∀ value ∈ values, jsTrim value = value) :
    addServers servers values = .ok result ↔
      (∀ item ∈ values.filter (· ≠ []), (isIpv4 (lower item) || isIpv6 (lower item)) = true) ∧
        collect servers ((values.filter (· ≠ [])).map lower) = result ∧ result.length ≤ 4 := by
  induction values generalizing servers with
  | nil =>
      constructor
      · intro h
        obtain rfl := Except.ok.inj (show Except.ok servers = .ok result from h)
        exact ⟨by simp, rfl, hlength⟩
      · rintro ⟨-, rfl, -⟩
        rfl
  | cons value values ih =>
      obtain ⟨hvalue, hvalues⟩ := List.forall_mem_cons.mp htrim
      unfold addServers
      rw [hvalue]
      dsimp only
      by_cases hblank : value = []
      · rw [if_pos (lower_eq_nil_iff.mpr hblank), List.filter_cons_of_neg (by simpa using hblank),
          ih hlength hvalues]
      · rw [if_neg (mt lower_eq_nil_iff.mp hblank), List.filter_cons_of_pos (by simpa using hblank),
          List.forall_mem_cons]
        have hcollect : collect servers ((value :: values.filter (· ≠ [])).map lower) =
            collect (insertNew servers (lower value)) ((values.filter (· ≠ [])).map lower) := rfl
        rw [hcollect]
        by_cases hliteral : (isIpv4 (lower value) || isIpv6 (lower value)) = true
        · rw [← Bool.not_or, hliteral, Bool.not_true, if_neg Bool.false_ne_true]
          change (if 4 < (insertNew servers (lower value)).length then _ else
            addServers (insertNew servers (lower value)) values) = _ ↔ _
          split_ifs with hfull
          · constructor
            · intro h
              cases h
            · rintro ⟨-, rfl, hle⟩
              have := length_le_collect (insertNew servers (lower value))
                ((values.filter (· ≠ [])).map lower)
              omega
          · rw [ih (by omega) hvalues]
            exact ⟨fun h => ⟨⟨rfl, h.1⟩, h.2⟩, fun h => ⟨h.1.2, h.2⟩⟩
        · rw [← Bool.not_or, Bool.eq_false_iff.mpr hliteral, Bool.not_false, if_pos rfl]
          constructor
          · intro h
            cases h
          · rintro ⟨⟨h, -⟩, -⟩
            exact absurd h Bool.false_ne_true

end Panel

/-! ### Requests -/

theorem splitOnP_congr {p q : Nat → Bool} {text : Text} (h : ∀ c ∈ text, p c = q c) :
    text.splitOnP p = text.splitOnP q := by
  induction text with
  | nil => rfl
  | cons c text ih =>
      obtain ⟨hc, htext⟩ := List.forall_mem_cons.mp h
      rw [List.splitOnP_cons_eq_if_modifyHead, List.splitOnP_cons_eq_if_modifyHead, hc, ih htext]

/-- An item between separators has nothing to strip. -/
theorem trim_piece {space : Nat → Bool} {text piece : Text}
    (h : piece ∈ text.splitOnP (isSeparator space)) : trimWith space piece = piece := by
  have hspace : ∀ c ∈ piece, space c = false := by
    intro c hc
    have hsep := (mem_splitOnP h c hc).2
    unfold isSeparator at hsep
    rw [Bool.or_assoc, Bool.or_eq_false_iff] at hsep
    exact hsep.1
  exact trimWith_eq_self (fun c hc => hspace c (List.mem_of_head? hc))
    fun c hc => hspace c (List.mem_of_getLast? hc)

/-- The servers of a request, as the user typed them. -/
def typedServers (value : Text) : List Text := splitServers isSpace value

/-- A request on which the two sides split and count alike: each character is
white space for both or for none, no server has a dotted piece before `::`, and
more than four spellings are more than four servers. -/
structure PlainRequest (value : Text) : Prop where
  spaces : ∀ c ∈ value, isSpace c = isJsSpace c
  heads : ∀ server ∈ typedServers value, Panel.PlainHead server
  counts : 4 < ((typedServers value).map lower).dedup.length →
    4 < ((typedServers value).map canonical).dedup.length

theorem validateDnsServers_ok {value : Text} {servers : List Text} :
    validateDnsServers (.text value) = .ok servers ↔
      (∀ item ∈ typedServers value, (ipAddress item).isSome = true) ∧
        collect [] ((typedServers value).map canonical) = servers ∧ servers.length ≤ 4 ∧
        servers ≠ [] := by
  have hstrip : ∀ item ∈ typedServers value, strip item = item :=
    fun item hitem => trim_piece (List.mem_of_mem_filter hitem)
  have hrun : validateDnsServers (.text value) =
      addServers [] ((typedServers value).map some) >>= fun servers =>
        if servers = [] then .error (invalidDns (ascii "Enter at least one DNS server"))
        else .ok servers := rfl
  rw [hrun]
  constructor
  · intro h
    cases hadd : addServers [] ((typedServers value).map some) with
    | error problem =>
        rw [hadd] at h
        cases h
    | ok added =>
        rw [hadd] at h
        have hok : (if added = [] then
            Except.error (invalidDns (ascii "Enter at least one DNS server"))
          else .ok added) = .ok servers := h
        split_ifs at hok with hnil
        obtain rfl := Except.ok.inj hok
        obtain ⟨hread, hcollect, hle⟩ := (addServers_ok (by simp) hstrip).mp hadd
        exact ⟨hread, hcollect, hle, hnil⟩
  · rintro ⟨hread, hcollect, hle, hnil⟩
    rw [(addServers_ok (by simp) hstrip).mpr ⟨hread, hcollect, hle⟩]
    exact if_neg hnil

theorem Panel.validateDnsServers_ok {value : Text} {servers : List Text}
    (hspaces : ∀ c ∈ value, isSpace c = isJsSpace c) :
    Panel.validateDnsServers (.inl value) = .ok servers ↔
      (∀ item ∈ typedServers value, (isIpv4 (lower item) || isIpv6 (lower item)) = true) ∧
        collect [] ((typedServers value).map lower) = servers ∧ servers.length ≤ 4 ∧
        servers ≠ [] := by
  have hpieces : value.splitOnP (isSeparator isJsSpace) = value.splitOnP (isSeparator isSpace) := by
    refine splitOnP_congr fun c hc => ?_
    unfold isSeparator
    rw [hspaces c hc]
  have htrim : ∀ item ∈ value.splitOnP (isSeparator isJsSpace), jsTrim item = item :=
    fun item hitem => trim_piece hitem
  have htyped : (value.splitOnP (isSeparator isJsSpace)).filter (· ≠ []) = typedServers value := by
    rw [hpieces]
    rfl
  have hrun : Panel.validateDnsServers (.inl value) =
      Panel.addServers [] (value.splitOnP (isSeparator isJsSpace)) >>= fun servers =>
        if servers = [] then .error (ascii "Enter at least one DNS server")
        else .ok servers := rfl
  have hloop : ∀ added : List Text,
      Panel.addServers [] (value.splitOnP (isSeparator isJsSpace)) = .ok added ↔
        (∀ item ∈ typedServers value, (isIpv4 (lower item) || isIpv6 (lower item)) = true) ∧
          collect [] ((typedServers value).map lower) = added ∧ added.length ≤ 4 := by
    intro added
    rw [← htyped]
    exact Panel.addServers_ok (by simp) htrim
  rw [hrun]
  constructor
  · intro h
    cases hadd : Panel.addServers [] (value.splitOnP (isSeparator isJsSpace)) with
    | error problem =>
        rw [hadd] at h
        cases h
    | ok added =>
        rw [hadd] at h
        have hok : (if added = [] then Except.error (ascii "Enter at least one DNS server")
          else .ok added) = .ok servers := h
        split_ifs at hok with hnil
        obtain rfl := Except.ok.inj hok
        obtain ⟨hread, hcollect, hle⟩ := (hloop added).mp hadd
        exact ⟨hread, hcollect, hle, hnil⟩
  · rintro ⟨hread, hcollect, hle, hnil⟩
    rw [(hloop servers).mpr ⟨hread, hcollect, hle⟩]
    exact if_neg hnil

theorem collect_ne_nil (texts : List Text) : collect [] texts ≠ [] ↔ texts ≠ [] := by
  rw [not_iff_not]
  constructor
  · intro h
    by_contra hne
    obtain ⟨text, rest, rfl⟩ := List.exists_cons_of_ne_nil hne
    have hmem : text ∈ collect [] (text :: rest) := mem_collect.mpr (Or.inr List.mem_cons_self)
    rw [h] at hmem
    cases hmem
  · rintro rfl
    rfl

/-- Without a scope, the spelling of a server does not change its address. -/
theorem canonical_lower {item : Text} (hscope : 37 ∉ item) :
    canonical (lower item) = canonical item := by
  unfold canonical
  rw [ipAddress_lower hscope, lower_lower]

theorem dedup_map_le (f : Text → Text) (texts : List Text) :
    (texts.map f).dedup.length ≤ texts.dedup.length := by
  have hsub : (texts.map f).dedup ⊆ texts.dedup.map f := by
    intro image himage
    obtain ⟨text, htext, rfl⟩ := List.mem_map.mp (List.mem_dedup.mp himage)
    exact List.mem_map_of_mem (List.mem_dedup.mpr htext)
  have hle := ((List.nodup_dedup (texts.map f)).subperm hsub).length_le
  rwa [List.length_map] at hle

/-- The panel takes the requests that the helper takes and that name no scope,
and both name the same addresses. -/
theorem validateDnsServers_agree {value : Text} (h : PlainRequest value) :
    ((∃ servers, Panel.validateDnsServers (.inl value) = .ok servers) ↔
      (∃ servers, validateDnsServers (.text value) = .ok servers) ∧
        ∀ server ∈ typedServers value, 37 ∉ server) ∧
    ∀ shown kept, Panel.validateDnsServers (.inl value) = .ok shown →
      validateDnsServers (.text value) = .ok kept →
      ∀ address, address ∈ shown.map canonical ↔ address ∈ kept := by
  have hliteral : (∀ item ∈ typedServers value,
      (Panel.isIpv4 (lower item) || Panel.isIpv6 (lower item)) = true) ↔
        (∀ item ∈ typedServers value, (ipAddress item).isSome = true) ∧
          ∀ item ∈ typedServers value, 37 ∉ item := by
    constructor
    · intro hall
      exact ⟨fun item hitem => ((Panel.literal_iff (h.heads item hitem)).mp (hall item hitem)).1,
        fun item hitem => ((Panel.literal_iff (h.heads item hitem)).mp (hall item hitem)).2⟩
    · rintro ⟨hread, hscope⟩ item hitem
      exact (Panel.literal_iff (h.heads item hitem)).mpr ⟨hread item hitem, hscope item hitem⟩
  have hpanel := fun servers => @Panel.validateDnsServers_ok value servers h.spaces
  have hhelper := @validateDnsServers_ok value
  have hlower : (∀ item ∈ typedServers value, 37 ∉ item) →
      ((typedServers value).map lower).map canonical = (typedServers value).map canonical := by
    intro hscope
    rw [List.map_map]
    exact List.map_congr_left fun item hitem => canonical_lower (hscope item hitem)
  have hnil : ∀ f : Text → Text, collect [] ((typedServers value).map f) ≠ [] ↔
      typedServers value ≠ [] := fun f =>
    (collect_ne_nil _).trans (not_congr List.map_eq_nil_iff)
  refine ⟨⟨?_, ?_⟩, ?_⟩
  · rintro ⟨shown, hshown⟩
    obtain ⟨htakes, rfl, hle, hsome⟩ := (hpanel shown).mp hshown
    obtain ⟨hread, hscope⟩ := hliteral.mp htakes
    rw [hnil] at hsome
    refine ⟨⟨_, hhelper.mpr ⟨hread, rfl, ?_, (hnil canonical).mpr hsome⟩⟩, hscope⟩
    rw [length_collect, ← hlower hscope]
    rw [length_collect] at hle
    exact (dedup_map_le canonical _).trans hle
  · rintro ⟨⟨kept, hkept⟩, hscope⟩
    obtain ⟨hread, rfl, hle, hsome⟩ := hhelper.mp hkept
    rw [hnil] at hsome
    refine ⟨_, (hpanel _).mpr ⟨hliteral.mpr ⟨hread, hscope⟩, rfl, ?_, (hnil lower).mpr hsome⟩⟩
    rw [length_collect] at hle ⊢
    by_contra hmany
    exact absurd (h.counts (by omega)) (by omega)
  · intro shown kept hshown hkept address
    obtain ⟨htakes, rfl, -, -⟩ := (hpanel shown).mp hshown
    obtain ⟨-, rfl, -, -⟩ := hhelper.mp hkept
    have hsame := hlower (hliteral.mp htakes).2
    rw [mem_collect, ← hsame, List.mem_map, List.mem_map]
    simp [mem_collect]

/-! ### Reported profiles -/

/-- The servers of a profile, of both families. -/
def DnsSettings.all (dns : DnsSettings) : List Text := dns.ipv4Dns ++ dns.ipv6Dns

/-- A profile as the helper reports it to the panel, whose servers are written
as the helper writes addresses, each of them once. -/
structure Reported (profile : Profile) : Prop where
  physical : profile.physical = true
  ipv4 : ∃ text, profile.dns.ipv4Dns = splitServers isSpace (strip text)
  ipv6 : ∃ text, profile.dns.ipv6Dns = splitServers isSpace (strip text)
  spelled : ∀ server ∈ profile.dns.all, canonical server = lower server
  once : (profile.dns.all.map lower).Nodup

theorem mem_splitServers {text server : Text} (h : server ∈ splitServers isSpace text) :
    server ≠ [] ∧ 44 ∉ server := by
  obtain ⟨hpiece, hnil⟩ := List.mem_filter.mp h
  refine ⟨by simpa using hnil, fun hcomma => ?_⟩
  have hsep := (mem_splitOnP hpiece 44 hcomma).2
  simp [isSeparator] at hsep

theorem Reported.servers {profile : Profile} (h : Reported profile) :
    ∀ server ∈ profile.dns.all, server ≠ [] ∧ 44 ∉ server := by
  obtain ⟨four, hfour⟩ := h.ipv4
  obtain ⟨six, hsix⟩ := h.ipv6
  intro server hserver
  rcases List.mem_append.mp hserver with hmem | hmem
  · exact mem_splitServers (hfour ▸ hmem)
  · exact mem_splitServers (hsix ▸ hmem)

theorem Reported.shown {profile : Profile} (h : Reported profile) :
    Panel.dnsValues profile.dns.ipv4Dns ++ Panel.dnsValues profile.dns.ipv6Dns =
      profile.dns.all.map lower := by
  unfold Panel.dnsValues
  rw [← List.filter_append, ← List.map_append]
  refine List.filter_eq_self.mpr ?_
  intro text htext
  obtain ⟨server, hserver, rfl⟩ := List.mem_map.mp htext
  exact decide_eq_true (mt lower_eq_nil_iff.mp (h.servers server hserver).1)

theorem Reported.normalized {profile : Profile} (h : Reported profile) :
    normalizedServers profile.dns.all = profile.dns.all.map lower := by
  have hcollect : normalizedServers profile.dns.all =
      collect [] (profile.dns.all.map canonical) := by
    unfold collect normalizedServers
    rw [List.foldl_map]
    rfl
  have hspelled : profile.dns.all.map canonical = profile.dns.all.map lower :=
    List.map_congr_left h.spelled
  rw [hcollect, hspelled, collect_of_nodup h.once]

/-! ### Sets of servers -/

theorem Panel.sorted_perm (values : List Text) : (sorted values).Perm values :=
  List.mergeSort_perm values _

theorem Panel.sameSet_iff {a b : List Text} : sameSet a b = true ↔ a.Perm b := by
  unfold sameSet
  rw [decide_eq_true_iff]
  constructor
  · intro h
    exact (sorted_perm a).symm.trans (h ▸ sorted_perm b)
  · intro h
    have hsorted : ∀ values : List Text, (sorted values).SortedLE := fun _ =>
      List.sortedLE_mergeSort
    exact ((sorted_perm a).trans (h.trans (sorted_perm b).symm)).eq_of_sortedLE (hsorted a)
      (hsorted b)

theorem sameMembers_iff {left right : List Text} :
    sameMembers left right = true ↔ ∀ text, text ∈ left ↔ text ∈ right := by
  unfold sameMembers
  simp only [Bool.and_eq_true, List.all_eq_true, decide_eq_true_eq]
  exact ⟨fun h text => ⟨h.1 text, h.2 text⟩, fun h => ⟨fun text => (h text).mp,
    fun text => (h text).mpr⟩⟩

/-- Without repetitions, the two comparisons are one. -/
theorem sameSet_eq_sameMembers {a b : List Text} (ha : a.Nodup) (hb : b.Nodup) :
    Panel.sameSet a b = sameMembers a b := by
  rw [Bool.eq_iff_iff, Panel.sameSet_iff, sameMembers_iff]
  exact List.perm_ext_iff_of_nodup ha hb

theorem providers_nodup : ∀ provider ∈ DNS_PROVIDERS, provider.2.Nodup := by
  decide

theorem Reported.state_eq {profile : Profile} (h : Reported profile) :
    Panel.profileDnsState profile.dns = profileDnsState profile.dns := by
  have hfind : (DNS_PROVIDERS.find? fun provider =>
      (profile.dns.ipv4IgnoreAutoDns && profile.dns.ipv6IgnoreAutoDns) &&
        Panel.sameSet (profile.dns.all.map lower) provider.2) =
      DNS_PROVIDERS.find? fun provider => profile.dns.ipv4IgnoreAutoDns &&
        profile.dns.ipv6IgnoreAutoDns && sameMembers (profile.dns.all.map lower) provider.2 := by
    refine List.find?_congr fun provider hprovider => ?_
    rw [sameSet_eq_sameMembers h.once (providers_nodup provider hprovider)]
  unfold Panel.profileDnsState profileDnsState
  rw [h.shown, show profile.dns.ipv4Dns ++ profile.dns.ipv6Dns = profile.dns.all from rfl,
    h.normalized]
  dsimp only
  generalize DNS_PROVIDERS.find? _ = shown at hfind ⊢
  subst hfind
  rfl

/-! ### Signatures -/

/-- A state as a profile gives it: a name of a provider and servers without a
comma, none of them empty. -/
structure Signed (state : DnsState) : Prop where
  provider : 58 ∉ state.provider
  servers : ∀ server ∈ state.servers, server ≠ [] ∧ 44 ∉ server

theorem providers_signed : ∀ provider ∈ DNS_PROVIDERS, 58 ∉ provider.1 ∧
    ∀ server ∈ provider.2, server ≠ [] ∧ 44 ∉ server := by
  decide

theorem Reported.signed {profile : Profile} (h : Reported profile) :
    Signed (profileDnsState profile.dns) := by
  have hservers : ∀ server ∈ profile.dns.all.map lower, server ≠ [] ∧ 44 ∉ server := by
    intro text htext
    obtain ⟨server, hserver, rfl⟩ := List.mem_map.mp htext
    obtain ⟨hnil, hcomma⟩ := h.servers server hserver
    exact ⟨mt lower_eq_nil_iff.mp hnil, mt (mem_lower_iff (by decide)).mp hcomma⟩
  unfold profileDnsState
  rw [show profile.dns.ipv4Dns ++ profile.dns.ipv6Dns = profile.dns.all from rfl, h.normalized]
  dsimp only
  split
  · exact ⟨by decide, by simp⟩
  · split
    · rename_i name servers hfound
      obtain ⟨hname, hlist⟩ := providers_signed _ (List.mem_of_find?_eq_some hfound)
      exact ⟨hname, hlist⟩
    · exact ⟨show 58 ∉ ascii "Custom" by decide, hservers⟩

theorem joined_inj {a b : List Text} (ha : ∀ text ∈ a, text ≠ [] ∧ 44 ∉ text)
    (hb : ∀ text ∈ b, text ≠ [] ∧ 44 ∉ text)
    (h : List.intercalate [44] a = List.intercalate [44] b) : a = b := by
  have hsplit : ∀ texts : List Text, (∀ text ∈ texts, text ≠ [] ∧ 44 ∉ text) → texts ≠ [] →
      (List.intercalate [44] texts).splitOn 44 = texts := fun texts htexts hnil =>
    List.splitOn_intercalate 44 (fun text htext => (htexts text htext).2) hnil
  have hempty : ∀ texts : List Text, (∀ text ∈ texts, text ≠ [] ∧ 44 ∉ text) →
      List.intercalate [44] texts = [] → texts = [] := by
    intro texts htexts hjoin
    by_contra hnil
    have hback := hsplit texts htexts hnil
    rw [hjoin, List.splitOn_nil] at hback
    exact (htexts [] (hback ▸ List.mem_singleton_self [])).1 rfl
  by_cases hnil : a = []
  · subst hnil
    exact (hempty b hb h.symm).symm
  · have hnil' : b ≠ [] := by
      rintro rfl
      exact hnil (hempty a ha h)
    rw [← hsplit a ha hnil, h, hsplit b hb hnil']

theorem cons_inj_of_notMem {mark : Nat} {a b x y : Text} (ha : mark ∉ a) (hb : mark ∉ b)
    (h : a ++ mark :: x = b ++ mark :: y) : a = b ∧ x = y := by
  induction a generalizing b with
  | nil =>
      cases b with
      | nil => exact ⟨rfl, List.tail_eq_of_cons_eq h⟩
      | cons d b =>
          injection h with hd _
          exact absurd (hd ▸ List.mem_cons_self) hb
  | cons c a ih =>
      cases b with
      | nil =>
          injection h with hc _
          exact absurd (hc ▸ List.mem_cons_self) ha
      | cons d b =>
          injection h with hc h
          obtain ⟨rfl, rfl⟩ := ih (fun hmem => ha (List.mem_cons_of_mem _ hmem))
            (fun hmem => hb (List.mem_cons_of_mem _ hmem)) h
          exact ⟨by rw [hc], rfl⟩

/-- The panel's signature of a state tells what the helper's tells. -/
theorem signature_eq_iff {first second : DnsState} (hfirst : Signed first)
    (hsecond : Signed second) :
    Panel.signature first = Panel.signature second ↔ first.sameSignature second = true := by
  have hmem : ∀ state : DnsState, Signed state → ∀ server ∈ Panel.sorted state.servers,
      server ≠ [] ∧ 44 ∉ server := fun state hstate server hserver =>
    hstate.servers server ((Panel.sorted_perm state.servers).mem_iff.mp hserver)
  unfold DnsState.sameSignature Panel.signature
  rw [decide_eq_true_iff, List.isPerm_iff, ← Panel.sameSet_iff]
  unfold Panel.sameSet
  rw [decide_eq_true_iff]
  constructor
  · intro h
    obtain ⟨hprovider, hjoined⟩ := cons_inj_of_notMem hfirst.provider hsecond.provider h
    exact ⟨hprovider, joined_inj (hmem first hfirst) (hmem second hsecond) hjoined⟩
  · rintro ⟨hprovider, hservers⟩
    rw [hprovider, hservers]

/-! ### The state of reported profiles -/

theorem Reported.target {profile : Profile} (h : Reported profile) :
    Panel.standalonePhysicalProfile profile = targetProfile profile := by
  have htype : Panel.physicalType profile ≠ [] := by
    have hphysical := h.physical
    unfold Profile.physical at hphysical
    unfold Panel.physicalType Panel.reportedType
    generalize profile.connectionType = kind at hphysical
    obtain ⟨known, hknown, hsame⟩ := List.lookup_isSome_iff.mp hphysical
    obtain rfl := eq_of_beq hsame
    revert known
    decide
  unfold Panel.standalonePhysicalProfile targetProfile Profile.standalone
  rw [h.physical, Bool.true_and, Bool.eq_iff_iff, decide_eq_true_iff]
  simp only [List.all_cons, List.all_nil, Bool.and_true, Bool.and_eq_true, decide_eq_true_eq]
  constructor
  · exact fun hall => hall.2.2.2
  · rintro ⟨hmaster, hslave, hcontroller, hport⟩
    exact ⟨htype, by simp [hmaster, hcontroller], by simp [hslave, hport], hmaster, hslave,
      hcontroller, hport⟩

/-- For the profiles that the helper reports, the panel shows the state that the
helper computes. -/
theorem dnsState_agree {profiles : List Profile} (h : ∀ profile ∈ profiles, Reported profile) :
    Panel.dnsState profiles = aggregateDnsState profiles := by
  have htargets : profiles.filter Panel.standalonePhysicalProfile =
      profiles.filter targetProfile :=
    List.filter_congr fun profile hprofile => (h profile hprofile).target
  have hreported : ∀ profile ∈ profiles.filter targetProfile, Reported profile :=
    fun profile hprofile => h profile (List.mem_of_mem_filter hprofile)
  unfold Panel.dnsState aggregateDnsState
  rw [htargets]
  generalize profiles.filter targetProfile = targets at hreported
  have hstates : (targets.map fun profile => Panel.profileDnsState profile.dns) =
      targets.map fun profile => profileDnsState profile.dns :=
    List.map_congr_left fun profile hprofile => (hreported profile hprofile).state_eq
  have hsigned : ∀ state ∈ targets.map fun profile => profileDnsState profile.dns,
      Signed state := by
    intro state hstate
    obtain ⟨profile, hprofile, rfl⟩ := List.mem_map.mp hstate
    exact (hreported profile hprofile).signed
  rw [hstates]
  generalize (targets.map fun profile => profileDnsState profile.dns) = states at hsigned
  cases states with
  | nil => rfl
  | cons first states =>
      obtain ⟨hfirst, hothers⟩ := List.forall_mem_cons.mp hsigned
      have hmixed : (states.any fun state => Panel.signature state ≠ Panel.signature first) =
          !states.all first.sameSignature := by
        have hsame : ∀ state ∈ states,
            (Panel.signature state = Panel.signature first ↔ first.sameSignature state = true) :=
          fun state hstate => eq_comm.trans (signature_eq_iff hfirst (hothers state hstate))
        rw [Bool.eq_iff_iff, Bool.not_eq_true', ← Bool.not_eq_true, List.all_eq_true,
          List.any_eq_true]
        simp only [decide_eq_true_eq, not_forall]
        constructor
        · rintro ⟨state, hstate, hne⟩
          exact ⟨state, hstate, mt (hsame state hstate).mpr hne⟩
        · rintro ⟨state, hstate, hne⟩
          exact ⟨state, hstate, mt (hsame state hstate).mp hne⟩
      dsimp only
      rw [hmixed]
      cases states.all first.sameSignature with
      | true => rfl
      | false => rfl

/-! ### The two sides -/

/-- The panel takes a request when the helper takes it and no server has a
scope, both name the same addresses, and both compute one state of the reported
profiles. -/
theorem dns_agrees {value : Text} {profiles : List Profile} (hvalue : PlainRequest value)
    (hprofiles : ∀ profile ∈ profiles, Reported profile) :
    (((∃ servers, Panel.validateDnsServers (.inl value) = .ok servers) ↔
        (∃ servers, validateDnsServers (.text value) = .ok servers) ∧
          ∀ server ∈ typedServers value, 37 ∉ server) ∧
      ∀ shown kept, Panel.validateDnsServers (.inl value) = .ok shown →
        validateDnsServers (.text value) = .ok kept →
        ∀ address, address ∈ shown.map canonical ↔ address ∈ kept) ∧
    Panel.dnsState profiles = aggregateDnsState profiles :=
  ⟨validateDnsServers_agree hvalue, dnsState_agree hprofiles⟩

theorem Panel.PlainHead.of_notMem {text : Text} (h : 46 ∉ text) : PlainHead text :=
  fun _ _ htext hdot => h (htext ▸ List.mem_append_left _ hdot)

/-- A server with a link's scope is taken by the helper only. -/
theorem scoped_server_disagrees :
    ¬ ((∃ servers, Panel.validateDnsServers (.inl (ascii "fe80::1%eth0")) = .ok servers) ↔
      ∃ servers, validateDnsServers (.text (ascii "fe80::1%eth0")) = .ok servers) := by
  have hpanel : Panel.validateDnsServers (.inl (ascii "fe80::1%eth0")) =
      .error (notLiteral (ascii "fe80::1%eth0")) := by
    decide +kernel
  have hhelper : validateDnsServers (.text (ascii "fe80::1%eth0")) =
      .ok [ascii "fe80::1%eth0"] := by
    decide +kernel
  intro h
  obtain ⟨servers, hservers⟩ := h.mpr ⟨_, hhelper⟩
  rw [hpanel] at hservers
  cases hservers

/-- A wired profile with two servers, as `nmcli` lists it. -/
def wiredProfile : Profile where
  name := ascii "Wired"
  uuid := ascii "0d7f"
  connectionType := ascii "802-3-ethernet"
  interface := ascii "enp1s0"
  master := []
  slaveType := []
  controller := []
  portType := []
  dns := ⟨splitServers isSpace (strip (ascii "9.9.9.9, 149.112.112.112")),
    splitServers isSpace (strip (ascii "2620:fe::fe")), true, true⟩
  band := []
  channel := 0
  properties := []

theorem dns_agrees_wired :
    (((∃ servers, Panel.validateDnsServers (.inl (ascii "2620:fe::fe FE80::1")) = .ok servers) ↔
        (∃ servers, validateDnsServers (.text (ascii "2620:fe::fe FE80::1")) = .ok servers) ∧
          ∀ server ∈ typedServers (ascii "2620:fe::fe FE80::1"), 37 ∉ server) ∧
      ∀ shown kept, Panel.validateDnsServers (.inl (ascii "2620:fe::fe FE80::1")) = .ok shown →
        validateDnsServers (.text (ascii "2620:fe::fe FE80::1")) = .ok kept →
        ∀ address, address ∈ shown.map canonical ↔ address ∈ kept) ∧
    Panel.dnsState [wiredProfile] = aggregateDnsState [wiredProfile] := by
  have hdots : ∀ server ∈ typedServers (ascii "2620:fe::fe FE80::1"), 46 ∉ server := by
    decide +kernel
  refine dns_agrees ⟨by decide, fun server hserver => .of_notMem (hdots server hserver), ?_⟩ ?_
  · decide +kernel
  · refine List.forall_mem_singleton.mpr ⟨by decide, ⟨_, rfl⟩, ⟨_, rfl⟩, ?_, ?_⟩
    · decide +kernel
    · decide +kernel

end Network

end CybexOS
