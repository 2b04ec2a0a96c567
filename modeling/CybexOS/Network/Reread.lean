/-
An address that was printed reads back as it was, with or without a scope, and
so the servers of a profile can be given to a request again.
-/
import CybexOS.Network.DnsAgree

namespace CybexOS

namespace Network

open Displays.Py (isSpace strip)

/-! ### Characters of a printed address -/

/-- A character of a printed address before its scope. -/
def isMark (c : ℕ) : Bool := isHex c || c == 46 || c == 58

theorem isSpace_of_isMark {c : ℕ} (h : isMark c = true) : isSpace c = false := by
  simp only [isMark, isHex, isDigit, Bool.or_eq_true, Bool.and_eq_true, decide_eq_true_eq,
    beq_iff_eq] at h
  rw [Bool.eq_false_iff]
  simp only [isSpace, ne_eq, Bool.or_eq_true, Bool.and_eq_true, decide_eq_true_eq, beq_iff_eq]
  omega

theorem isMark_of_mem_dotted {octets : List Nat} {c : ℕ} (h : c ∈ dotted octets) :
    isMark c = true := by
  rcases mem_intercalate h with hdot | ⟨piece, hpiece, hc⟩
  · rw [List.mem_singleton.mp hdot]
    rfl
  · obtain ⟨octet, -, rfl⟩ := List.mem_map.mp hpiece
    have hdigit := List.all_eq_true.mp (digitsOf_all_isDigit octet) c hc
    simp [isMark, isHex, hdigit]

theorem mem_compress {groups : List Nat} {piece : Text} (h : piece ∈ compress groups) :
    piece = [] ∨ ∃ group ∈ groups, piece = hexText group := by
  have hside : ∀ side : List Nat, piece ∈ sideTexts side →
      piece = [] ∨ ∃ group ∈ side, piece = hexText group := by
    intro side hmem
    unfold sideTexts at hmem
    split_ifs at hmem
    · exact Or.inl (List.mem_singleton.mp hmem)
    · obtain ⟨group, hgroup, rfl⟩ := List.mem_map.mp hmem
      exact Or.inr ⟨group, hgroup, rfl⟩
  unfold compress at h
  dsimp only at h
  split_ifs at h
  · rw [List.mem_append, List.mem_append, List.mem_singleton] at h
    rcases h with (h | h) | h
    · exact (hside _ h).imp id fun ⟨group, hgroup, heq⟩ =>
        ⟨group, List.mem_of_mem_take hgroup, heq⟩
    · exact Or.inl h
    · exact (hside _ h).imp id fun ⟨group, hgroup, heq⟩ =>
        ⟨group, List.mem_of_mem_drop hgroup, heq⟩
  · obtain ⟨group, hgroup, rfl⟩ := List.mem_map.mp h
    exact Or.inr ⟨group, hgroup, rfl⟩

theorem isMark_of_mem_groupsText {groups : List Nat} (hgroups : IsGroups groups) {c : ℕ}
    (h : c ∈ groupsText groups) : isMark c = true := by
  unfold groupsText at h
  cases hmapped : ipv4Mapped groups with
  | some octets =>
      rw [hmapped, List.mem_append] at h
      rcases h with h | h
      · revert c
        decide
      · exact isMark_of_mem_dotted h
  | none =>
      rw [hmapped] at h
      rcases mem_intercalate h with hcolon | ⟨piece, hpiece, hc⟩
      · rw [List.mem_singleton.mp hcolon]
        rfl
      · rcases mem_compress hpiece with rfl | ⟨group, hgroup, rfl⟩
        · cases hc
        · have hhex := List.all_eq_true.mp (hexText_spec (hgroups.2 group hgroup)).2.1 c hc
          simp [isMark, hhex]

/-! ### Scopes -/

/-- What a text that was read can be. -/
inductive ReadFrom (text : Text) : Address → Prop
  | v4 {octets : List Nat} (hvalid : (Address.v4 octets).Valid) : ReadFrom text (.v4 octets)
  | v6 {groups : List Nat} {scope : Text} (hgroups : IsGroups groups)
      (hscope : ∀ c ∈ scope, c ∈ text ∧ c ≠ 37 ∧ c ≠ 47) : ReadFrom text (.v6 groups scope)

theorem isGroups_of_parse {text : Text} {groups : List Nat} (h : parseGroups text = some groups) :
    IsGroups groups := by
  unfold parseGroups at h
  dsimp only at h
  split_ifs at h
  obtain ⟨parts, hparts, hassembled⟩ := Option.bind_eq_some_iff.mp h
  exact assemble_groups (partsOf_bounded hparts) hassembled

theorem readFrom {text : Text} {address : Address} (h : ipAddress text = some address) :
    ReadFrom text address := by
  unfold ipAddress at h
  cases hfour : parseV4 text with
  | some octets =>
      rw [hfour] at h
      obtain rfl := Option.some.inj h
      exact .v4 ⟨(parseV4_spec hfour).1, (parseV4_spec hfour).2.1⟩
  | none =>
      rw [hfour] at h
      dsimp only at h
      unfold parseV6 at h
      split_ifs at h with hslash
      obtain ⟨⟨before, scope⟩, hsplit, h⟩ := Option.bind_eq_some_iff.mp h
      obtain ⟨groups, hgroups, h⟩ := Option.bind_eq_some_iff.mp h
      obtain rfl := Option.some.inj h
      refine .v6 (isGroups_of_parse hgroups) fun c hc => ?_
      have hpiece : scope ∈ text.splitOn 37 := by
        unfold splitScope at hsplit
        rcases hpieces : text.splitOn 37 with _ | ⟨first, _ | ⟨second, _ | ⟨third, rest⟩⟩⟩
        · rw [hpieces] at hsplit
          cases hsplit
        · rw [hpieces] at hsplit
          obtain ⟨-, rfl⟩ := Prod.mk.inj (Option.some.inj hsplit)
          cases hc
        · rw [hpieces] at hsplit
          dsimp only at hsplit
          split_ifs at hsplit
          obtain ⟨-, rfl⟩ := Prod.mk.inj (Option.some.inj hsplit)
          simp
        · rw [hpieces] at hsplit
          cases hsplit
      rw [List.splitOn_eq_splitOnP] at hpiece
      obtain ⟨hmem, hmark⟩ := mem_splitOnP hpiece c hc
      refine ⟨hmem, by simpa using hmark, ?_⟩
      rintro rfl
      exact hslash hmem

/-- The text of an address that was read reads back as the address. -/
theorem ipAddress_reread {text : Text} {address : Address} (h : ipAddress text = some address) :
    ipAddress address.text = some address := by
  cases readFrom h with
  | v4 hvalid => exact ipAddress_text hvalid
  | @v6 groups scope hgroups hscope =>
      by_cases hempty : scope = []
      · exact ipAddress_text ⟨hgroups, hempty⟩
      · obtain ⟨hcolon, hmark, hslash⟩ := groupsText_clean hgroups
        have htext : (Address.v6 groups scope).text = groupsText groups ++ 37 :: scope :=
          congrArg (groupsText groups ++ ·) (if_neg hempty)
        have hscopeMark : 37 ∉ scope := fun hmem => (hscope 37 hmem).2.1 rfl
        have hpieces : (groupsText groups ++ 37 :: scope).splitOn 37 =
            [groupsText groups, scope] := by
          refine (List.splitOnP_append_cons (p := (· == 37)) _ _ (beq_self_eq_true 37)).trans ?_
          have hfirst := List.splitOn_eq_singleton hmark
          have hsecond := List.splitOn_eq_singleton hscopeMark
          exact (congrArg₂ (· ++ ·) hfirst hsecond : _ = [groupsText groups] ++ [scope])
        have hsplit : splitScope (groupsText groups ++ 37 :: scope) =
            some (groupsText groups, scope) := by
          unfold splitScope
          rw [hpieces]
          exact if_neg hempty
        have hslashes : 47 ∉ groupsText groups ++ 37 :: scope := by
          rw [List.mem_append, List.mem_cons]
          rintro (hmem | hmem | hmem)
          · exact hslash hmem
          · cases hmem
          · exact (hscope 47 hmem).2.2 rfl
        rw [htext, ipAddress, parseV4_eq_none (List.mem_append_left _ hcolon), parseV6,
          if_neg hslashes, hsplit]
        simp [parseGroups_groupsText hgroups]

/-! ### Servers in the form the helper keeps -/

/-- Letter case does not change whether a text can be read. -/
theorem ipAddress_lower_isSome (text : Text) :
    (ipAddress (lower text)).isSome = (ipAddress text).isSome := by
  unfold ipAddress
  rw [parseV4_lower]
  cases parseV4 text with
  | some octets => rfl
  | none =>
      dsimp only
      unfold parseV6 splitScope
      have hslash : 47 ∈ lower text ↔ 47 ∈ text := mem_lower_iff (by decide)
      rw [lower_splitOn (by decide)]
      simp only [hslash]
      split_ifs with hmem
      · rfl
      · rcases text.splitOn 37 with _ | ⟨first, _ | ⟨second, _ | ⟨third, rest⟩⟩⟩
        · rfl
        · simp [parseGroups_lower]
        · by_cases hscope : second = []
          · simp [hscope, lower]
          · cases hgroups : parseGroups first <;>
              simp [hscope, lower_eq_nil_iff, parseGroups_lower, hgroups]
        · rfl

theorem isSome_canonical (text : Text) :
    (ipAddress (canonical text)).isSome = (ipAddress text).isSome := by
  cases h : ipAddress text with
  | some address =>
      rw [canonical_of_read h, ipAddress_reread h]
  | none =>
      have hcanonical : canonical text = lower text := by
        unfold canonical
        rw [h]
        rfl
      rw [hcanonical, ipAddress_lower_isSome, h]

theorem canonical_canonical {text : Text} (h : (ipAddress text).isSome = true) :
    canonical (canonical text) = canonical text := by
  obtain ⟨address, haddress⟩ := Option.isSome_iff_exists.mp h
  rw [canonical_of_read haddress, canonical_of_read (ipAddress_reread haddress)]

/-- Without white space a server keeps none in the form it is kept in. -/
theorem strip_canonical {text : Text} (h : ∀ c ∈ text, isSpace c = false) :
    strip (canonical text) = canonical text := by
  have hclean : ∀ c ∈ canonical text, isSpace c = false := by
    intro c hc
    cases haddress : ipAddress text with
    | none =>
        have hlower : canonical text = lower text := by
          unfold canonical
          rw [haddress]
          rfl
        rw [hlower] at hc
        obtain ⟨unit, hunit, rfl⟩ := List.mem_map.mp hc
        by_cases hupper : isUpper unit = true
        · rw [if_pos hupper]
          simp only [isUpper, Bool.and_eq_true, decide_eq_true_eq] at hupper
          rw [Bool.eq_false_iff]
          simp only [isSpace, ne_eq, Bool.or_eq_true, Bool.and_eq_true, decide_eq_true_eq,
            beq_iff_eq]
          omega
        · rw [if_neg hupper]
          exact h unit hunit
    | some address =>
        rw [canonical_of_read haddress] at hc
        cases readFrom haddress with
        | v4 hvalid => exact isSpace_of_isMark (isMark_of_mem_dotted hc)
        | @v6 groups scope hgroups hscope =>
            rcases List.mem_append.mp hc with hc | hc
            · exact isSpace_of_isMark (isMark_of_mem_groupsText hgroups hc)
            · split_ifs at hc
              · cases hc
              · rcases List.mem_cons.mp hc with rfl | hc
                · rfl
                · exact h c (hscope c hc).1
  exact trimWith_eq_self (fun c hc => hclean c (List.mem_of_head? hc))
    fun c hc => hclean c (List.mem_of_getLast? hc)

end Network

end CybexOS
