/-
Literal IP addresses as Python's `ipaddress` reads and prints them: the text of
an address reads back as the address.
-/
import CybexOS.Decimal

namespace CybexOS

namespace Network

/-- An address by the numbers it is written with: four octets, or eight groups
of sixteen bits and a scope, empty when there is none. -/
inductive Address where
  | v4 (octets : List Nat)
  | v6 (groups : List Nat) (scope : Text)
deriving DecidableEq

/-! ### Reading -/

/-- `_parse_octet` -/
def parseOctet (octet : Text) : Option Nat :=
  if octet ≠ [] ∧ octet.all isDigit ∧ octet.length ≤ 3 ∧
      (octet = [48] ∨ octet.head? ≠ some 48) ∧ decimal octet ≤ 255 then some (decimal octet)
  else none

/-- `IPv4Address` -/
def parseV4 (text : Text) : Option (List Nat) :=
  let octets := text.splitOn 46
  if octets.length ≠ 4 then none else octets.mapM parseOctet

def isHex (c : Nat) : Bool := isDigit c || (65 ≤ c && c ≤ 70) || (97 ≤ c && c ≤ 102)

def hexUnit (c : Nat) : Nat :=
  if isDigit c then c - 48 else if c ≤ 70 then c - 55 else c - 87

/-- `int(text, 16)` -/
def hexValue (text : Text) : Nat := text.foldl (fun n c => 16 * n + hexUnit c) 0

/-- What stands between two colons. -/
inductive Part where
  | empty
  | group (value : Nat)
  | bad
deriving DecidableEq

/-- `_parse_hextet` -/
def partOf (text : Text) : Part :=
  if text = [] then .empty
  else if text.all isHex ∧ text.length ≤ 4 then .group (hexValue text)
  else .bad

/-- The parts between colons; a dotted tail counts for two. -/
def partsOf (pieces : List Text) : Option (List Part) :=
  let last := pieces.getLastD []
  if 46 ∈ last then
    match parseV4 last with
    | some [a, b, c, d] =>
        some (pieces.dropLast.map partOf ++ [.group (a * 256 + b), .group (c * 256 + d)])
    | _ => none
  else some (pieces.map partOf)

def Part.value? : Part → Option Nat
  | .group value => some value
  | _ => none

/-- One side of a `::`, which may touch the end of the text. -/
def sideOf (atEdge : Bool) (parts : List Part) : Option (List Nat) :=
  if atEdge then if parts.length = 1 then some [] else none else parts.mapM Part.value?

/-- The groups that the parts stand for. -/
def assemble (parts : List Part) : Option (List Nat) :=
  let interior := parts.tail.dropLast
  if parts.length < 3 ∨ 9 < parts.length then none
  -- more than one `::`
  else if 1 < interior.count .empty then none
  else
    match interior.findIdx? (· = .empty) with
    | none => if parts.length ≠ 8 then none else parts.mapM Part.value?
    | some index =>
        match sideOf (parts.head? = some .empty) (parts.take (index + 1)),
            sideOf (parts.getLast? = some .empty) (parts.drop (index + 2)) with
        | some hi, some lo =>
            if 8 ≤ hi.length + lo.length then none
            else some (hi ++ List.replicate (8 - (hi.length + lo.length)) 0 ++ lo)
        | _, _ => none

/-- `IPv6Address`, without the scope. -/
def parseGroups (text : Text) : Option (List Nat) :=
  let pieces := text.splitOn 58
  if pieces.length < 3 then none else (partsOf pieces).bind assemble

/-- `_split_scope_id` -/
def splitScope (text : Text) : Option (Text × Text) :=
  match text.splitOn 37 with
  | [address] => some (address, [])
  | [address, scope] => if scope = [] then none else some (address, scope)
  | _ => none

/-- `IPv6Address` -/
def parseV6 (text : Text) : Option Address :=
  if 47 ∈ text then none
  else do
    let (address, scope) ← splitScope text
    let groups ← parseGroups address
    pure (.v6 groups scope)

/-- `ip_address` -/
def ipAddress (text : Text) : Option Address :=
  match parseV4 text with
  | some octets => some (.v4 octets)
  | none => parseV6 text

/-! ### Printing -/

def dotted (octets : List Nat) : Text := List.intercalate [46] (octets.map digitsOf)

def hexDigit (n : Nat) : Nat := if n < 10 then n + 48 else n + 87

/-- `'%x'` of sixteen bits. -/
def hexText (n : Nat) : Text :=
  if n < 16 then [hexDigit n]
  else if n < 256 then [hexDigit (n / 16), hexDigit (n % 16)]
  else if n < 4096 then [hexDigit (n / 256), hexDigit (n / 16 % 16), hexDigit (n % 16)]
  else [hexDigit (n / 4096), hexDigit (n / 256 % 16), hexDigit (n / 16 % 16), hexDigit (n % 16)]

/-- The start and the length of the longest run of zeros, the first of its
length; `length` is how long the run is that reaches up to `index`. -/
def longestZeros (index length : Nat) (best : Nat × Nat) : List Nat → Nat × Nat
  | [] => best
  | group :: groups =>
      if group = 0 then
        longestZeros (index + 1) (length + 1)
          (if best.2 < length + 1 then (index - length, length + 1) else best) groups
      else longestZeros (index + 1) 0 best groups

/-- One side of a `::` in print. -/
def sideTexts (groups : List Nat) : List Text := if groups = [] then [[]] else groups.map hexText

/-- `_compress_hextets` -/
def compress (groups : List Nat) : List Text :=
  let best := longestZeros 0 0 (0, 0) groups
  if 1 < best.2 then
    sideTexts (groups.take best.1) ++ [[]] ++ sideTexts (groups.drop (best.1 + best.2))
  else groups.map hexText

/-- The octets of an address that is mapped from IPv4. -/
def ipv4Mapped : List Nat → Option (List Nat)
  | [0, 0, 0, 0, 0, 0xffff, high, low] => some [high / 256, high % 256, low / 256, low % 256]
  | _ => none

def groupsText (groups : List Nat) : Text :=
  match ipv4Mapped groups with
  | some octets => ascii "::ffff:" ++ dotted octets
  | none => List.intercalate [58] (compress groups)

/-- `str` -/
def Address.text : Address → Text
  | .v4 octets => dotted octets
  | .v6 groups scope => groupsText groups ++ (if scope = [] then [] else 37 :: scope)

/-! ### Pieces of a printed address -/

theorem digitsOf_octet : ∀ n < 256, parseOctet (digitsOf n) = some n ∧ 46 ∉ digitsOf n ∧
    58 ∉ digitsOf n ∧ 37 ∉ digitsOf n ∧ 47 ∉ digitsOf n := by
  decide +kernel

theorem hexDigit_spec : ∀ n < 16, isHex (hexDigit n) = true ∧ hexUnit (hexDigit n) = n := by
  decide

theorem isHex_ne : ∀ c ∈ [37, 46, 47, 58], isHex c = false := by
  decide

/-- Sixteen bits in print are up to four hexadecimal digits of them. -/
theorem hexText_spec {n : Nat} (hn : n < 65536) :
    hexText n ≠ [] ∧ (hexText n).all isHex = true ∧ (hexText n).length ≤ 4 ∧
      hexValue (hexText n) = n := by
  unfold hexText
  split_ifs with h1 h2 h3
  · simp [hexValue, hexDigit_spec n h1]
  · have hhigh := hexDigit_spec (n / 16) (by omega)
    have hlow := hexDigit_spec (n % 16) (by omega)
    simp only [hexValue, List.all_cons, List.all_nil, hhigh, hlow, List.foldl_cons,
      List.foldl_nil]
    simp
    omega
  · have hhigh := hexDigit_spec (n / 256) (by omega)
    have hmid := hexDigit_spec (n / 16 % 16) (by omega)
    have hlow := hexDigit_spec (n % 16) (by omega)
    simp only [hexValue, List.all_cons, List.all_nil, hhigh, hmid, hlow, List.foldl_cons,
      List.foldl_nil]
    simp
    omega
  · have htop := hexDigit_spec (n / 4096) (by omega)
    have hhigh := hexDigit_spec (n / 256 % 16) (by omega)
    have hmid := hexDigit_spec (n / 16 % 16) (by omega)
    have hlow := hexDigit_spec (n % 16) (by omega)
    simp only [hexValue, List.all_cons, List.all_nil, htop, hhigh, hmid, hlow, List.foldl_cons,
      List.foldl_nil]
    simp
    omega

theorem partOf_hexText {n : Nat} (hn : n < 65536) : partOf (hexText n) = .group n := by
  obtain ⟨hne, hall, hlength, hvalue⟩ := hexText_spec hn
  rw [partOf, if_neg hne, if_pos ⟨hall, hlength⟩, hvalue]

/-- A punctuation mark of addresses is no hexadecimal digit. -/
theorem not_mem_of_all_hex {text : Text} (h : text.all isHex = true) :
    ∀ c ∈ [37, 46, 47, 58], c ∉ text := by
  intro c hc hmem
  have hhex := List.all_eq_true.mp h c hmem
  rw [isHex_ne c hc] at hhex
  cases hhex

theorem parseV4_dotted {octets : List Nat} (hlength : octets.length = 4)
    (hbound : ∀ octet ∈ octets, octet < 256) : parseV4 (dotted octets) = some octets := by
  have hpieces : (dotted octets).splitOn 46 = octets.map digitsOf := by
    refine List.splitOn_intercalate 46 (fun piece hpiece => ?_) ?_
    · obtain ⟨octet, hoctet, rfl⟩ := List.mem_map.mp hpiece
      exact (digitsOf_octet octet (hbound octet hoctet)).2.1
    · rintro hnil
      rw [List.map_eq_nil_iff] at hnil
      rw [hnil] at hlength
      cases hlength
  unfold parseV4
  simp only [hpieces, List.length_map, hlength, ne_eq, not_true_eq_false, if_false]
  clear hpieces hlength
  induction octets with
  | nil => rfl
  | cons octet octets ih =>
      obtain ⟨hhead, htail⟩ := List.forall_mem_cons.mp hbound
      rw [List.map_cons, List.mapM_cons, (digitsOf_octet octet hhead).1, ih htail]
      rfl

/-! ### A gap between two sides -/

theorem mapM_value (groups : List Nat) :
    (groups.map Part.group).mapM Part.value? = some groups := by
  induction groups with
  | nil => rfl
  | cons group groups ih => rw [List.map_cons, List.mapM_cons, ih]; rfl

/-- Parts with one empty part inside are two sides of a `::`. -/
theorem assemble_gap {hi lo : List Part} (hhi : hi ≠ []) (hlo : lo ≠ [])
    (hinsideHi : .empty ∉ hi.tail) (hinsideLo : .empty ∉ lo.dropLast) :
    assemble (hi ++ .empty :: lo) =
      if 9 < hi.length + lo.length + 1 then none
      else
        match sideOf (hi.head? = some .empty) hi, sideOf (lo.getLast? = some .empty) lo with
        | some hi, some lo =>
            if 8 ≤ hi.length + lo.length then none
            else some (hi ++ List.replicate (8 - (hi.length + lo.length)) 0 ++ lo)
        | _, _ => none := by
  obtain ⟨first, others, rfl⟩ := List.exists_cons_of_ne_nil hhi
  rw [List.tail_cons] at hinsideHi
  have hlength : 1 ≤ lo.length := List.length_pos_iff.mpr hlo
  have hinterior : ((first :: others) ++ .empty :: lo).tail.dropLast =
      others ++ .empty :: lo.dropLast := by
    rw [List.cons_append, List.tail_cons, List.dropLast_append_of_ne_nil (by simp),
      List.dropLast_cons_of_ne_nil hlo]
  have hcount : (others ++ Part.empty :: lo.dropLast).count .empty = 1 := by
    rw [List.count_append, List.count_cons_self, List.count_eq_zero_of_not_mem hinsideHi,
      List.count_eq_zero_of_not_mem hinsideLo]
  have hindex : (others ++ Part.empty :: lo.dropLast).findIdx? (· = .empty) =
      some others.length := by
    rw [List.findIdx?_append, List.findIdx?_eq_none_iff.mpr]
    · simp [List.findIdx?_cons]
    · intro part hpart
      exact decide_eq_false fun hempty => hinsideHi (hempty ▸ hpart)
  have hlast : ((first :: others) ++ Part.empty :: lo).getLast? = lo.getLast? := by
    rw [List.getLast?_append_of_ne_nil _ (by simp), List.getLast?_cons_of_ne_nil hlo]
  unfold assemble
  dsimp only
  rw [hinterior, hcount, hindex, hlast]
  have hsize : ((first :: others) ++ Part.empty :: lo).length =
      (first :: others).length + lo.length + 1 := by
    simp
    omega
  have hnotShort : ¬ (first :: others).length + lo.length + 1 < 3 := by
    rw [List.length_cons]
    omega
  have htake : ((first :: others) ++ Part.empty :: lo).take (others.length + 1) =
      first :: others := by
    rw [← List.length_cons (a := first), List.take_left]
  have hdrop : ((first :: others) ++ Part.empty :: lo).drop (others.length + 2) = lo := by
    have hskip : others.length + 2 = ((first :: others) ++ [Part.empty]).length := by simp
    rw [hskip, ← List.singleton_append (l := lo), ← List.append_assoc, List.drop_left]
  rw [hsize]
  simp only [hnotShort, false_or, lt_irrefl, if_false]
  rw [htake, hdrop]
  rfl

/-- Parts without a gap are the eight groups. -/
theorem assemble_full {parts : List Part} (hinside : .empty ∉ parts.tail.dropLast) :
    assemble parts = if parts.length = 8 then parts.mapM Part.value? else none := by
  have hindex : parts.tail.dropLast.findIdx? (· = .empty) = none :=
    List.findIdx?_eq_none_iff.mpr fun part hpart =>
      decide_eq_false fun hempty => hinside (hempty ▸ hpart)
  unfold assemble
  dsimp only
  rw [List.count_eq_zero_of_not_mem hinside, hindex]
  by_cases hlength : parts.length = 8
  · simp [hlength]
  · simp [hlength]

/-- One side of a `::`, read back. -/
def sideParts (groups : List Nat) : List Part :=
  if groups = [] then [.empty] else groups.map .group

theorem sideParts_spec (groups : List Nat) :
    sideParts groups ≠ [] ∧ .empty ∉ (sideParts groups).tail ∧
      .empty ∉ (sideParts groups).dropLast ∧
      sideOf ((sideParts groups).head? = some .empty) (sideParts groups) = some groups ∧
      sideOf ((sideParts groups).getLast? = some .empty) (sideParts groups) = some groups ∧
      (sideParts groups).length = max 1 groups.length := by
  unfold sideParts
  split_ifs with hnil
  · subst hnil
    simp [sideOf]
  · have hempty : Part.empty ∉ groups.map Part.group := by simp
    have hlength : 1 ≤ groups.length := List.length_pos_iff.mpr hnil
    refine ⟨by simpa using hnil, fun h => hempty (List.mem_of_mem_tail h),
      fun h => hempty (List.mem_of_mem_dropLast h), ?_, ?_, by simp; omega⟩
    · rw [sideOf, if_neg (by simp), mapM_value]
    · rw [sideOf, if_neg (by simp), mapM_value]

theorem assemble_sides {hi lo : List Nat} (h : hi.length + lo.length ≤ 7) :
    assemble (sideParts hi ++ .empty :: sideParts lo) =
      some (hi ++ List.replicate (8 - (hi.length + lo.length)) 0 ++ lo) := by
  obtain ⟨hhi, hhiTail, -, hhiSide, -, hhiLength⟩ := sideParts_spec hi
  obtain ⟨hlo, -, hloInit, -, hloSide, hloLength⟩ := sideParts_spec lo
  rw [assemble_gap hhi hlo hhiTail hloInit, hhiSide, hloSide, if_neg (by omega)]
  exact if_neg (by omega)

/-! ### Printed groups -/

/-- The groups from `start` on are zeros. -/
def Zeros (groups : List Nat) (start length : Nat) : Prop :=
  start + length ≤ groups.length ∧ ∀ i < length, groups[start + i]? = some 0

theorem longestZeros_zeros {groups rest : List Nat} {index length : Nat} {best : Nat × Nat}
    (hrest : groups.drop index = rest) (hlength : length ≤ index) (hindex : index ≤ groups.length)
    (hrun : Zeros groups (index - length) length) (hbest : Zeros groups best.1 best.2) :
    Zeros groups (longestZeros index length best rest).1 (longestZeros index length best rest).2 := by
  induction rest generalizing index length best with
  | nil => exact hbest
  | cons group rest ih =>
      have hlt : index < groups.length := by
        have hsize := congrArg List.length hrest
        rw [List.length_drop, List.length_cons] at hsize
        omega
      have hgroup : groups[index]? = some group := by
        have hhead := congrArg List.head? hrest
        rwa [List.head?_drop] at hhead
      have htail : groups.drop (index + 1) = rest := by
        rw [← List.tail_drop, hrest, List.tail_cons]
      have hmore : group = 0 → Zeros groups (index + 1 - (length + 1)) (length + 1) := by
        intro hzero
        rw [Nat.add_sub_add_right]
        refine ⟨by omega, fun i hi => ?_⟩
        by_cases hlast : i = length
        · rw [hlast, Nat.sub_add_cancel hlength, hgroup, hzero]
        · exact hrun.2 i (by omega)
      rw [longestZeros]
      split_ifs with hzero hbetter
      · refine ih htail (by omega) hlt (hmore hzero) ?_
        rw [← Nat.add_sub_add_right index 1 length]
        exact hmore hzero
      · exact ih htail (by omega) hlt (hmore hzero) hbest
      · exact ih htail (Nat.zero_le _) hlt ⟨hlt, by simp⟩ hbest

theorem Zeros.split {groups : List Nat} {start length : Nat} (h : Zeros groups start length) :
    groups = groups.take start ++ List.replicate length 0 ++ groups.drop (start + length) := by
  have hmid : (groups.drop start).take length = List.replicate length 0 := by
    refine List.ext_getElem? fun i => ?_
    rw [List.getElem?_take, List.getElem?_drop, List.getElem?_replicate]
    split_ifs with hi
    · exact h.2 i hi
    · rfl
  rw [← hmid, List.append_assoc, ← List.drop_drop, List.take_append_drop, List.take_append_drop]

/-- Eight groups of sixteen bits. -/
def IsGroups (groups : List Nat) : Prop := groups.length = 8 ∧ ∀ group ∈ groups, group < 65536

theorem hexTexts_clean {groups : List Nat} (hbound : ∀ group ∈ groups, group < 65536) :
    ∀ piece ∈ sideTexts groups, ∀ c ∈ [37, 46, 47, 58], c ∉ piece := by
  intro piece hpiece
  unfold sideTexts at hpiece
  split_ifs at hpiece
  · rw [List.mem_singleton.mp hpiece]
    exact fun _ _ => List.not_mem_nil
  · obtain ⟨group, hgroup, rfl⟩ := List.mem_map.mp hpiece
    exact not_mem_of_all_hex (hexText_spec (hbound group hgroup)).2.1

theorem map_partOf_sideTexts {groups : List Nat} (hbound : ∀ group ∈ groups, group < 65536) :
    (sideTexts groups).map partOf = sideParts groups := by
  unfold sideTexts sideParts
  split_ifs with hnil
  · rfl
  · rw [List.map_map]
    exact List.map_congr_left fun group hgroup => partOf_hexText (hbound group hgroup)

/-- The pieces of printed groups have no punctuation and stand for the groups. -/
theorem compress_spec {groups : List Nat} (h : IsGroups groups) :
    (∀ piece ∈ compress groups, ∀ c ∈ [37, 46, 47, 58], c ∉ piece) ∧
      3 ≤ (compress groups).length ∧ assemble ((compress groups).map partOf) = some groups := by
  obtain ⟨hlength, hbound⟩ := h
  have hzeros : Zeros groups (longestZeros 0 0 (0, 0) groups).1
      (longestZeros 0 0 (0, 0) groups).2 := by
    refine longestZeros_zeros List.drop_zero le_rfl (Nat.zero_le _) ?_ ?_
    · exact ⟨Nat.zero_le _, by simp⟩
    · exact ⟨Nat.zero_le _, by simp⟩
  unfold compress
  dsimp only
  generalize longestZeros 0 0 (0, 0) groups = best at hzeros ⊢
  obtain ⟨start, length⟩ := best
  dsimp only at hzeros ⊢
  split_ifs with hlong
  · have hsplit := hzeros.split
    have hfits := hzeros.1
    have htake : ∀ group ∈ groups.take start, group < 65536 :=
      fun group hgroup => hbound group (List.mem_of_mem_take hgroup)
    have hdrop : ∀ group ∈ groups.drop (start + length), group < 65536 :=
      fun group hgroup => hbound group (List.mem_of_mem_drop hgroup)
    refine ⟨fun piece hpiece => ?_, ?_, ?_⟩
    · simp only [List.mem_append, List.mem_singleton] at hpiece
      rcases hpiece with (hpiece | rfl) | hpiece
      · exact hexTexts_clean htake piece hpiece
      · exact fun _ _ => List.not_mem_nil
      · exact hexTexts_clean hdrop piece hpiece
    · have hside : ∀ side : List Nat, 1 ≤ (sideTexts side).length := by
        intro side
        unfold sideTexts
        split_ifs with hnil
        · exact le_rfl
        · rw [List.length_map]
          exact List.length_pos_iff.mpr hnil
      have hhi := hside (groups.take start)
      have hlo := hside (groups.drop (start + length))
      simp only [List.length_append, List.length_singleton]
      omega
    · rw [List.map_append, List.map_append, map_partOf_sideTexts htake,
        map_partOf_sideTexts hdrop, List.append_assoc]
      have hsizes : (groups.take start).length + (groups.drop (start + length)).length =
          8 - length := by
        rw [List.length_take, List.length_drop]
        omega
      refine (assemble_sides (by omega)).trans ?_
      have hcount : 8 - ((groups.take start).length + (groups.drop (start + length)).length) =
          length := by
        omega
      rw [hcount, ← hsplit]
  · have hnil : groups ≠ [] := by
      rintro rfl
      cases hlength
    have htexts : sideTexts groups = groups.map hexText := if_neg hnil
    have hparts : sideParts groups = groups.map .group := if_neg hnil
    rw [← htexts]
    refine ⟨hexTexts_clean hbound, ?_, ?_⟩
    · rw [htexts, List.length_map]
      omega
    · rw [map_partOf_sideTexts hbound, hparts, assemble_full (by
        intro hmem
        have hempty := List.mem_of_mem_tail (List.mem_of_mem_dropLast hmem)
        simp at hempty)]
      rw [List.length_map, if_pos hlength, mapM_value]

theorem partsOf_clean {pieces : List Text} (h : ∀ piece ∈ pieces, 46 ∉ piece) :
    partsOf pieces = some (pieces.map partOf) := by
  refine if_neg fun hdot => ?_
  rw [List.getLastD_eq_getLast?] at hdot
  cases hlast : pieces.getLast? with
  | none => simp [hlast] at hdot
  | some piece =>
      rw [hlast] at hdot
      exact h piece (List.mem_of_getLast? hlast) hdot

theorem ipv4Mapped_eq {groups octets : List Nat} (h : ipv4Mapped groups = some octets) :
    ∃ high low, groups = [0, 0, 0, 0, 0, 0xffff, high, low] ∧
      octets = [high / 256, high % 256, low / 256, low % 256] := by
  unfold ipv4Mapped at h
  split at h
  · exact ⟨_, _, rfl, (Option.some.inj h).symm⟩
  · cases h

theorem mem_intercalate {sep : Text} {pieces : List Text} {c : Nat}
    (h : c ∈ List.intercalate sep pieces) : c ∈ sep ∨ ∃ piece ∈ pieces, c ∈ piece := by
  induction pieces with
  | nil => cases h
  | cons piece pieces ih =>
      cases pieces with
      | nil => exact Or.inr ⟨piece, List.mem_cons_self, by simpa [List.intercalate] using h⟩
      | cons next pieces =>
          have hsplit : c ∈ piece ∨ c ∈ sep ∨ c ∈ List.intercalate sep (next :: pieces) := by
            simpa [List.intercalate] using h
          rcases hsplit with hpiece | hsep | hrest
          · exact Or.inr ⟨piece, List.mem_cons_self, hpiece⟩
          · exact Or.inl hsep
          · exact (ih hrest).imp_right fun ⟨found, hfound, hc⟩ =>
              ⟨found, List.mem_cons_of_mem _ hfound, hc⟩

theorem dotted_clean {octets : List Nat} (hbound : ∀ octet ∈ octets, octet < 256) :
    ∀ c ∈ [37, 47, 58], c ∉ dotted octets := by
  intro c hc hmem
  rcases mem_intercalate hmem with hdot | ⟨piece, hpiece, hc'⟩
  · rw [List.mem_singleton.mp hdot] at hc
    revert hc
    decide
  · obtain ⟨octet, hoctet, rfl⟩ := List.mem_map.mp hpiece
    obtain ⟨-, -, hcolon, hscope, hslash⟩ := digitsOf_octet octet (hbound octet hoctet)
    simp only [List.mem_cons, List.not_mem_nil, or_false] at hc
    rcases hc with rfl | rfl | rfl
    · exact hscope hc'
    · exact hslash hc'
    · exact hcolon hc'

theorem dot_mem_dotted (a b c d : Nat) : 46 ∈ dotted [a, b, c, d] := by
  simp [dotted, List.intercalate]

theorem partsOf_dotted (pieces : List Text) {a b c d : Nat}
    (hbound : ∀ octet ∈ [a, b, c, d], octet < 256) :
    partsOf (pieces ++ [dotted [a, b, c, d]]) =
      some (pieces.map partOf ++ [.group (a * 256 + b), .group (c * 256 + d)]) := by
  unfold partsOf
  rw [List.getLastD_concat, List.dropLast_concat, if_pos (dot_mem_dotted a b c d),
    parseV4_dotted rfl hbound]

/-- Printed groups read back. -/
theorem parseGroups_groupsText {groups : List Nat} (h : IsGroups groups) :
    parseGroups (groupsText groups) = some groups := by
  unfold groupsText
  cases hmapped : ipv4Mapped groups with
  | some octets =>
      obtain ⟨high, low, rfl, rfl⟩ := ipv4Mapped_eq hmapped
      have hhigh : high < 65536 := h.2 high (by simp)
      have hlow : low < 65536 := h.2 low (by simp)
      have hbound : ∀ octet ∈ [high / 256, high % 256, low / 256, low % 256], octet < 256 := by
        simp
        omega
      have hcolon : 58 ∉ dotted [high / 256, high % 256, low / 256, low % 256] :=
        dotted_clean hbound 58 (by simp)
      have hpieces : (ascii "::ffff:" ++ dotted [high / 256, high % 256, low / 256,
          low % 256]).splitOn 58 = [[], [], ascii "ffff",
            dotted [high / 256, high % 256, low / 256, low % 256]] := by
        have hfront : ascii "::ffff:" = [] ++ 58 :: ([] ++ 58 :: (ascii "ffff" ++ [58])) := by
          decide
        rw [hfront]
        simp only [List.append_assoc, List.cons_append, List.nil_append]
        rw [← List.nil_append (58 :: 58 :: _), List.splitOn_append_cons_self,
          ← List.nil_append (58 :: (ascii "ffff" ++ _)), List.splitOn_append_cons_self,
          List.splitOn_append_cons_self, List.splitOn_eq_singleton hcolon]
        rfl
      have hparts : partsOf [[], [], ascii "ffff",
          dotted [high / 256, high % 256, low / 256, low % 256]] =
            some (sideParts [] ++ .empty :: sideParts [0xffff, high, low]) := by
        have hffff : [[], [], ascii "ffff"].map partOf = [.empty, .empty, .group 0xffff] := by
          decide
        have htail := partsOf_dotted [[], [], ascii "ffff"] hbound
        rw [hffff, show high / 256 * 256 + high % 256 = high by omega,
          show low / 256 * 256 + low % 256 = low by omega] at htail
        exact htail
      unfold parseGroups
      simp only [hpieces, hparts, Option.bind_some]
      rw [assemble_sides (by simp)]
      rfl
  | none =>
      obtain ⟨hclean, hlength, hgroups⟩ := compress_spec h
      have hpieces : (List.intercalate [58] (compress groups)).splitOn 58 = compress groups := by
        refine List.splitOn_intercalate 58 (fun piece hpiece => hclean piece hpiece 58 (by simp)) ?_
        exact List.ne_nil_of_length_pos (by omega)
      have hdots : ∀ piece ∈ compress groups, 46 ∉ piece :=
        fun piece hpiece => hclean piece hpiece 46 (by simp)
      unfold parseGroups
      simp only [hpieces, partsOf_clean hdots, Option.bind_some, hgroups]
      exact if_neg (by omega)

/-! ### Addresses read back -/

/-- An address without a scope, in its bounds. -/
def Address.Valid : Address → Prop
  | .v4 octets => octets.length = 4 ∧ ∀ octet ∈ octets, octet < 256
  | .v6 groups scope => IsGroups groups ∧ scope = []

theorem mapM_spec {α β : Type} {f : α → Option β} {items : List α} {results : List β}
    (h : items.mapM f = some results) :
    results.length = items.length ∧ (∀ result ∈ results, ∃ item ∈ items, f item = some result) ∧
      ∀ item ∈ items, (f item).isSome = true := by
  induction items generalizing results with
  | nil =>
      rw [List.mapM_nil] at h
      rw [← Option.some.inj h]
      simp
  | cons item items ih =>
      rw [List.mapM_cons] at h
      obtain ⟨first, hfirst, h⟩ := Option.bind_eq_some_iff.mp h
      obtain ⟨others, hothers, h⟩ := Option.bind_eq_some_iff.mp h
      obtain ⟨hlength, hback, hall⟩ := ih hothers
      rw [← Option.some.inj h]
      refine ⟨by simp [hlength], List.forall_mem_cons.mpr ⟨⟨item, List.mem_cons_self, hfirst⟩, ?_⟩,
        List.forall_mem_cons.mpr ⟨by simp [hfirst], hall⟩⟩
      intro result hresult
      obtain ⟨found, hfound, hsame⟩ := hback result hresult
      exact ⟨found, List.mem_cons_of_mem _ hfound, hsame⟩

theorem parseOctet_spec {octet : Text} {value : Nat} (h : parseOctet octet = some value) :
    octet.all isDigit = true ∧ value < 256 := by
  unfold parseOctet at h
  split_ifs at h with hvalid
  rw [← Option.some.inj h]
  exact ⟨hvalid.2.1, Nat.lt_succ_of_le hvalid.2.2.2.2⟩

theorem parseV4_spec {text : Text} {octets : List Nat} (h : parseV4 text = some octets) :
    octets.length = 4 ∧ (∀ octet ∈ octets, octet < 256) ∧
      ∀ c ∈ text, c = 46 ∨ isDigit c = true := by
  unfold parseV4 at h
  dsimp only at h
  split_ifs at h with hlength
  obtain ⟨hsame, hback, hall⟩ := mapM_spec h
  refine ⟨hsame.trans (not_not.mp hlength), fun octet hoctet => ?_, fun c hc => ?_⟩
  · obtain ⟨piece, -, hpiece⟩ := hback octet hoctet
    exact (parseOctet_spec hpiece).2
  · have hjoin : List.intercalate [46] (text.splitOn 46) = text := List.intercalate_splitOn 46
    rw [← hjoin] at hc
    rcases mem_intercalate hc with hdot | ⟨piece, hpiece, hc⟩
    · exact Or.inl (List.mem_singleton.mp hdot)
    · obtain ⟨value, hvalue⟩ := Option.isSome_iff_exists.mp (hall piece hpiece)
      exact Or.inr (List.all_eq_true.mp (parseOctet_spec hvalue).1 c hc)

theorem parseV4_eq_none {text : Text} (h : 58 ∈ text) : parseV4 text = none := by
  cases hparsed : parseV4 text with
  | none => rfl
  | some octets =>
      exact absurd ((parseV4_spec hparsed).2.2 58 h) (by decide)

theorem compress_colon {groups : List Nat} (h : IsGroups groups) :
    58 ∈ List.intercalate [58] (compress groups) := by
  by_contra hnot
  have hsingle := List.splitOn_eq_singleton hnot
  obtain ⟨hclean, hlength, -⟩ := compress_spec h
  rw [List.splitOn_intercalate 58 (fun piece hpiece => hclean piece hpiece 58 (by simp))
    (List.ne_nil_of_length_pos (by omega))] at hsingle
  rw [hsingle, List.length_singleton] at hlength
  omega

/-- Printed groups have a colon, and no mark that would end the address. -/
theorem groupsText_clean {groups : List Nat} (h : IsGroups groups) :
    58 ∈ groupsText groups ∧ 37 ∉ groupsText groups ∧ 47 ∉ groupsText groups := by
  unfold groupsText
  cases hmapped : ipv4Mapped groups with
  | some octets =>
      obtain ⟨high, low, rfl, rfl⟩ := ipv4Mapped_eq hmapped
      have hhigh : high < 65536 := h.2 high (by simp)
      have hlow : low < 65536 := h.2 low (by simp)
      have hbound : ∀ octet ∈ [high / 256, high % 256, low / 256, low % 256], octet < 256 := by
        simp
        omega
      have hclean := dotted_clean hbound
      refine ⟨List.mem_append_left _ (by decide), ?_, ?_⟩
      · rw [List.mem_append]
        exact not_or.mpr ⟨by decide, hclean 37 (by simp)⟩
      · rw [List.mem_append]
        exact not_or.mpr ⟨by decide, hclean 47 (by simp)⟩
  | none =>
      obtain ⟨hclean, -, -⟩ := compress_spec h
      refine ⟨compress_colon h, fun hmem => ?_, fun hmem => ?_⟩
      · rcases mem_intercalate hmem with hsep | ⟨piece, hpiece, hc⟩
        · exact absurd hsep (by decide)
        · exact hclean piece hpiece 37 (by simp) hc
      · rcases mem_intercalate hmem with hsep | ⟨piece, hpiece, hc⟩
        · exact absurd hsep (by decide)
        · exact hclean piece hpiece 47 (by simp) hc

/-- The text of an address reads back as the address. -/
theorem ipAddress_text {address : Address} (h : address.Valid) :
    ipAddress address.text = some address := by
  cases address with
  | v4 octets =>
      unfold ipAddress Address.text
      rw [parseV4_dotted h.1 h.2]
  | v6 groups scope =>
      obtain ⟨hgroups, rfl⟩ := h
      obtain ⟨hcolon, hscope, hslash⟩ := groupsText_clean hgroups
      have htext : (Address.v6 groups []).text = groupsText groups := List.append_nil _
      have hsplit : splitScope (groupsText groups) = some (groupsText groups, []) := by
        unfold splitScope
        rw [List.splitOn_eq_singleton hscope]
      rw [htext, ipAddress, parseV4_eq_none hcolon, parseV6, if_neg hslash, hsplit]
      simp [parseGroups_groupsText hgroups]

/-! ### Addresses that were read -/

theorem hexUnit_lt {c : Nat} (h : isHex c = true) : hexUnit c < 16 := by
  simp only [isHex, isDigit, Bool.or_eq_true, Bool.and_eq_true, decide_eq_true_eq] at h
  unfold hexUnit isDigit
  simp only [Bool.and_eq_true, decide_eq_true_eq]
  split_ifs <;> omega

theorem hexValue_lt {text : Text} (h : text.all isHex = true) :
    hexValue text < 16 ^ text.length := by
  induction text using List.reverseRecOn with
  | nil => simp [hexValue]
  | append_singleton text c ih =>
      rw [List.all_append, Bool.and_eq_true] at h
      have hinit := ih h.1
      have hlast := hexUnit_lt (c := c) (by simpa using h.2)
      have hvalue : hexValue (text ++ [c]) = 16 * hexValue text + hexUnit c := by
        simp [hexValue]
      rw [hvalue, List.length_append, List.length_singleton, pow_succ]
      omega

/-- A part within its bounds. -/
def Part.Bounded (part : Part) : Prop := ∀ value, part = .group value → value < 65536

theorem partOf_bounded (text : Text) : (partOf text).Bounded := by
  intro value hvalue
  unfold partOf at hvalue
  split_ifs at hvalue with hnil hhex
  rw [← Part.group.inj hvalue]
  calc hexValue text < 16 ^ text.length := hexValue_lt hhex.1
    _ ≤ 16 ^ 4 := Nat.pow_le_pow_right (by decide) hhex.2

theorem partsOf_bounded {pieces : List Text} {parts : List Part} (h : partsOf pieces = some parts) :
    ∀ part ∈ parts, part.Bounded := by
  have hmap : ∀ texts : List Text, ∀ part ∈ texts.map partOf, part.Bounded := by
    intro texts part hpart
    obtain ⟨text, -, rfl⟩ := List.mem_map.mp hpart
    exact partOf_bounded text
  unfold partsOf at h
  dsimp only at h
  split at h
  · split at h
    · rename_i a b c d hparsed
      obtain ⟨-, hbound, -⟩ := parseV4_spec hparsed
      have ha := hbound a (by simp)
      have hb := hbound b (by simp)
      have hc := hbound c (by simp)
      have hd := hbound d (by simp)
      rw [← Option.some.inj h]
      intro part hpart
      rcases List.mem_append.mp hpart with hold | hnew
      · exact hmap _ part hold
      · simp only [List.mem_cons, List.not_mem_nil, or_false] at hnew
        rcases hnew with rfl | rfl
        · intro value hvalue
          rw [← Part.group.inj hvalue]
          omega
        · intro value hvalue
          rw [← Part.group.inj hvalue]
          omega
    · cases h
  · rw [← Option.some.inj h]
    exact hmap pieces

theorem values_bounded {parts : List Part} (hbound : ∀ part ∈ parts, part.Bounded)
    {groups : List Nat} (h : parts.mapM Part.value? = some groups) :
    ∀ group ∈ groups, group < 65536 := by
  intro group hgroup
  obtain ⟨part, hpart, hvalue⟩ := (mapM_spec h).2.1 group hgroup
  refine hbound part hpart group ?_
  cases part with
  | group value => rw [Option.some.inj hvalue]
  | empty => cases hvalue
  | bad => cases hvalue

theorem sideOf_bounded {parts : List Part} (hbound : ∀ part ∈ parts, part.Bounded)
    {atEdge : Bool} {groups : List Nat} (h : sideOf atEdge parts = some groups) :
    ∀ group ∈ groups, group < 65536 := by
  unfold sideOf at h
  split_ifs at h
  · rw [← Option.some.inj h]
    simp
  · exact values_bounded hbound h

theorem assemble_groups {parts : List Part} (hbound : ∀ part ∈ parts, part.Bounded)
    {groups : List Nat} (h : assemble parts = some groups) : IsGroups groups := by
  unfold assemble at h
  dsimp only at h
  split at h
  · cases h
  split at h
  · cases h
  split at h
  · split_ifs at h with hlength
    exact ⟨(mapM_spec h).1.trans (not_not.mp hlength), values_bounded hbound h⟩
  · split at h
    · rename_i hi lo hhi hlo
      split_ifs at h with hsize
      rw [← Option.some.inj h]
      refine ⟨by simp; omega, fun group hgroup => ?_⟩
      rcases List.mem_append.mp hgroup with hgroup | hgroup
      · rcases List.mem_append.mp hgroup with hgroup | hgroup
        · exact sideOf_bounded (fun part hpart => hbound part (List.mem_of_mem_take hpart)) hhi
            group hgroup
        · rw [(List.mem_replicate.mp hgroup).2]
          decide
      · exact sideOf_bounded (fun part hpart => hbound part (List.mem_of_mem_drop hpart)) hlo
          group hgroup
    · cases h

/-- What is read from a text without a scope is a valid address. -/
theorem ipAddress_valid {text : Text} {address : Address} (h : ipAddress text = some address)
    (hscope : 37 ∉ text) : address.Valid := by
  unfold ipAddress at h
  cases hfour : parseV4 text with
  | some octets =>
      rw [hfour] at h
      rw [← Option.some.inj h]
      exact ⟨(parseV4_spec hfour).1, (parseV4_spec hfour).2.1⟩
  | none =>
      rw [hfour] at h
      dsimp only at h
      unfold parseV6 splitScope at h
      rw [List.splitOn_eq_singleton hscope] at h
      split_ifs at h
      obtain ⟨pair, hpair, h⟩ := Option.bind_eq_some_iff.mp h
      obtain rfl := Option.some.inj hpair
      obtain ⟨groups, hgroups, h⟩ := Option.bind_eq_some_iff.mp h
      rw [← Option.some.inj h]
      refine ⟨?_, rfl⟩
      unfold parseGroups at hgroups
      dsimp only at hgroups
      split_ifs at hgroups
      obtain ⟨parts, hparts, hassembled⟩ := Option.bind_eq_some_iff.mp hgroups
      exact assemble_groups (partsOf_bounded hparts) hassembled

end Network

end CybexOS
