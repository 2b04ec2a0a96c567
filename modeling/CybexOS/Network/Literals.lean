/-
Literal addresses on both sides: the panel's recogniser takes the texts that
Python's `ipaddress` reads, apart from a scope and a dotted piece before `::`.
-/
import CybexOS.Network.Panel

namespace CybexOS

namespace Network

/-! ### Pieces -/

/-- The pieces of a text are of its characters, without separators. -/
theorem mem_splitOnP {p : Nat → Bool} {text piece : Text} (h : piece ∈ text.splitOnP p) :
    ∀ c ∈ piece, c ∈ text ∧ p c = false := by
  induction text generalizing piece with
  | nil =>
      rw [List.splitOnP_nil, List.mem_singleton] at h
      rw [h]
      exact fun _ hc => absurd hc List.not_mem_nil
  | cons head text ih =>
      have hgrow : ∀ piece ∈ text.splitOnP p, ∀ c ∈ piece, c ∈ head :: text ∧ p c = false :=
        fun piece hpiece c hc => ⟨List.mem_cons_of_mem _ (ih hpiece c hc).1, (ih hpiece c hc).2⟩
      rw [List.splitOnP_cons_eq_if_modifyHead] at h
      split_ifs at h with hsep
      · rcases List.mem_cons.mp h with rfl | h
        · exact fun _ hc => absurd hc List.not_mem_nil
        · exact hgrow piece h
      · obtain ⟨first, others, hsplit⟩ := List.exists_cons_of_ne_nil (List.splitOnP_ne_nil p text)
        rw [hsplit, List.modifyHead_cons] at h
        rw [hsplit] at hgrow
        rcases List.mem_cons.mp h with rfl | h
        · refine List.forall_mem_cons.mpr ⟨⟨List.mem_cons_self, Bool.eq_false_iff.mpr hsep⟩, ?_⟩
          exact hgrow first List.mem_cons_self
        · exact hgrow piece (List.mem_cons_of_mem _ h)

theorem mem_splitOn {text piece : Text} {mark : Nat} (h : piece ∈ text.splitOn mark) :
    ∀ c ∈ piece, c ∈ text := by
  rw [List.splitOn_eq_splitOnP] at h
  exact fun c hc => (mem_splitOnP h c hc).1

/-! ### Lower case -/

theorem lower_eq_self {text : Text} (h : ∀ c ∈ text, isUpper c = false) : lower text = text := by
  unfold lower
  conv_rhs => rw [← List.map_id text]
  refine List.map_congr_left fun c hc => ?_
  rw [h c hc]
  rfl

theorem mem_lower_iff {text : Text} {mark : Nat} (hmark : mark < 65) :
    mark ∈ lower text ↔ mark ∈ text := by
  unfold lower
  rw [List.mem_map]
  constructor
  · rintro ⟨c, hc, hlow⟩
    unfold isUpper at hlow
    simp only [Bool.and_eq_true, decide_eq_true_eq] at hlow
    split_ifs at hlow
    · omega
    · exact hlow ▸ hc
  · intro hc
    refine ⟨mark, hc, if_neg ?_⟩
    simp only [isUpper, Bool.and_eq_true, decide_eq_true_eq]
    omega

theorem lower_append (a b : Text) : lower (a ++ b) = lower a ++ lower b := List.map_append

theorem lower_cons_mark {mark : Nat} (hmark : mark < 65) (text : Text) :
    lower (mark :: text) = mark :: lower text := by
  have hnot : isUpper mark = false := by
    simp only [isUpper, Bool.and_eq_false_iff, decide_eq_false_iff_not]
    omega
  unfold lower
  rw [List.map_cons, hnot]
  rfl

theorem lower_lower (text : Text) : lower (lower text) = lower text := by
  refine lower_eq_self fun c hc => ?_
  obtain ⟨d, -, rfl⟩ := List.mem_map.mp hc
  unfold isUpper
  simp only [Bool.and_eq_true, decide_eq_true_eq, Bool.and_eq_false_iff, decide_eq_false_iff_not]
  split_ifs <;> omega

theorem lower_splitOn {mark : Nat} (hmark : mark < 65) (text : Text) :
    (lower text).splitOn mark = (text.splitOn mark).map lower := by
  induction hn : text.length using Nat.strong_induction_on generalizing text with
  | _ n ih =>
      by_cases hmem : mark ∈ text
      · obtain ⟨first, rest, rfl, hfirst⟩ := List.eq_append_cons_of_mem hmem
        rw [lower_append, lower_cons_mark hmark, List.splitOn_append_cons_self,
          List.splitOn_append_cons_self, List.map_append,
          List.splitOn_eq_singleton (fun h => hfirst ((mem_lower_iff hmark).mp h)),
          List.splitOn_eq_singleton hfirst,
          ih rest.length (by rw [← hn]; simp; omega) rest rfl]
        rfl
      · rw [List.splitOn_eq_singleton hmem,
          List.splitOn_eq_singleton (fun h => hmem ((mem_lower_iff hmark).mp h))]
        rfl

theorem lower_digits {text : Text} (h : text.all isDigit = true) : lower text = text := by
  refine lower_eq_self fun c hc => ?_
  have hdigit := List.all_eq_true.mp h c hc
  simp only [isDigit, Bool.and_eq_true, decide_eq_true_eq] at hdigit
  simp only [isUpper, Bool.and_eq_false_iff, decide_eq_false_iff_not]
  omega

theorem all_lower {p : Nat → Bool} (h : ∀ c, isUpper c = true → p (c + 32) = p c) (text : Text) :
    (lower text).all p = text.all p := by
  unfold lower
  rw [List.all_map]
  congr 1
  funext c
  simp only [Function.comp_apply]
  split_ifs with hupper
  · exact h c hupper
  · rfl

theorem isDigit_lower (text : Text) : (lower text).all isDigit = text.all isDigit := by
  refine all_lower (fun c hc => ?_) text
  simp only [isUpper, Bool.and_eq_true, decide_eq_true_eq] at hc
  unfold isDigit
  rw [Bool.eq_iff_iff]
  simp only [Bool.and_eq_true, decide_eq_true_eq]
  omega

theorem parseOctet_lower (text : Text) : parseOctet (lower text) = parseOctet text := by
  by_cases hdigits : text.all isDigit = true
  · rw [lower_digits hdigits]
  · unfold parseOctet
    rw [isDigit_lower, if_neg (fun h => hdigits h.2.1), if_neg (fun h => hdigits h.2.1)]

theorem parseV4_lower (text : Text) : parseV4 (lower text) = parseV4 text := by
  unfold parseV4
  rw [lower_splitOn (by decide)]
  dsimp only
  rw [List.length_map, List.mapM_map]
  congr 2
  funext piece
  exact parseOctet_lower piece

theorem isHex_lower (text : Text) (h : text.all isHex = true) : (lower text).all isHex = true := by
  rw [List.all_eq_true] at h ⊢
  unfold lower
  intro c hc
  obtain ⟨c, hmem, rfl⟩ := List.mem_map.mp hc
  have hhex := h c hmem
  split_ifs with hupper
  · simp only [isHex, isDigit, isUpper, Bool.or_eq_true, Bool.and_eq_true,
      decide_eq_true_eq] at hhex hupper ⊢
    omega
  · exact hhex

theorem hexUnit_lower {c : Nat} (h : isHex c = true) :
    hexUnit (if isUpper c then c + 32 else c) = hexUnit c := by
  simp only [isHex, isDigit, Bool.or_eq_true, Bool.and_eq_true, decide_eq_true_eq] at h
  split_ifs with hupper
  · simp only [isUpper, Bool.and_eq_true, decide_eq_true_eq] at hupper
    unfold hexUnit isDigit
    simp only [Bool.and_eq_true, decide_eq_true_eq]
    split_ifs <;> omega
  · rfl

theorem hexValue_lower {text : Text} (h : text.all isHex = true) :
    hexValue (lower text) = hexValue text := by
  unfold hexValue lower
  rw [List.foldl_map]
  refine List.foldl_ext _ _ _ fun n c hc => ?_
  rw [hexUnit_lower (List.all_eq_true.mp h c hc)]

theorem lower_eq_nil_iff {text : Text} : lower text = [] ↔ text = [] := List.map_eq_nil_iff

theorem length_lower (text : Text) : (lower text).length = text.length := List.length_map _

/-- An upper-case letter that is no hexadecimal digit has no such lower case. -/
theorem isHex_of_lower {text : Text} (h : (lower text).all isHex = true) :
    text.all isHex = true := by
  rw [List.all_eq_true] at h ⊢
  intro c hc
  have hlow := h _ (List.mem_map_of_mem hc)
  split_ifs at hlow with hupper
  · simp only [isHex, isDigit, isUpper, Bool.or_eq_true, Bool.and_eq_true,
      decide_eq_true_eq] at hlow hupper ⊢
    omega
  · exact hlow

theorem partOf_lower (text : Text) : partOf (lower text) = partOf text := by
  unfold partOf
  rw [length_lower]
  by_cases hnil : text = []
  · rw [if_pos hnil, if_pos (lower_eq_nil_iff.mpr hnil)]
  · rw [if_neg hnil, if_neg (mt lower_eq_nil_iff.mp hnil)]
    by_cases hhex : text.all isHex = true
    · simp only [hhex, isHex_lower text hhex, true_and, hexValue_lower hhex]
    · rw [if_neg (fun h => hhex (isHex_of_lower h.1)), if_neg (fun h => hhex h.1)]

theorem partsOf_lower (pieces : List Text) : partsOf (pieces.map lower) = partsOf pieces := by
  have hlast : (pieces.map lower).getLastD [] = lower (pieces.getLastD []) := by
    rw [List.getLastD_eq_getLast?, List.getLastD_eq_getLast?, List.getLast?_map]
    cases pieces.getLast? with
    | none => rfl
    | some piece => rfl
  have hmap : ∀ texts : List Text, (texts.map lower).map partOf = texts.map partOf := by
    intro texts
    rw [List.map_map]
    exact List.map_congr_left fun text _ => partOf_lower text
  unfold partsOf
  dsimp only
  rw [hlast, parseV4_lower, ← List.map_dropLast, hmap, hmap]
  have hdot : 46 ∈ lower (pieces.getLastD []) ↔ 46 ∈ pieces.getLastD [] :=
    mem_lower_iff (by decide)
  simp only [hdot]

theorem parseGroups_lower (text : Text) : parseGroups (lower text) = parseGroups text := by
  unfold parseGroups
  rw [lower_splitOn (by decide)]
  dsimp only
  rw [List.length_map, partsOf_lower]

/-- Letter case does not change what a text without a scope is read as. -/
theorem ipAddress_lower {text : Text} (hscope : 37 ∉ text) :
    ipAddress (lower text) = ipAddress text := by
  have hscope' : 37 ∉ lower text := fun h => hscope ((mem_lower_iff (by decide)).mp h)
  unfold ipAddress
  rw [parseV4_lower]
  unfold parseV6 splitScope
  rw [List.splitOn_eq_singleton hscope, List.splitOn_eq_singleton hscope']
  have hslash : 47 ∈ lower text ↔ 47 ∈ text := mem_lower_iff (by decide)
  simp only [hslash]
  cases parseV4 text with
  | some octets => rfl
  | none => simp [parseGroups_lower]

/-! ### Words -/

namespace Panel

theorem isOctet_eq (part : Text) : isOctet part = (parseOctet part).isSome := by
  rw [Bool.eq_iff_iff]
  unfold isOctet parseOctet
  cases part with
  | nil => decide
  | cons c rest =>
      simp only [Bool.and_eq_true, Bool.or_eq_true, decide_eq_true_eq, List.cons.injEq, ne_eq,
        List.all_cons, List.length_cons, List.head?_cons, Option.some.injEq, reduceCtorEq,
        not_false_eq_true, true_and]
      constructor
      · rintro ⟨⟨rfl, rfl⟩ | ⟨⟨⟨hdigit, hzero⟩, hlength⟩, hrest⟩, hbound⟩
        · rw [if_pos ⟨⟨by decide, rfl⟩, by decide, Or.inl ⟨rfl, rfl⟩, hbound⟩]
          rfl
        · rw [if_pos ⟨⟨hdigit, hrest⟩, by omega, Or.inr hzero, hbound⟩]
          rfl
      · intro h
        split_ifs at h with hvalid
        · obtain ⟨⟨hdigit, hrest⟩, hlength, hzero, hbound⟩ := hvalid
          refine ⟨hzero.imp_right fun hzero => ?_, hbound⟩
          exact ⟨⟨⟨hdigit, hzero⟩, by omega⟩, hrest⟩
        · cases h

theorem mapM_isSome {α β : Type} (f : α → Option β) (items : List α) :
    (items.mapM f).isSome = items.all fun item => (f item).isSome := by
  induction items with
  | nil => rfl
  | cons item items ih =>
      rw [List.mapM_cons, List.all_cons, ← ih]
      cases f item with
      | none => rfl
      | some result => cases items.mapM f <;> rfl

theorem isIpv4_eq (text : Text) : isIpv4 text = (parseV4 text).isSome := by
  have hoctet : isOctet = fun part => (parseOctet part).isSome := funext isOctet_eq
  unfold isIpv4 parseV4
  dsimp only
  by_cases hlength : (text.splitOn 46).length = 4
  · rw [if_neg (not_not.mpr hlength), mapM_isSome, hlength, hoctet]
    simp
  · rw [if_pos hlength, decide_eq_false hlength]
    rfl

/-- A piece in lower case is a word when it is a group. -/
theorem partOf_isWord {piece : Text} (hlower : lower piece = piece) :
    (partOf piece).value?.isSome = isWord piece := by
  have hhex : piece.all isHex = piece.all fun c => isDigit c || (97 ≤ c && c ≤ 102) := by
    rw [Bool.eq_iff_iff, List.all_eq_true, List.all_eq_true]
    refine forall₂_congr fun c hc => ?_
    have hnot : ¬ (65 ≤ c ∧ c ≤ 70) := by
      intro hrange
      rw [← hlower] at hc
      obtain ⟨d, -, hd⟩ := List.mem_map.mp hc
      simp only [isUpper, Bool.and_eq_true, decide_eq_true_eq] at hd
      split_ifs at hd <;> omega
    simp only [isHex, Bool.or_eq_true, Bool.and_eq_true, decide_eq_true_eq, hnot, or_false]
  unfold partOf isWord
  rw [← hhex]
  by_cases hnil : piece = []
  · rw [if_pos hnil, hnil]
    rfl
  · have hlength : 1 ≤ piece.length := List.length_pos_iff.mpr hnil
    rw [if_neg hnil, decide_eq_true hlength, Bool.true_and]
    by_cases hgroup : piece.all isHex = true ∧ piece.length ≤ 4
    · rw [if_pos hgroup, hgroup.1, decide_eq_true hgroup.2]
      rfl
    · rw [if_neg hgroup]
      refine (Bool.and_eq_false_iff.mpr ?_).symm
      by_cases hall : piece.all isHex = true
      · exact Or.inl (decide_eq_false fun hfits => hgroup ⟨hall, hfits⟩)
      · exact Or.inr (Bool.eq_false_iff.mpr hall)

theorem partsOf_cons (piece : Text) {pieces : List Text} (h : pieces ≠ []) :
    partsOf (piece :: pieces) = (partsOf pieces).map (partOf piece :: ·) := by
  obtain ⟨init, last, rfl⟩ : ∃ init last, pieces = init ++ [last] :=
    ⟨pieces.dropLast, pieces.getLast h, (List.dropLast_append_getLast h).symm⟩
  unfold partsOf
  rw [← List.cons_append, List.getLastD_concat, List.getLastD_concat, List.dropLast_concat,
    List.dropLast_concat]
  dsimp only
  split_ifs with hdot
  · split
    · rfl
    · rfl
  · rfl

theorem partsOf_append (hi : List Text) {lo : List Text} (h : lo ≠ []) :
    partsOf (hi ++ lo) = (partsOf lo).map (hi.map partOf ++ ·) := by
  induction hi with
  | nil => simp
  | cons piece hi ih =>
      rw [List.cons_append, partsOf_cons piece (by simp [h]), ih, Option.map_map]
      rfl

/-- The number of groups that the parts stand for. -/
def groupCount (pieces : List Text) : Option Nat :=
  (partsOf pieces).bind fun parts => (parts.mapM Part.value?).map List.length

theorem groupCount_cons (piece : Text) {pieces : List Text} (h : pieces ≠ []) :
    groupCount (piece :: pieces) =
      if (partOf piece).value?.isSome then (groupCount pieces).map (· + 1) else none := by
  unfold groupCount
  rw [partsOf_cons piece h]
  cases partsOf pieces with
  | none => simp
  | some parts =>
      simp only [Option.map_some, Option.bind_some, List.mapM_cons]
      cases (partOf piece).value? with
      | none => rfl
      | some value => cases parts.mapM Part.value? <;> rfl

theorem groupCount_last {piece : Text} (hlower : lower piece = piece) :
    groupCount [piece] = (wordsFrom [piece]).map List.length := by
  unfold groupCount partsOf wordsFrom
  dsimp only
  rw [List.getLastD_cons, List.getLastD_nil]
  split_ifs with hdot hip hword
  · rw [isIpv4_eq] at hip
    obtain ⟨octets, hoctets⟩ := Option.isSome_iff_exists.mp hip.2
    obtain ⟨a, b, c, d, rfl⟩ := List.length_eq_four.mp (parseV4_spec hoctets).1
    rw [hoctets]
    rfl
  · rw [isIpv4_eq] at hip
    have hnone : parseV4 piece = none := by
      rw [← Option.not_isSome_iff_eq_none]
      exact fun h => hip ⟨rfl, h⟩
    rw [hnone]
    rfl
  · rw [← partOf_isWord hlower] at hword
    obtain ⟨value, hvalue⟩ := Option.isSome_iff_exists.mp hword
    simp [hvalue, wordsFrom]
  · rw [← partOf_isWord hlower] at hword
    have hnone : (partOf piece).value? = none := Option.not_isSome_iff_eq_none.mp hword
    simp [hnone]

/-- The words of lower-case pieces are as many as their groups. -/
theorem groupCount_eq {pieces : List Text} (hnil : pieces ≠ [])
    (hlower : ∀ piece ∈ pieces, lower piece = piece) :
    groupCount pieces = (wordsFrom pieces).map List.length := by
  induction pieces with
  | nil => exact absurd rfl hnil
  | cons piece pieces ih =>
      obtain ⟨hpiece, hpieces⟩ := List.forall_mem_cons.mp hlower
      by_cases hlast : pieces = []
      · rw [hlast]
        exact groupCount_last hpiece
      · rw [groupCount_cons piece hlast, partOf_isWord hpiece, ih hlast hpieces, wordsFrom]
        by_cases hdot : 46 ∈ piece
        -- a dotted piece counts only as the last one
        · have hword : isWord piece = false := by
            rw [Bool.eq_false_iff]
            intro hword
            have hhex := List.all_eq_true.mp (Bool.and_eq_true_iff.mp hword).2 46 hdot
            revert hhex
            decide
          rw [hword, if_neg Bool.false_ne_true, if_pos hdot, if_neg (fun h => hlast h.1)]
          rfl
        · rw [if_neg hdot]
          by_cases hword : isWord piece = true
          · rw [if_pos hword, if_pos hword, Option.map_map, Option.map_map]
            rfl
          · rw [if_neg hword, if_neg hword]
            rfl

/-! ### The gap -/

/-- The text has a `::`. -/
def Doubled (text : Text) : Prop := ∃ before after, text = before ++ 58 :: 58 :: after

theorem splitDouble_cases (text : Text) :
    ¬ Doubled text ∧ splitDouble text = [text] ∨
      ∃ before after, text = before ++ 58 :: 58 :: after ∧ ¬ Doubled (before ++ [58]) ∧
        splitDouble text = before :: splitDouble after := by
  have hshort : ∀ text : Text, text.length < 2 → ¬ Doubled text := by
    rintro text hlength ⟨before, after, rfl⟩
    simp at hlength
    omega
  fun_induction splitDouble text with
  | case1 => exact Or.inl ⟨hshort [] (by decide), rfl⟩
  | case2 c => exact Or.inl ⟨hshort [c] (by simp), rfl⟩
  | case3 c d rest hcolons ih =>
      obtain ⟨rfl, rfl⟩ := hcolons
      exact Or.inr ⟨[], rest, rfl, hshort [58] (by decide), rfl⟩
  | case4 c d rest hnot ih =>
      rcases ih with ⟨hnone, hsplit⟩ | ⟨before, after, htext, hnone, hsplit⟩
      · refine Or.inl ⟨?_, by rw [hsplit]; rfl⟩
        rintro ⟨before, after, htext⟩
        cases before with
        | nil =>
            injection htext with hc htext
            injection htext with hd _
            exact hnot ⟨hc, hd⟩
        | cons head before =>
            injection htext with _ htext
            exact hnone ⟨before, after, htext⟩
      · refine Or.inr ⟨c :: before, after, by rw [htext]; rfl, ?_, by rw [hsplit]; rfl⟩
        rintro ⟨left, right, hsame⟩
        cases left with
        | nil =>
            injection hsame with hc hsame
            cases before with
            | nil =>
                injection htext with hd _
                exact hnot ⟨hc, hd⟩
            | cons head before =>
                injection hsame with hhead _
                injection htext with hd _
                exact hnot ⟨hc, hd.trans hhead⟩
        | cons head left =>
            injection hsame with _ hsame
            exact hnone ⟨left, right, hsame⟩

theorem Doubled.append {text : Text} (h : Doubled text) (front : Text) :
    Doubled (front ++ text) := by
  obtain ⟨before, after, rfl⟩ := h
  exact ⟨front ++ before, after, by rw [List.append_assoc]⟩

theorem splitDouble_ne_nil (text : Text) : splitDouble text ≠ [] := by
  rcases splitDouble_cases text with ⟨-, hsplit⟩ | ⟨before, after, -, -, hsplit⟩
  · rw [hsplit]
    simp
  · rw [hsplit]
    simp

/-- An empty piece before the last, behind a colon, is a `::`. -/
theorem doubled_of_empty_init {text : Text} (h : [] ∈ (text.splitOn 58).dropLast) :
    Doubled (58 :: text) := by
  induction hn : text.length using Nat.strong_induction_on generalizing text with
  | _ n ih =>
      by_cases hmem : 58 ∈ text
      · obtain ⟨first, rest, rfl, hfirst⟩ := List.eq_append_cons_of_mem hmem
        rw [List.splitOn_append_cons_self, List.splitOn_eq_singleton hfirst,
          List.dropLast_append_of_ne_nil (List.splitOn_ne_nil 58 rest)] at h
        rcases List.mem_append.mp h with hnil | hrest
        · rw [← List.mem_singleton.mp hnil]
          exact ⟨[], rest, rfl⟩
        · exact (ih rest.length (by rw [← hn]; simp; omega) hrest rfl).append (58 :: first)
      · rw [List.splitOn_eq_singleton hmem] at h
        cases h

/-- An empty piece inside is a `::`. -/
theorem doubled_of_empty {text : Text} (h : [] ∈ (text.splitOn 58).tail.dropLast) :
    Doubled text := by
  by_cases hmem : 58 ∈ text
  · obtain ⟨first, rest, rfl, hfirst⟩ := List.eq_append_cons_of_mem hmem
    rw [List.splitOn_append_cons_self, List.splitOn_eq_singleton hfirst] at h
    exact (doubled_of_empty_init h).append first
  · rw [List.splitOn_eq_singleton hmem] at h
    cases h

theorem doubled_of_empty_tail {text : Text} (h : [] ∈ (text.splitOn 58).tail) :
    Doubled (text ++ [58]) := by
  refine doubled_of_empty ?_
  rw [List.splitOn_append_cons_self, List.splitOn_nil]
  obtain ⟨piece, pieces, hpieces⟩ := List.exists_cons_of_ne_nil (List.splitOn_ne_nil 58 text)
  rw [hpieces] at h ⊢
  rw [List.cons_append, List.tail_cons, List.dropLast_concat]
  exact h

/-- Behind a colon, a `::` is an empty piece before the last. -/
theorem Doubled.pieces {text : Text} (h : Doubled (58 :: text)) :
    ∃ before after, after ≠ [] ∧ text.splitOn 58 = before ++ [] :: after := by
  obtain ⟨before, after, htext⟩ := h
  have hpieces := congrArg (List.splitOn 58) htext
  rw [← List.nil_append (58 :: text), List.splitOn_append_cons_self,
    List.splitOn_append_cons_self, ← List.nil_append (58 :: after),
    List.splitOn_append_cons_self, List.splitOn_nil] at hpieces
  obtain ⟨first, others, hbefore⟩ := List.exists_cons_of_ne_nil (List.splitOn_ne_nil 58 before)
  rw [hbefore] at hpieces
  injection hpieces with _ hpieces
  exact ⟨others, after.splitOn 58, List.splitOn_ne_nil 58 after, hpieces⟩

/-! ### Parts without a gap, and with one -/

theorem partsOf_last {piece : Text} {parts : List Part} (h : partsOf [piece] = some parts) :
    parts = [partOf piece] ∨ ∃ high low, parts = [.group high, .group low] := by
  unfold partsOf at h
  dsimp only at h
  split at h
  · split at h
    · exact Or.inr ⟨_, _, (Option.some.inj h).symm⟩
    · cases h
  · exact Or.inl (Option.some.inj h).symm

theorem partOf_eq_empty {piece : Text} (h : partOf piece = .empty) : piece = [] := by
  unfold partOf at h
  split_ifs at h with hnil
  exact hnil

theorem empty_of_parts_init {pieces : List Text} {parts : List Part} (hnil : pieces ≠ [])
    (hparts : partsOf pieces = some parts) (h : .empty ∈ parts.dropLast) :
    [] ∈ pieces.dropLast := by
  obtain ⟨init, last, rfl⟩ : ∃ init last, pieces = init ++ [last] :=
    ⟨pieces.dropLast, pieces.getLast hnil, (List.dropLast_append_getLast hnil).symm⟩
  rw [partsOf_append init (by simp)] at hparts
  obtain ⟨ending, hending, rfl⟩ := Option.map_eq_some_iff.mp hparts
  have hinit : .empty ∈ init.map partOf → [] ∈ init := by
    intro hmem
    obtain ⟨piece, hpiece, hempty⟩ := List.mem_map.mp hmem
    exact partOf_eq_empty hempty ▸ hpiece
  rw [List.dropLast_concat]
  rcases partsOf_last hending with rfl | ⟨high, low, rfl⟩
  · rw [List.dropLast_concat] at h
    exact hinit h
  · rw [List.dropLast_append_of_ne_nil (by simp)] at h
    rcases List.mem_append.mp h with h | h
    · exact hinit h
    · cases List.mem_singleton.mp h

theorem empty_of_parts {pieces : List Text} {parts : List Part}
    (hparts : partsOf pieces = some parts) (h : .empty ∈ parts.tail.dropLast) :
    [] ∈ pieces.tail.dropLast := by
  cases pieces with
  | nil =>
      rw [← Option.some.inj (show some [] = some parts from hparts)] at h
      cases h
  | cons piece pieces =>
      by_cases hlast : pieces = []
      · subst hlast
        rcases partsOf_last hparts with rfl | ⟨high, low, rfl⟩
        · cases h
        · cases h
      · rw [partsOf_cons piece hlast] at hparts
        obtain ⟨rest, hrest, rfl⟩ := Option.map_eq_some_iff.mp hparts
        exact empty_of_parts_init hlast hrest h

theorem length_parts {pieces : List Text} {parts : List Part} (h : partsOf pieces = some parts) :
    pieces.length ≤ parts.length ∧ parts.length ≤ pieces.length + 1 := by
  by_cases hnil : pieces = []
  · subst hnil
    rw [← Option.some.inj (show some [] = some parts from h)]
    simp
  · obtain ⟨init, last, rfl⟩ : ∃ init last, pieces = init ++ [last] :=
      ⟨pieces.dropLast, pieces.getLast hnil, (List.dropLast_append_getLast hnil).symm⟩
    rw [partsOf_append init (by simp)] at h
    obtain ⟨ending, hending, rfl⟩ := Option.map_eq_some_iff.mp h
    rcases partsOf_last hending with rfl | ⟨high, low, rfl⟩
    · simp
    · simp

theorem parseGroups_full {text : Text} (h : ¬ Doubled text) :
    (parseGroups text).isSome = decide (groupCount (text.splitOn 58) = some 8) := by
  unfold parseGroups groupCount
  dsimp only
  cases hparts : partsOf (text.splitOn 58) with
  | none => simp
  | some parts =>
      have hinside : .empty ∉ parts.tail.dropLast :=
        fun hmem => h (doubled_of_empty (empty_of_parts hparts hmem))
      have hle := (length_parts hparts).2
      rw [Option.bind_some, Option.bind_some, assemble_full hinside]
      cases hvalues : parts.mapM Part.value? with
      | none => simp
      | some values =>
          have hlength := (mapM_spec hvalues).1
          rw [Option.map_some, hlength, Bool.eq_iff_iff, decide_eq_true_iff, Option.some.injEq]
          constructor
          · intro hsome
            split_ifs at hsome with hshort height
            · cases hsome
            · exact height
            · cases hsome
          · intro height
            rw [if_neg (by omega), if_pos height]
            rfl

theorem sideOf_eq {parts : List Part} {atEdge : Bool} (hne : parts ≠ [.empty])
    (hedge : atEdge = true → .empty ∈ parts) : sideOf atEdge parts = parts.mapM Part.value? := by
  unfold sideOf
  split_ifs with hat hlength
  · obtain ⟨part, rfl⟩ := List.length_eq_one_iff.mp hlength
    rw [← List.mem_singleton.mp (hedge hat)] at hne
    exact absurd rfl hne
  · cases hvalues : parts.mapM Part.value? with
    | none => rfl
    | some values => cases (mapM_spec hvalues).2.2 _ (hedge hat)
  · rfl

theorem length_le_of_sideOf {parts : List Part} {atEdge : Bool} {values : List Nat}
    (h : sideOf atEdge parts = some values) : parts.length ≤ max 1 values.length := by
  unfold sideOf at h
  split_ifs at h with hat hlength
  · omega
  · have hsame := (mapM_spec h).1
    omega

theorem lower_of_mem_map {texts : List Text} (h : texts.map lower = texts) :
    ∀ text ∈ texts, lower text = text := by
  conv_rhs at h => rw [← List.map_id texts]
  exact List.map_inj_left.mp h

theorem lower_pieces {text : Text} (h : lower text = text) :
    ∀ piece ∈ text.splitOn 58, lower piece = piece := by
  refine lower_of_mem_map ?_
  rw [← lower_splitOn (by decide), h]

theorem splitOn_singleton_nil {text : Text} (h : text.splitOn 58 = [[]]) : text = [] := by
  have hjoin : List.intercalate [58] (text.splitOn 58) = text := List.intercalate_splitOn 58
  rw [← hjoin, h]
  rfl

/-- The number of words on one side of a `::`. -/
def wordCount (part : Text) : Option Nat := (words part).map List.length

theorem wordCount_eq {part : Text} (hnil : part ≠ []) (hlower : lower part = part) :
    wordCount part = groupCount (part.splitOn 58) := by
  unfold wordCount words
  rw [if_neg hnil, groupCount_eq (List.splitOn_ne_nil 58 part) (lower_pieces hlower)]

/-- One side of a `::`, read as parts, has as many groups as words. -/
theorem sideOf_count {part : Text} {parts : List Part} {atEdge : Bool}
    (hlower : lower part = part) (hparts : partsOf (part.splitOn 58) = some parts)
    (hedge : atEdge = true → .empty ∈ parts) (hnil : part = [] → atEdge = true) :
    (sideOf atEdge parts).map List.length = wordCount part := by
  by_cases hpart : part = []
  · subst hpart
    rw [List.splitOn_nil] at hparts
    obtain rfl := Option.some.inj (show some [Part.empty] = some parts from hparts)
    rw [hnil rfl]
    rfl
  · have hne : parts ≠ [.empty] := by
      rintro rfl
      obtain ⟨init, last, hpieces⟩ : ∃ init last, part.splitOn 58 = init ++ [last] :=
        ⟨(part.splitOn 58).dropLast, (part.splitOn 58).getLast (List.splitOn_ne_nil 58 part),
          (List.dropLast_append_getLast _).symm⟩
      rw [hpieces, partsOf_append init (by simp)] at hparts
      obtain ⟨ending, hending, hsame⟩ := Option.map_eq_some_iff.mp hparts
      rcases partsOf_last hending with rfl | ⟨high, low, rfl⟩
      · have hinit : init = [] := by
          have hlength := congrArg List.length hsame
          simpa using hlength
        rw [hinit] at hsame hpieces
        injection hsame with hempty _
        rw [partOf_eq_empty hempty] at hpieces
        exact hpart (splitOn_singleton_nil hpieces)
      · have hlength := congrArg List.length hsame
        simp at hlength
    rw [sideOf_eq hne hedge, wordCount_eq hpart hlower, groupCount, hparts]
    rfl

/-- The sides of a `::` have room for a gap. -/
def fits : Option Nat → Option Nat → Bool
  | some left, some right => left + right < 8
  | _, _ => false

theorem partsOf_gap (left : Text) {right : Text} {lo : List Part}
    (hlo : partsOf (right.splitOn 58) = some lo) :
    partsOf ((left ++ 58 :: 58 :: right).splitOn 58) =
      some ((left.splitOn 58).map partOf ++ .empty :: lo) := by
  rw [List.splitOn_append_cons_self, ← List.nil_append (58 :: right),
    List.splitOn_append_cons_self, List.splitOn_nil, List.singleton_append,
    partsOf_append _ (by simp), partsOf_cons [] (List.splitOn_ne_nil 58 right), hlo]
  rfl

theorem parseGroups_gap {left right : Text} (hleft : ¬ Doubled (left ++ [58]))
    (hright : ¬ Doubled (58 :: right)) (hdots : 46 ∉ left) (hlowerLeft : lower left = left)
    (hlowerRight : lower right = right) :
    (parseGroups (left ++ 58 :: 58 :: right)).isSome =
      fits (wordCount left) (wordCount right) := by
  have hsplit : (left ++ 58 :: 58 :: right).splitOn 58 =
      left.splitOn 58 ++ [] :: right.splitOn 58 := by
    rw [List.splitOn_append_cons_self, ← List.nil_append (58 :: right),
      List.splitOn_append_cons_self, List.splitOn_nil]
    rfl
  have hleftLength := List.length_pos_iff.mpr (List.splitOn_ne_nil 58 left)
  have hrightLength := List.length_pos_iff.mpr (List.splitOn_ne_nil 58 right)
  have hhi : partsOf (left.splitOn 58) = some ((left.splitOn 58).map partOf) :=
    partsOf_clean fun piece hpiece hdot => hdots (mem_splitOn hpiece 46 hdot)
  unfold parseGroups
  dsimp only
  rw [if_neg (by rw [hsplit]; simp; omega)]
  cases hlo : partsOf (right.splitOn 58) with
  | none =>
      have hnone : wordCount right = none := by
        by_cases hnil : right = []
        · rw [hnil] at hlo
          cases hlo
        · rw [wordCount_eq hnil hlowerRight, groupCount, hlo]
          rfl
      rw [hsplit, partsOf_append _ (by simp), partsOf_cons [] (List.splitOn_ne_nil 58 right), hlo,
        hnone]
      cases wordCount left <;> rfl
  | some lo =>
      have hhiNil : (left.splitOn 58).map partOf ≠ [] := by simp
      have hhiInside : .empty ∉ ((left.splitOn 58).map partOf).tail := by
        rw [← List.map_tail]
        intro hmem
        obtain ⟨piece, hpiece, hempty⟩ := List.mem_map.mp hmem
        exact hleft (doubled_of_empty_tail (partOf_eq_empty hempty ▸ hpiece))
      have hloNil : lo ≠ [] := List.ne_nil_of_length_pos (by have := (length_parts hlo).1; omega)
      have hloInside : .empty ∉ lo.dropLast := fun hmem =>
        hright (doubled_of_empty_init (empty_of_parts_init (List.splitOn_ne_nil 58 right) hlo hmem))
      have hhiCount : (sideOf (((left.splitOn 58).map partOf).head? = some .empty)
          ((left.splitOn 58).map partOf)).map List.length = wordCount left := by
        refine sideOf_count hlowerLeft hhi (fun hhead => ?_) fun hnil => ?_
        · exact List.mem_of_head? (of_decide_eq_true hhead)
        · rw [hnil]
          rfl
      have hloCount : (sideOf (lo.getLast? = some .empty) lo).map List.length =
          wordCount right := by
        refine sideOf_count hlowerRight hlo (fun hlast => ?_) fun hnil => ?_
        · exact List.mem_of_getLast? (of_decide_eq_true hlast)
        · rw [hnil, List.splitOn_nil] at hlo
          rw [← Option.some.inj (show some [Part.empty] = some lo from hlo)]
          rfl
      rw [partsOf_gap left hlo, Option.bind_some, assemble_gap hhiNil hloNil hhiInside hloInside,
        ← hhiCount, ← hloCount]
      cases hhiSide : sideOf (((left.splitOn 58).map partOf).head? = some .empty)
          ((left.splitOn 58).map partOf) with
      | none =>
          split_ifs
          · rfl
          · rfl
      | some hi =>
          cases hloSide : sideOf (lo.getLast? = some .empty) lo with
          | none =>
              split_ifs
              · rfl
              · rfl
          | some low =>
              have hhiLe := length_le_of_sideOf hhiSide
              have hloLe := length_le_of_sideOf hloSide
              simp only [Option.map_some, fits]
              by_cases hroom : hi.length + low.length < 8
              · rw [if_neg (by omega), if_neg (by omega), decide_eq_true hroom]
                rfl
              · rw [decide_eq_false hroom, if_pos (by omega : 8 ≤ hi.length + low.length)]
                split_ifs
                · rfl
                · rfl

theorem assemble_gaps (first : Part) (front between ending : List Part) (last : Part) :
    assemble (first :: (front ++ .empty :: (between ++ .empty :: (ending ++ [last])))) = none := by
  have hinterior : (first :: (front ++ Part.empty :: (between ++ .empty ::
      (ending ++ [last])))).tail.dropLast = front ++ .empty :: (between ++ .empty :: ending) := by
    have hshape : front ++ Part.empty :: (between ++ .empty :: (ending ++ [last])) =
        (front ++ .empty :: (between ++ .empty :: ending)) ++ [last] := by
      simp
    rw [List.tail_cons, hshape, List.dropLast_concat]
  have hcount : 1 < (front ++ Part.empty :: (between ++ .empty :: ending)).count .empty := by
    simp
    omega
  unfold assemble
  dsimp only
  rw [hinterior, if_pos hcount]
  split_ifs
  · rfl
  · rfl

/-- Two gaps are none. -/
theorem parseGroups_gaps {left right : Text} (hright : Doubled (58 :: right)) :
    parseGroups (left ++ 58 :: 58 :: right) = none := by
  obtain ⟨before, after, hafter, hpieces⟩ := hright.pieces
  obtain ⟨first, others, hfirst⟩ := List.exists_cons_of_ne_nil (List.splitOn_ne_nil 58 left)
  unfold parseGroups
  dsimp only
  rw [List.splitOn_append_cons_self, ← List.nil_append (58 :: right),
    List.splitOn_append_cons_self, List.splitOn_nil, hpieces, hfirst,
    partsOf_append _ (by simp), partsOf_append _ (by simp), partsOf_append _ (by simp),
    partsOf_cons [] hafter]
  cases hlast : partsOf after with
  | none => simp
  | some lo =>
      have hlo : lo ≠ [] := by
        have hlength := (length_parts hlast).1
        exact List.ne_nil_of_length_pos (by have := List.length_pos_iff.mpr hafter; omega)
      obtain ⟨init, last, rfl⟩ : ∃ init last, lo = init ++ [last] :=
        ⟨lo.dropLast, lo.getLast hlo, (List.dropLast_append_getLast hlo).symm⟩
      have hnone := assemble_gaps (partOf first) (others.map partOf) (before.map partOf) init last
      have hempty : partOf [] = .empty := rfl
      simp [hempty, hnone]

/-! ### The recogniser -/

theorem isIpv6_of_shape {text : Text} (hnil : text ≠ []) (hlower : lower text = text)
    (hscope : 37 ∉ text) : isIpv6 text = match splitDouble text with
      | [whole] => (words whole).any fun left => left.length = 8
      | [left, right] => fits (wordCount left) (wordCount right)
      | _ => false := by
  unfold isIpv6
  dsimp only
  rw [hlower, if_neg (not_or.mpr ⟨hnil, hscope⟩)]
  rcases splitDouble text with _ | ⟨left, _ | ⟨right, _ | ⟨more, rest⟩⟩⟩
  · rfl
  · rfl
  · dsimp only
    unfold wordCount
    cases words left with
    | none => rfl
    | some left =>
        cases words right with
        | none => rfl
        | some right => rfl
  · rfl

/-- No dotted piece stands before a `::`. -/
def PlainHead (text : Text) : Prop :=
  ∀ before after, text = before ++ 58 :: 58 :: after → 46 ∉ before

/-- The panel takes a lower-case text for IPv6 when Python reads groups from it. -/
theorem isIpv6_eq {text : Text} (hlower : lower text = text) (hscope : 37 ∉ text)
    (hhead : PlainHead text) : isIpv6 text = (parseGroups text).isSome := by
  by_cases hnil : text = []
  · rw [hnil]
    rfl
  · rw [isIpv6_of_shape hnil hlower hscope]
    rcases splitDouble_cases text with ⟨hnone, hsplit⟩ | ⟨left, right, rfl, hleft, hsplit⟩
    · rw [hsplit, parseGroups_full hnone, ← wordCount_eq hnil hlower]
      dsimp only
      unfold wordCount
      cases words text with
      | none => rfl
      | some pieces => simp
    · have hboth : lower left = left ∧ lower right = right := by
        rw [lower_append, lower_cons_mark (by decide), lower_cons_mark (by decide)] at hlower
        obtain ⟨hl, hr⟩ := List.append_inj hlower (length_lower left)
        injection hr with _ hr
        injection hr with _ hr
        exact ⟨hl, hr⟩
      rw [hsplit]
      by_cases hright : Doubled (58 :: right)
      · rw [parseGroups_gaps hright]
        rcases splitDouble_cases right with ⟨hone, hsplit'⟩ | ⟨_, _, -, -, hsplit'⟩
        -- three colons: the right side starts with an empty word
        · obtain ⟨before, after, hcolons⟩ := hright
          cases before with
          | nil =>
              injection hcolons with _ hcolons
              have hword : wordCount right = none := by
                unfold wordCount words
                rw [hcolons, if_neg (by simp), ← List.nil_append (58 :: after),
                  List.splitOn_append_cons_self, List.splitOn_nil, List.singleton_append]
                rfl
              rw [hsplit']
              dsimp only
              rw [hword]
              cases wordCount left with
              | none => rfl
              | some count => rfl
          | cons head before =>
              injection hcolons with _ hcolons
              exact absurd ⟨before, after, hcolons⟩ hone
        · rw [hsplit']
          cases hmore : splitDouble _ with
          | nil => exact absurd hmore (splitDouble_ne_nil _)
          | cons piece pieces => rfl
      · rw [parseGroups_gap hleft hright (hhead left right rfl) hboth.1 hboth.2]
        rcases splitDouble_cases right with ⟨-, hsplit'⟩ | ⟨before, after, rfl, -, -⟩
        · rw [hsplit']
        · exact absurd ⟨58 :: before, after, rfl⟩ hright

theorem wordsFrom_clean {pieces ws : List Text} (h : wordsFrom pieces = some ws) :
    ∀ piece ∈ pieces, 47 ∉ piece := by
  induction pieces generalizing ws with
  | nil => exact fun _ hpiece => absurd hpiece List.not_mem_nil
  | cons word rest ih =>
      unfold wordsFrom at h
      split_ifs at h with hdot hlast hword
      · rw [isIpv4_eq] at hlast
        obtain ⟨octets, hoctets⟩ := Option.isSome_iff_exists.mp hlast.2
        rw [hlast.1]
        refine List.forall_mem_singleton.mpr fun hslash => ?_
        exact absurd ((parseV4_spec hoctets).2.2 47 hslash) (by decide)
      · obtain ⟨others, hothers, -⟩ := Option.map_eq_some_iff.mp h
        refine List.forall_mem_cons.mpr ⟨fun hslash => ?_, ih hothers⟩
        have hhex := List.all_eq_true.mp (Bool.and_eq_true_iff.mp hword).2 47 hslash
        revert hhex
        decide

theorem not_slash_of_words {part : Text} (h : wordCount part ≠ none) : 47 ∉ part := by
  unfold wordCount words at h
  split_ifs at h with hnil
  · rw [hnil]
    exact List.not_mem_nil
  · cases hwords : wordsFrom (part.splitOn 58) with
    | none =>
        rw [hwords] at h
        exact absurd rfl h
    | some ws =>
        have hjoin : List.intercalate [58] (part.splitOn 58) = part := List.intercalate_splitOn 58
        rw [← hjoin]
        intro hslash
        rcases mem_intercalate hslash with hcolon | ⟨piece, hpiece, hslash⟩
        · exact absurd hcolon (by decide)
        · exact wordsFrom_clean hwords piece hpiece hslash

/-- A text that the panel takes for IPv6 has no slash. -/
theorem not_slash_of_isIpv6 {text : Text} (hnil : text ≠ []) (hlower : lower text = text)
    (hscope : 37 ∉ text) (h : isIpv6 text = true) : 47 ∉ text := by
  rw [isIpv6_of_shape hnil hlower hscope] at h
  rcases splitDouble_cases text with ⟨-, hsplit⟩ | ⟨left, right, rfl, -, hsplit⟩
  · rw [hsplit] at h
    dsimp only at h
    refine not_slash_of_words fun hnone => ?_
    rw [Option.map_eq_none_iff.mp hnone] at h
    cases h
  · rw [hsplit] at h
    rcases splitDouble_cases right with ⟨-, hone⟩ | ⟨before, after, -, -, hmore⟩
    · rw [hone] at h
      dsimp only at h
      have hleft : 47 ∉ left := not_slash_of_words fun hnone => by
        rw [hnone] at h
        cases h
      have hright : 47 ∉ right := not_slash_of_words fun hnone => by
        rw [hnone] at h
        cases hcount : wordCount left with
        | none =>
            rw [hcount] at h
            cases h
        | some count =>
            rw [hcount] at h
            cases h
      simp [hleft, hright]
    · rw [hmore] at h
      cases hrest : splitDouble after with
      | nil => exact absurd hrest (splitDouble_ne_nil after)
      | cons piece pieces =>
          rw [hrest] at h
          cases h

theorem PlainHead.lower {item : Text} (h : PlainHead item) : PlainHead (lower item) := by
  intro before after htext
  obtain ⟨front, rest, rfl, rfl, hrest⟩ := List.map_eq_append_iff.mp htext
  obtain ⟨first, rest, rfl, hfirst, hrest⟩ := List.map_eq_cons_iff.mp hrest
  obtain ⟨second, rest, rfl, hsecond, -⟩ := List.map_eq_cons_iff.mp hrest
  have hcolon : ∀ c, (if isUpper c then c + 32 else c) = 58 → c = 58 := by
    intro c hc
    unfold isUpper at hc
    simp only [Bool.and_eq_true, decide_eq_true_eq] at hc
    split_ifs at hc <;> omega
  intro hdot
  have hfront := h front rest (by rw [hcolon first hfirst, hcolon second hsecond])
  exact hfront ((mem_lower_iff (by decide)).mp hdot)

/-- The panel takes the texts without a scope that Python reads. -/
theorem literal_iff {item : Text} (hhead : PlainHead item) :
    (isIpv4 (lower item) || isIpv6 (lower item)) = true ↔
      (ipAddress item).isSome = true ∧ 37 ∉ item := by
  have htwice := lower_lower item
  have hmark : 37 ∈ lower item ↔ 37 ∈ item := mem_lower_iff (by decide)
  have hsix : ∀ address : Text, 37 ∉ address → parseV6 address =
      if 47 ∈ address then none else (parseGroups address).map (Address.v6 · []) := by
    intro address hscope
    unfold parseV6 splitScope
    rw [List.splitOn_eq_singleton hscope]
    split_ifs
    · rfl
    · cases hgroups : parseGroups address with
      | none => simp [hgroups]
      | some groups => simp [hgroups]
  constructor
  · intro htakes
    rcases Bool.or_eq_true_iff.mp htakes with hfour | hsixth
    · rw [isIpv4_eq, parseV4_lower] at hfour
      obtain ⟨octets, hoctets⟩ := Option.isSome_iff_exists.mp hfour
      refine ⟨?_, fun hscope => absurd ((parseV4_spec hoctets).2.2 37 hscope) (by decide)⟩
      unfold ipAddress
      rw [hoctets]
      rfl
    · have hscope : 37 ∉ lower item := by
        intro hscope
        unfold isIpv6 at hsixth
        dsimp only at hsixth
        rw [htwice, if_pos (Or.inr hscope)] at hsixth
        cases hsixth
      have hnil : lower item ≠ [] := by
        intro hnil
        rw [hnil] at hsixth
        cases hsixth
      have hslash := not_slash_of_isIpv6 hnil htwice hscope hsixth
      rw [isIpv6_eq htwice hscope hhead.lower] at hsixth
      rw [← ipAddress_lower (mt hmark.mpr hscope)]
      refine ⟨?_, mt hmark.mpr hscope⟩
      unfold ipAddress
      rw [hsix _ hscope, if_neg hslash]
      cases parseV4 (lower item) with
      | some octets => rfl
      | none =>
          rw [Option.isSome_map]
          exact hsixth
  · rintro ⟨hread, hscope⟩
    have hscope' : 37 ∉ lower item := mt hmark.mp hscope
    rw [← ipAddress_lower hscope] at hread
    unfold ipAddress at hread
    rw [isIpv4_eq, isIpv6_eq htwice hscope' hhead.lower]
    cases hfour : parseV4 (lower item) with
    | some octets => rfl
    | none =>
        rw [hfour] at hread
        dsimp only at hread
        rw [hsix _ hscope'] at hread
        split_ifs at hread
        · cases hread
        · rw [Option.isSome_map] at hread
          rw [hread]
          rfl

end Panel

end Network

end CybexOS
