/-
A root that is taken for encrypted is: every path of backing devices of every
member passes through a mapping, and no declared member is left out.
-/
import CybexOS.Excepts
import CybexOS.Login.Root

namespace CybexOS

namespace Login

open Displays.Py (isSpace)
open Json (PyValue)
open Regex (Item Takes findAll findFrom lastUnit)
open Words (words breaks)

/-! ### Paths -/

def children : PyValue → List PyValue
  | .obj fields =>
      match fields.lookup (ascii "children") with
      | some (.arr nodes) => nodes
      | _ => []
  | _ => []

/-- A path from one of the nodes down to a device without children. -/
inductive IsPath : List PyValue → List PyValue → Prop
  | last {nodes : List PyValue} {node : PyValue} (hnode : node ∈ nodes)
      (hchildren : children node = []) : IsPath nodes [node]
  | step {nodes path : List PyValue} {node : PyValue} (hnode : node ∈ nodes)
      (hpath : IsPath (children node) path) : IsPath nodes (node :: path)

theorem encryptedChildren_eq (fields : List (Text × PyValue)) :
    encryptedChildren fields =
      match fields.lookup (ascii "children") with
      | some value => encryptedPaths value
      | none => .ok false := by
  induction fields with
  | nil => rfl
  | cons field fields ih =>
      obtain ⟨key, value⟩ := field
      rw [encryptedChildren, List.lookup_cons]
      cases hkey : ascii "children" == key with
      | true => rw [if_pos rfl]
      | false => rw [if_neg (by simp), ih]

theorem allEncrypted_mem {nodes : List PyValue} (h : allEncrypted nodes = .ok true)
    {node : PyValue} (hnode : node ∈ nodes) : encryptedNode node = .ok true := by
  induction nodes with
  | nil => cases hnode
  | cons first nodes ih =>
      rw [allEncrypted, bind_eq_ok] at h
      obtain ⟨encrypted, hfirst, hrest⟩ := h
      cases encrypted with
      | false => cases hrest
      | true =>
          rw [if_pos rfl] at hrest
          rcases List.mem_cons.mp hnode with rfl | hmem
          · exact hfirst
          · exact ih hrest hmem

/-- Either the device is a mapping, or it has children and all of them are encrypted. -/
theorem encryptedNode_cases {node : PyValue} (h : encryptedNode node = .ok true) :
    isCrypt node = true ∨ (children node ≠ [] ∧ allEncrypted (children node) = .ok true) := by
  cases node with
  | obj fields =>
      rw [encryptedNode] at h
      split_ifs at h with hcrypt
      · exact Or.inl hcrypt
      · right
        rw [encryptedChildren_eq] at h
        cases hlookup : fields.lookup (ascii "children") with
        | none =>
            rw [hlookup] at h
            cases h
        | some value =>
            rw [hlookup] at h
            dsimp only at h
            cases value with
            | arr nodes =>
                have hchildren : children (.obj fields) = nodes := by
                  unfold children
                  dsimp only
                  rw [hlookup]
                rw [encryptedPaths] at h
                rw [hchildren]
                split_ifs at h with hempty
                · cases h
                · exact ⟨by simpa using hempty, h⟩
            | _ =>
                rw [encryptedPaths] at h
                try split_ifs at h
                all_goals cases h
  | _ =>
      rw [encryptedNode] at h
      · cases h
      · simp

/-- Every path passes through a mapping. -/
theorem IsPath.mapped {nodes path : List PyValue} (hpath : IsPath nodes path)
    (h : allEncrypted nodes = .ok true) : ∃ node ∈ path, isCrypt node = true := by
  induction hpath with
  | last hnode hchildren =>
      rcases encryptedNode_cases (allEncrypted_mem h hnode) with hcrypt | ⟨hne, -⟩
      · exact ⟨_, List.mem_cons_self, hcrypt⟩
      · exact absurd hchildren hne
  | step hnode _ ih =>
      rcases encryptedNode_cases (allEncrypted_mem h hnode) with hcrypt | ⟨-, hall⟩
      · exact ⟨_, List.mem_cons_self, hcrypt⟩
      · obtain ⟨node, hmem, hcrypt⟩ := ih hall
        exact ⟨node, List.mem_cons_of_mem _ hmem, hcrypt⟩

/-! ### Declared members -/

/-- A line of a report, without the break that ends it. -/
def IsLine (report line : Text) : Prop :=
  ∃ before after, report = before ++ line ++ after ∧
    (before = [] ∨ before.getLast? = some 10) ∧ (after = [] ∨ after.head? = some 10) ∧ 10 ∉ line

/-- The device that a line declares. -/
def declared (line : Text) : Option Text :=
  match words isSpace line with
  | [devid, number, size, total, used, allocated, path, device] =>
      if devid = ascii "devid" ∧ number.all isDigit ∧ size = ascii "size" ∧ total.all isDigit ∧
          used = ascii "used" ∧ allocated.all isDigit ∧ path = ascii "path" ∧
          (ascii "/dev/").isPrefixOf device ∧ ascii "/dev/" ≠ device then some device
      else none
  | _ => none

/-! ### Words of a match -/

def isWordUnit (c : ℕ) : Bool := !isSpace c

/-- What the item takes is one word. -/
def TakesWord (item : Item) : Prop :=
  ∀ before piece after, piece.length ∈ item.lengths before (piece ++ after) →
    piece ≠ [] ∧ piece.all isWordUnit = true

theorem takesWord_lit {text : Text} (hne : text ≠ []) (hall : text.all isWordUnit = true) :
    TakesWord (.lit text) := by
  intro before piece after h
  rw [Regex.lit_iff.mp h]
  exact ⟨hne, hall⟩

theorem isWordUnit_of_isDigit {c : ℕ} (h : isDigit c = true) : isWordUnit c = true := by
  simp only [isDigit, Bool.and_eq_true, decide_eq_true_eq] at h
  simp only [isWordUnit, isSpace, Bool.not_eq_true', Bool.or_eq_false_iff, Bool.and_eq_false_iff,
    decide_eq_false_iff_not, beq_eq_false_iff_ne, ne_eq]
  omega

theorem takesWord_digits : TakesWord (.many isDigit 1) := by
  intro before piece after h
  obtain ⟨hall, hleast⟩ := Regex.many_iff.mp h
  refine ⟨List.length_pos_iff.mp hleast, List.all_eq_true.mpr fun c hc => ?_⟩
  exact isWordUnit_of_isDigit (List.all_eq_true.mp hall c hc)

theorem takes_cons {item : Item} {items : List Item} {before : Option ℕ} {text rest : Text}
    {pieces : List Text} (h : Takes (item :: items) before text pieces rest) :
    ∃ piece others after, pieces = piece :: others ∧
      piece.length ∈ item.lengths before (piece ++ after) ∧
      Takes items (lastUnit before piece) after others rest := by
  cases pieces with
  | nil => exact h.elim
  | cons piece others =>
      obtain ⟨after, rfl, hlength, hitems⟩ := h
      exact ⟨piece, others, after, rfl, hlength, hitems⟩

/-- Some spaces and a word. -/
theorem takes_word {item : Item} {least : ℕ} {items : List Item} {before : Option ℕ}
    {text rest : Text} {pieces : List Text} (hitem : TakesWord item)
    (h : Takes (.many isSpace least :: item :: items) before text pieces rest) :
    ∃ space word others, pieces = space :: word :: others ∧ space.all isSpace = true ∧
      least ≤ space.length ∧ word ≠ [] ∧ word.all isWordUnit = true ∧
      ∃ before after, Takes items before after others rest := by
  obtain ⟨space, others, after, rfl, hspace, h⟩ := takes_cons h
  obtain ⟨word, others, after, rfl, hword, h⟩ := takes_cons h
  obtain ⟨hall, hleast⟩ := Regex.many_iff.mp hspace
  obtain ⟨hne, hword⟩ := hitem _ _ _ hword
  exact ⟨space, word, others, rfl, hall, hleast, hne, hword, _, _, h⟩

theorem breaks_of_space {space rest : Text} (hall : space.all isSpace = true)
    (hleast : 1 ≤ space.length) : breaks isSpace (space ++ rest) = true := by
  cases space with
  | nil => cases hleast
  | cons c space =>
      rw [List.all_cons, Bool.and_eq_true] at hall
      simpa [breaks] using hall.1

theorem words_next {space word rest : Text} (hspace : space.all isSpace = true) (hne : word ≠ [])
    (hword : word.all isWordUnit = true) (hrest : breaks isSpace rest = true) :
    words isSpace (space ++ (word ++ rest)) = word :: words isSpace rest := by
  rw [Words.words_space hspace, Words.words_word hne hword hrest]

/-- A match of `DEVICE` has eight words, the path is the last one, and it ends a line. -/
theorem words_device {before : Option ℕ} {text rest : Text} {pieces : List Text}
    (h : Takes DEVICE before text pieces rest) :
    (∃ first : List Text, first.length = 7 ∧
      words isSpace pieces.flatten = first ++ [pathOf pieces]) ∧
      (rest = [] ∨ rest.head? = some 10) := by
  unfold DEVICE at h
  obtain ⟨start, pieces, after, rfl, hstart, h⟩ := takes_cons h
  obtain ⟨rfl, -⟩ := Regex.lineStart_iff.mp hstart
  obtain ⟨s₁, w₁, pieces, rfl, hs₁, -, hne₁, hw₁, _, _, h⟩ :=
    takes_word (takesWord_lit (by decide) (by decide)) h
  obtain ⟨s₂, w₂, pieces, rfl, hs₂, hl₂, hne₂, hw₂, _, _, h⟩ := takes_word takesWord_digits h
  obtain ⟨s₃, w₃, pieces, rfl, hs₃, hl₃, hne₃, hw₃, _, _, h⟩ :=
    takes_word (takesWord_lit (by decide) (by decide)) h
  obtain ⟨s₄, w₄, pieces, rfl, hs₄, hl₄, hne₄, hw₄, _, _, h⟩ := takes_word takesWord_digits h
  obtain ⟨s₅, w₅, pieces, rfl, hs₅, hl₅, hne₅, hw₅, _, _, h⟩ :=
    takes_word (takesWord_lit (by decide) (by decide)) h
  obtain ⟨s₆, w₆, pieces, rfl, hs₆, hl₆, hne₆, hw₆, _, _, h⟩ := takes_word takesWord_digits h
  obtain ⟨s₇, w₇, pieces, rfl, hs₇, hl₇, hne₇, hw₇, _, _, h⟩ :=
    takes_word (takesWord_lit (by decide) (by decide)) h
  obtain ⟨s₈, w₈, pieces, rfl, hs₈, hl₈, hne₈, hw₈, _, _, h⟩ :=
    takes_word (takesWord_lit (by decide) (by decide)) h
  obtain ⟨tail, pieces, after, rfl, htail, h⟩ := takes_cons h
  obtain ⟨trail, pieces, after, rfl, htrail, h⟩ := takes_cons h
  obtain ⟨last, pieces, after, rfl, hlast, h⟩ := takes_cons h
  obtain ⟨rfl, hend⟩ := Regex.lineEnd_iff.mp hlast
  obtain ⟨hwtail, -⟩ := Regex.many_iff.mp htail
  obtain ⟨hstrail, -⟩ := Regex.many_iff.mp htrail
  cases pieces with
  | cons piece pieces => exact h.elim
  | nil =>
      obtain rfl : after = rest := h
      refine ⟨⟨[w₁, w₂, w₃, w₄, w₅, w₆, w₇], rfl, ?_⟩, hend⟩
      have hpath : (w₈ ++ tail).all isWordUnit = true := by
        rw [List.all_append, hw₈]
        exact hwtail
      have hnone : words isSpace trail = [] := by
        have hspaces := Words.words_space hstrail []
        rw [List.append_nil] at hspaces
        exact hspaces
      have hbreaks : breaks isSpace trail = true := by
        cases trail with
        | nil => rfl
        | cons c trail =>
            rw [List.all_cons, Bool.and_eq_true] at hstrail
            exact hstrail.1
      have hflat : [[], s₁, w₁, s₂, w₂, s₃, w₃, s₄, w₄, s₅, w₅, s₆, w₆, s₇, w₇, s₈, w₈, tail,
          trail, []].flatten = s₁ ++ (w₁ ++ (s₂ ++ (w₂ ++ (s₃ ++ (w₃ ++ (s₄ ++ (w₄ ++ (s₅ ++ (w₅ ++
            (s₆ ++ (w₆ ++ (s₇ ++ (w₇ ++ (s₈ ++ ((w₈ ++ tail) ++ trail))))))))))))))) := by
        simp
      rw [hflat, words_next hs₁ hne₁ hw₁ (breaks_of_space hs₂ hl₂),
        words_next hs₂ hne₂ hw₂ (breaks_of_space hs₃ hl₃),
        words_next hs₃ hne₃ hw₃ (breaks_of_space hs₄ hl₄),
        words_next hs₄ hne₄ hw₄ (breaks_of_space hs₅ hl₅),
        words_next hs₅ hne₅ hw₅ (breaks_of_space hs₆ hl₆),
        words_next hs₆ hne₆ hw₆ (breaks_of_space hs₇ hl₇),
        words_next hs₇ hne₇ hw₇ (breaks_of_space hs₈ hl₈),
        words_next hs₈ (List.append_ne_nil_of_left_ne_nil hne₈ tail) hpath hbreaks, hnone]
      rfl

/-! ### Declared members are found -/

theorem takes_item {item : Item} {items : List Item} {before : Option ℕ} {piece after rest : Text}
    {pieces : List Text} (hlength : piece.length ∈ item.lengths before (piece ++ after))
    (h : Takes items (lastUnit before piece) after pieces rest) :
    Takes (item :: items) before (piece ++ after) (piece :: pieces) rest :=
  ⟨after, rfl, hlength, h⟩

theorem takes_nothing {item : Item} {items : List Item} {before : Option ℕ} {text rest : Text}
    {pieces : List Text} (hlength : ([] : Text).length ∈ item.lengths before ([] ++ text))
    (h : Takes items before text pieces rest) :
    Takes (item :: items) before text ([] :: pieces) rest :=
  ⟨text, rfl, hlength, h⟩

/-- A word stands behind spaces, of which there is one at least where a word has ended. -/
theorem words_split {text word : Text} {others : List Text}
    (h : words isSpace text = word :: others) :
    ∃ space rest, text = space ++ (word ++ rest) ∧ space.all isSpace = true ∧
      (breaks isSpace text = true → 1 ≤ space.length) ∧ word ≠ [] ∧
      word.all isWordUnit = true ∧ breaks isSpace rest = true ∧ words isSpace rest = others := by
  obtain ⟨space, rest, rfl, hspace, hne, hall, hrest, hothers⟩ := Words.words_eq_cons h
  refine ⟨space, rest, List.append_assoc _ _ _, hspace, fun hbreaks => ?_, hne, hall, hrest,
    hothers⟩
  cases space with
  | cons c space => simp
  | nil =>
      cases word with
      | nil => exact absurd rfl hne
      | cons c word =>
          have hc : isSpace c = true := by simpa [breaks] using hbreaks
          simp [hc] at hall

/-- Where a line declares a device, `DEVICE` can match. -/
theorem takes_of_declared {line after device : Text} {before : Option ℕ}
    (h : declared line = some device) (hbefore : before = none ∨ before = some 10)
    (hafter : after = [] ∨ after.head? = some 10) :
    (∃ pieces rest, Takes DEVICE before (line ++ after) pieces rest) ∧
      ∃ first : List Text, first.length = 7 ∧ words isSpace line = first ++ [device] := by
  unfold declared at h
  split at h
  · rename_i devid number size total used allocated path last hwords
    split_ifs at h with hform
    obtain rfl : last = device := Option.some.inj h
    obtain ⟨rfl, hnumber, rfl, htotal, rfl, hallocated, rfl, hprefix, hlong⟩ := hform
    refine ⟨?_, ⟨[_, _, _, _, _, _, _], rfl, hwords⟩⟩
    obtain ⟨s₁, r₁, rfl, hs₁, -, -, -, hb₁, hwords⟩ := words_split hwords
    obtain ⟨s₂, r₂, rfl, hs₂, hl₂, hne₂, -, hb₂, hwords⟩ := words_split hwords
    obtain ⟨s₃, r₃, rfl, hs₃, hl₃, -, -, hb₃, hwords⟩ := words_split hwords
    obtain ⟨s₄, r₄, rfl, hs₄, hl₄, hne₄, -, hb₄, hwords⟩ := words_split hwords
    obtain ⟨s₅, r₅, rfl, hs₅, hl₅, -, -, hb₅, hwords⟩ := words_split hwords
    obtain ⟨s₆, r₆, rfl, hs₆, hl₆, hne₆, -, hb₆, hwords⟩ := words_split hwords
    obtain ⟨s₇, r₇, rfl, hs₇, hl₇, -, -, hb₇, hwords⟩ := words_split hwords
    obtain ⟨s₈, r₈, rfl, hs₈, hl₈, -, hw₈, -, hnone⟩ := words_split hwords
    obtain ⟨tail, rfl⟩ := List.isPrefixOf_iff_prefix.mp hprefix
    have htail : tail ≠ [] := by
      rintro rfl
      exact hlong (List.append_nil _).symm
    have hwtail : tail.all isWordUnit = true := by
      rw [List.all_append, Bool.and_eq_true] at hw₈
      exact hw₈.2
    refine ⟨[[], s₁, ascii "devid", s₂, number, s₃, ascii "size", s₄, total, s₅, ascii "used", s₆,
      allocated, s₇, ascii "path", s₈, ascii "/dev/", tail, r₈, []], after, ?_⟩
    simp only [List.append_assoc]
    refine takes_nothing (Regex.lineStart_iff.mpr ⟨rfl, hbefore⟩) ?_
    refine takes_item (Regex.many_iff.mpr ⟨hs₁, Nat.zero_le _⟩) ?_
    refine takes_item (Regex.lit_iff.mpr rfl) ?_
    refine takes_item (Regex.many_iff.mpr ⟨hs₂, hl₂ hb₁⟩) ?_
    refine takes_item (Regex.many_iff.mpr ⟨hnumber, List.length_pos_iff.mpr hne₂⟩) ?_
    refine takes_item (Regex.many_iff.mpr ⟨hs₃, hl₃ hb₂⟩) ?_
    refine takes_item (Regex.lit_iff.mpr rfl) ?_
    refine takes_item (Regex.many_iff.mpr ⟨hs₄, hl₄ hb₃⟩) ?_
    refine takes_item (Regex.many_iff.mpr ⟨htotal, List.length_pos_iff.mpr hne₄⟩) ?_
    refine takes_item (Regex.many_iff.mpr ⟨hs₅, hl₅ hb₄⟩) ?_
    refine takes_item (Regex.lit_iff.mpr rfl) ?_
    refine takes_item (Regex.many_iff.mpr ⟨hs₆, hl₆ hb₅⟩) ?_
    refine takes_item (Regex.many_iff.mpr ⟨hallocated, List.length_pos_iff.mpr hne₆⟩) ?_
    refine takes_item (Regex.many_iff.mpr ⟨hs₇, hl₇ hb₆⟩) ?_
    refine takes_item (Regex.lit_iff.mpr rfl) ?_
    refine takes_item (Regex.many_iff.mpr ⟨hs₈, hl₈ hb₇⟩) ?_
    refine takes_item (Regex.lit_iff.mpr rfl) ?_
    refine takes_item (Regex.many_iff.mpr ⟨hwtail, List.length_pos_iff.mpr htail⟩) ?_
    refine takes_item (Regex.many_iff.mpr ⟨Words.words_eq_nil hnone, Nat.zero_le _⟩) ?_
    exact takes_nothing (Regex.lineEnd_iff.mpr ⟨rfl, hafter⟩) rfl
  · cases h

/-- No device that a line of the report declares is left out. -/
theorem device_found {report line device : Text} (hline : IsLine report line)
    (h : declared line = some device) : device ∈ (findAll DEVICE report).map pathOf := by
  obtain ⟨before, after, rfl, hbefore, hafter, hplain⟩ := hline
  have hstart : lastUnit none before = none ∨ lastUnit none before = some 10 := by
    rcases hbefore with rfl | hlast
    · exact .inl rfl
    · exact .inr (by rw [lastUnit, hlast]; rfl)
  obtain ⟨⟨pieces, rest, htakes⟩, first, hfirst, hwords⟩ := takes_of_declared h hstart hafter
  have hne (before : Option ℕ) (text : Text) (pieces : List Text) (rest : Text)
      (htakes : Takes DEVICE before text pieces rest) : pieces.flatten ≠ [] := by
    intro hempty
    obtain ⟨⟨first, -, hwords⟩, -⟩ := words_device htakes
    rw [hempty] at hwords
    exact List.append_ne_nil_of_right_ne_nil first (by simp) hwords.symm
  have hcovers := Regex.findFrom_covers hne htakes
    (Nat.lt_succ_self (before ++ (line ++ after)).length)
  obtain ⟨found, hfound, reached, skipped, covered, last, hgap, -, hmatch, hlong⟩ := hcovers
  rw [List.append_assoc]
  refine List.mem_map.mpr ⟨found, hfound, ?_⟩
  obtain ⟨⟨others, hothers, hsame⟩, hend⟩ := words_device hmatch
  have hflat := hmatch.flatten
  -- The match reaches the end of the line, and what it covers before and behind is blank.
  obtain ⟨inner, hinner⟩ : covered <+: found.flatten :=
    List.prefix_of_prefix_length_le ⟨_, rfl⟩ ⟨last, hflat.symm⟩ hlong.le
  rw [← hinner, List.append_assoc] at hflat
  have hrest := List.append_cancel_left hflat
  obtain ⟨blank, rfl⟩ : line <+: inner := by
    refine List.prefix_of_prefix_length_le ⟨after, rfl⟩ ⟨last, hrest.symm⟩ ?_
    by_contra hshort
    obtain ⟨beyond, rfl⟩ : inner <+: line :=
      List.prefix_of_prefix_length_le ⟨last, hrest.symm⟩ ⟨after, rfl⟩ (Nat.le_of_not_le hshort)
    rw [List.append_assoc] at hrest
    have hlast := List.append_cancel_left hrest
    cases beyond with
    | nil => simp at hshort
    | cons c beyond =>
        rw [← hlast] at hend
        rcases hend with hnil | hten
        · cases hnil
        · obtain rfl : c = 10 := by simpa using hten
          exact hplain (by simp)
  rw [List.append_assoc] at hrest
  have hblank := List.append_cancel_left hrest
  have hbreaks : breaks isSpace blank = true := by
    cases blank with
    | nil => rfl
    | cons c blank =>
        rw [hblank] at hafter
        rcases hafter with hnil | hten
        · cases hnil
        · obtain rfl : c = 10 := by simpa using hten
          rfl
  have hcovered : covered.getLast?.all isSpace = true := by
    cases hlast : covered.getLast? with
    | none => rfl
    | some c =>
        have hten : before.getLast? = some c := by
          rw [hgap, List.getLast?_append, hlast]
          rfl
        rcases hbefore with rfl | hlast'
        · cases hten
        · rw [hten] at hlast'
          obtain rfl := Option.some.inj hlast'
          decide
  rw [← hinner, Words.words_append (.inr hcovered), Words.words_append (.inl hbreaks), hwords]
    at hsame
  have hlength := congrArg List.length hsame
  simp only [List.length_append, List.length_singleton, hfirst, hothers] at hlength
  have hnone : words isSpace covered = [] := List.length_eq_zero_iff.mp (by omega)
  have hnothing : words isSpace blank = [] := List.length_eq_zero_iff.mp (by omega)
  rw [hnone, hnothing, List.nil_append, List.append_nil] at hsame
  exact (List.cons.inj (List.append_inj hsame (hfirst.trans hothers.symm)).2).1.symm

end Login

end CybexOS
