/-
Regular expressions without alternatives, matched by backtracking from the
longest attempt on, and all their matches in a text.
-/
import CybexOS.Text

namespace CybexOS

namespace Regex

/-- One part of an expression. -/
inductive Item where
  /-- These units. -/
  | lit (text : Text)
  /-- As many such units as there are, but at least so many. -/
  | many (allowed : ℕ → Bool) (least : ℕ)
  /-- So many such units. -/
  | times (allowed : ℕ → Bool) (count : ℕ)
  /-- `^` and `$` of lines. -/
  | lineStart
  | lineEnd
  /-- `\b`, by what the units of a word are. -/
  | wordEdge (isWord : ℕ → Bool)

/-- How many units stand at the beginning that are allowed. -/
def reach (allowed : ℕ → Bool) (text : Text) : ℕ := (text.takeWhile allowed).length

def Item.lengths (item : Item) (before : Option ℕ) (text : Text) : List ℕ :=
  match item with
  | .lit expected => if expected.isPrefixOf text then [expected.length] else []
  | .many allowed least => (List.range (reach allowed text + 1)).reverse.filter (least ≤ ·)
  | .times allowed count => if count ≤ reach allowed text then [count] else []
  | .lineStart => if before = none ∨ before = some 10 then [0] else []
  | .lineEnd => if text.head? = none ∨ text.head? = some 10 then [0] else []
  | .wordEdge isWord => if before.any isWord ≠ text.head?.any isWord then [0] else []

/-- The unit before what follows a piece. -/
def lastUnit (before : Option ℕ) (piece : Text) : Option ℕ := piece.getLast?.or before

/-- What each item takes of a text, and the rest. -/
def matchItems : List Item → Option ℕ → Text → Option (List Text × Text)
  | [], _, text => some ([], text)
  | item :: items, before, text =>
      (item.lengths before text).findSome? fun length =>
        (matchItems items (lastUnit before (text.take length)) (text.drop length)).map fun found =>
          (text.take length :: found.1, found.2)

/-- The matches from left to right, none of them in another one. -/
def findFrom (items : List Item) : ℕ → Option ℕ → Text → List (List Text)
  | 0, _, _ => []
  | fuel + 1, before, text =>
      match matchItems items before text, text with
      | some (pieces, rest), c :: after =>
          if pieces.flatten = [] then pieces :: findFrom items fuel (some c) after
          else pieces :: findFrom items fuel (lastUnit before pieces.flatten) rest
      | some (pieces, _), [] => [pieces]
      | none, c :: after => findFrom items fuel (some c) after
      | none, [] => []

/-- `re.findall`, with a piece for each item. -/
def findAll (items : List Item) (text : Text) : List (List Text) :=
  findFrom items (text.length + 1) none text

/-! ### Matches -/

/-- The items take these pieces, one after another. -/
def Takes : List Item → Option ℕ → Text → List Text → Text → Prop
  | [], _, text, [], rest => text = rest
  | item :: items, before, text, piece :: pieces, rest =>
      ∃ after, text = piece ++ after ∧ piece.length ∈ item.lengths before text ∧
        Takes items (lastUnit before piece) after pieces rest
  | _, _, _, _, _ => False

theorem reach_le (allowed : ℕ → Bool) (text : Text) : reach allowed text ≤ text.length :=
  (List.takeWhile_prefix allowed).length_le

theorem reach_append {allowed : ℕ → Bool} {piece : Text} (h : piece.all allowed = true)
    (after : Text) : piece.length ≤ reach allowed (piece ++ after) := by
  unfold reach
  rw [List.takeWhile_append_of_pos (List.all_eq_true.mp h), List.length_append]
  exact Nat.le_add_right _ _

theorem mem_lengths_many {allowed : ℕ → Bool} {least length : ℕ} {before : Option ℕ}
    {text : Text} : length ∈ (Item.many allowed least).lengths before text ↔
      least ≤ length ∧ length ≤ reach allowed text := by
  simp [Item.lengths, Nat.lt_succ_iff, and_comm]

theorem lengths_le {item : Item} {before : Option ℕ} {text : Text} {length : ℕ}
    (h : length ∈ item.lengths before text) : length ≤ text.length := by
  cases item with
  | lit expected =>
      unfold Item.lengths at h
      dsimp only at h
      split_ifs at h with hfits
      · rw [List.mem_singleton.mp h]
        exact (List.isPrefixOf_iff_prefix.mp hfits).length_le
      · cases h
  | many allowed least => exact (mem_lengths_many.mp h).2.trans (reach_le allowed text)
  | times allowed count =>
      unfold Item.lengths at h
      dsimp only at h
      split_ifs at h with hfits
      · rw [List.mem_singleton.mp h]
        exact hfits.trans (reach_le allowed text)
      · cases h
  | lineStart | lineEnd | wordEdge isWord =>
      unfold Item.lengths at h
      dsimp only at h
      split_ifs at h
      · rw [List.mem_singleton.mp h]
        exact Nat.zero_le _
      · cases h

/-! ### Pieces -/

theorem many_iff {allowed : ℕ → Bool} {least : ℕ} {before : Option ℕ} {piece after : Text} :
    piece.length ∈ (Item.many allowed least).lengths before (piece ++ after) ↔
      piece.all allowed = true ∧ least ≤ piece.length := by
  rw [mem_lengths_many]
  constructor
  · rintro ⟨hleast, hreach⟩
    have hstarts : piece <+: (piece ++ after).takeWhile allowed :=
      List.prefix_of_prefix_length_le ⟨after, rfl⟩ ( List.takeWhile_prefix _) hreach
    refine ⟨List.all_eq_true.mpr fun c hc => ?_, hleast⟩
    exact List.mem_takeWhile_imp (hstarts.subset hc)
  · rintro ⟨hall, hleast⟩
    exact ⟨hleast, reach_append hall after⟩

theorem lit_iff {text : Text} {before : Option ℕ} {piece after : Text} :
    piece.length ∈ (Item.lit text).lengths before (piece ++ after) ↔ piece = text := by
  unfold Item.lengths
  dsimp only
  constructor
  · intro h
    split_ifs at h with hfits
    · obtain ⟨rest, hrest⟩ := List.isPrefixOf_iff_prefix.mp hfits
      exact (List.append_inj hrest (List.mem_singleton.mp h).symm).1.symm
    · cases h
  · rintro rfl
    have hfits : piece.isPrefixOf (piece ++ after) = true :=
      List.isPrefixOf_iff_prefix.mpr ⟨after, rfl⟩
    rw [if_pos hfits]
    exact List.mem_singleton_self _

theorem lineStart_iff {before : Option ℕ} {piece after : Text} :
    piece.length ∈ Item.lineStart.lengths before (piece ++ after) ↔
      piece = [] ∧ (before = none ∨ before = some 10) := by
  unfold Item.lengths
  dsimp only
  split_ifs with hstart <;> simp [hstart]

theorem lineEnd_iff {before : Option ℕ} {piece after : Text} :
    piece.length ∈ Item.lineEnd.lengths before (piece ++ after) ↔
      piece = [] ∧ (after = [] ∨ after.head? = some 10) := by
  unfold Item.lengths
  dsimp only
  constructor
  · intro h
    split_ifs at h with hend
    · obtain rfl : piece = [] := List.length_eq_zero_iff.mp (List.mem_singleton.mp h)
      simpa using hend
    · cases h
  · rintro ⟨rfl, hend⟩
    have hend' : ([] ++ after).head? = none ∨ ([] ++ after).head? = some 10 := by simpa using hend
    rw [if_pos hend']
    exact List.mem_singleton_self _

theorem takes_of_match {items : List Item} {before : Option ℕ} {text rest : Text}
    {pieces : List Text} (h : matchItems items before text = some (pieces, rest)) :
    Takes items before text pieces rest := by
  induction items generalizing before text pieces with
  | nil =>
      cases h
      rfl
  | cons item items ih =>
      rw [matchItems] at h
      obtain ⟨length, hlength, hfound⟩ := List.exists_of_findSome?_eq_some h
      obtain ⟨found, hitems, hpieces⟩ := Option.map_eq_some_iff.mp hfound
      cases hpieces
      refine ⟨text.drop length, (List.take_append_drop length text).symm, ?_, ih hitems⟩
      rwa [List.length_take, Nat.min_eq_left (lengths_le hlength)]

/-- Where an expression can match it does, perhaps with other pieces. -/
theorem match_of_takes {items : List Item} {before : Option ℕ} {text rest : Text}
    {pieces : List Text} (h : Takes items before text pieces rest) :
    ∃ found, matchItems items before text = some found := by
  induction items generalizing before text pieces with
  | nil => exact ⟨_, rfl⟩
  | cons item items ih =>
      cases pieces with
      | nil => exact h.elim
      | cons piece pieces =>
          obtain ⟨after, rfl, hlength, hitems⟩ := h
          obtain ⟨found, hfound⟩ := ih hitems
          rw [matchItems, ← Option.isSome_iff_exists, List.findSome?_isSome_iff]
          refine ⟨piece.length, hlength, ?_⟩
          rw [List.take_left, List.drop_left, hfound]
          rfl

/-- The pieces and the rest make up the text. -/
theorem Takes.flatten {items : List Item} {before : Option ℕ} {text rest : Text}
    {pieces : List Text} (h : Takes items before text pieces rest) :
    text = pieces.flatten ++ rest := by
  induction items generalizing before text pieces with
  | nil =>
      cases pieces with
      | nil => exact h
      | cons piece pieces => exact h.elim
  | cons item items ih =>
      cases pieces with
      | nil => exact h.elim
      | cons piece pieces =>
          obtain ⟨after, rfl, -, hitems⟩ := h
          rw [List.flatten_cons, List.append_assoc, ← ih hitems]

/-! ### All matches -/

theorem lastUnit_append (before : Option ℕ) (piece after : Text) :
    lastUnit (lastUnit before piece) after = lastUnit before (piece ++ after) := by
  unfold lastUnit
  rw [List.getLast?_append]
  cases after.getLast? <;> rfl

/-- Where an expression can match, a match is found that begins there or before and
goes on behind. -/
theorem findFrom_covers {items : List Item} {before : Option ℕ} {gap target rest : Text}
    {pieces : List Text} {fuel : ℕ}
    (hne : ∀ before text pieces rest, Takes items before text pieces rest → pieces.flatten ≠ [])
    (h : Takes items (lastUnit before gap) target pieces rest)
    (hfuel : (gap ++ target).length < fuel) :
    ∃ found ∈ findFrom items fuel before (gap ++ target), ∃ reached skipped covered rest,
      gap = skipped ++ covered ∧ reached = lastUnit before skipped ∧
        Takes items reached (covered ++ target) found rest ∧
        covered.length < found.flatten.length := by
  induction fuel generalizing before gap with
  | zero => cases hfuel
  | succ fuel ih =>
      have hsome : target ≠ [] := by
        rintro rfl
        have hflat := h.flatten
        exact hne _ _ _ _ h (List.append_eq_nil_iff.mp hflat.symm).1
      obtain ⟨c, after, htext⟩ := List.exists_cons_of_ne_nil
        (List.append_ne_nil_of_right_ne_nil gap hsome)
      cases hmatch : matchItems items before (gap ++ target) with
      | some result =>
          obtain ⟨found, rest⟩ := result
          have htakes := takes_of_match hmatch
          have hfound := hne _ _ _ _ htakes
          have hfind : findFrom items (fuel + 1) before (gap ++ target) =
              found :: findFrom items fuel (lastUnit before found.flatten) rest := by
            conv_lhs => unfold findFrom
            rw [hmatch, htext]
            exact if_neg hfound
          by_cases hcover : gap.length < found.flatten.length
          · rw [hfind]
            exact ⟨found, List.mem_cons_self, _, [], gap, rest, rfl, rfl, htakes, hcover⟩
          · obtain ⟨gap', rfl⟩ : found.flatten <+: gap := by
              refine List.prefix_of_prefix_length_le ⟨rest, htakes.flatten.symm⟩
                (List.prefix_append gap target) (Nat.le_of_not_lt hcover)
            have hrest : rest = gap' ++ target := by
              have hflat := htakes.flatten
              rw [List.append_assoc] at hflat
              exact (List.append_cancel_left hflat).symm
            rw [← lastUnit_append] at h
            have hshort : (gap' ++ target).length < fuel := by
              have hpos := List.length_pos_iff.mpr hfound
              simp only [List.length_append] at hfuel ⊢
              omega
            obtain ⟨other, hother, reached, skipped, covered, last, rfl, hreached, hrun⟩ :=
              ih h hshort
            rw [hfind, hrest]
            refine ⟨other, List.mem_cons_of_mem _ hother, reached, found.flatten ++ skipped,
              covered, last, (List.append_assoc _ _ _).symm, ?_, hrun⟩
            rw [hreached, lastUnit_append]
      | none =>
          cases gap with
          | nil =>
              obtain ⟨found, hfound⟩ := match_of_takes h
              rw [List.nil_append] at hmatch
              have hsame : lastUnit before [] = before := rfl
              rw [hsame, hmatch] at hfound
              cases hfound
          | cons unit gap =>
              have hfind : findFrom items (fuel + 1) before (unit :: gap ++ target) =
                  findFrom items fuel (some unit) (gap ++ target) := by
                conv_lhs => unfold findFrom
                rw [hmatch]
                rfl
              have hlast : lastUnit (some unit) gap = lastUnit before (unit :: gap) := by
                rw [← List.singleton_append, ← lastUnit_append]
                rfl
              rw [← hlast] at h
              obtain ⟨other, hother, reached, skipped, covered, last, rfl, hreached, hrun⟩ :=
                ih h (by simpa using hfuel)
              rw [hfind]
              refine ⟨other, hother, reached, unit :: skipped, covered, last, rfl, ?_, hrun⟩
              rw [hreached, ← List.singleton_append, ← lastUnit_append]
              rfl

end Regex

end CybexOS
