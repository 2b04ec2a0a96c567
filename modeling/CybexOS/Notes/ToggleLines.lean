/-
Bullets and checklists in the notes editor: toggling the list prefixes of the
lines a selection reaches.
-/
import CybexOS.Lines
import CybexOS.Text
import Mathlib.Data.Int.Notation

namespace CybexOS

namespace Notes

/-! ### Offsets -/

/-- Offsets clamped to the text, the smaller one first. -/
def normalizedSelection (text : Text) (start stop : ℤ) : Nat × Nat :=
  let clamped := fun offset : ℤ => (max 0 (min (text.length : ℤ) offset)).toNat
  let first := clamped start
  let last := clamped stop
  if first > last then (last, first) else (first, last)

/-- The last newline at or before an offset. -/
def lastNewline (s : Text) : Nat → Option Nat
  | 0 => if s[0]? = some 10 then some 0 else none
  | k + 1 => if s[k + 1]? = some 10 then some (k + 1) else lastNewline s k

/-- `source.lastIndexOf("\n", from)`: a negative offset searches from 0. -/
def lastIndexOf (s : Text) (offset : ℤ) : ℤ :=
  match lastNewline s offset.toNat with
  | some i => i
  | none => -1

/-- `source.indexOf("\n", from)`, the length where there is none. -/
def nextNewline (s : Text) (offset : Nat) : Nat :=
  match (s.drop offset).findIdx? (· == 10) with
  | some i => offset + i
  | none => s.length

/-! ### Prefixes -/

def isListMark (c : Nat) : Bool := c == 45 || c == 42 || c == 43

/-- `\[[ xX]\] ` at the start. -/
def isBox : Text → Bool
  | 91 :: c :: 93 :: 32 :: _ => c == 32 || c == 120 || c == 88
  | _ => false

/-- `^(?:[-*+] \[[ xX]\] |[-*+] |[0-9]+[.)] )`, the length of the match. -/
def listPrefixLength (line : Text) : Nat :=
  match line with
  | c :: 32 :: rest =>
      if isListMark c then if isBox rest then 6 else 2 else 0
  | _ =>
      match line.takeWhile isDigit, line.dropWhile isDigit with
      | d :: digits, c :: 32 :: _ => if c == 46 || c == 41 then (d :: digits).length + 2 else 0
      | _, _ => 0

/-- `line.slice(listPrefix(line).length)` -/
def withoutPrefix (line : Text) : Text := line.drop (listPrefixLength line)

/-- `^- \[[ xX]\] `, or `^- ` without the box. -/
def isActive (checklist : Bool) : Text → Bool
  | 45 :: 32 :: rest => isBox rest == checklist
  | _ => false

/-- `- [ ] ` or `- ` -/
def desired (checklist : Bool) : Text :=
  if checklist then [45, 32, 91, 32, 93, 32] else [45, 32]

/-! ### Toggling -/

structure Toggle where
  text : Text
  selectionStart : ℤ
  selectionEnd : ℤ
  cursorPosition : ℤ
deriving DecidableEq

/-- `source.slice(first, last)` -/
def slice (s : Text) (first last : Nat) : Text := (s.take last).drop first

/-- The line of `toggleLines` after its prefix is taken away or put there. -/
def toggleLine (allActive checklist : Bool) (line : Text) : Text :=
  if allActive then withoutPrefix line else desired checklist ++ withoutPrefix line

def toggleLines (source : Text) (start stop : ℤ) (checklist : Bool) : Toggle :=
  let (start, stop) := normalizedSelection source start stop
  let lineStart := (lastIndexOf source (start - 1) + 1).toNat
  let probeEnd := if start < stop ∧ source[stop - 1]? = some 10 then stop - 1 else stop
  let lineEnd := nextNewline source probeEnd
  let lines := (slice source lineStart lineEnd).splitOn 10
  let allActive := lines.all (isActive checklist)
  let transformed := [10].intercalate (lines.map (toggleLine allActive checklist))
  let next := source.take lineStart ++ transformed ++ source.drop lineEnd
  if start ≠ stop then
    { text := next
      selectionStart := lineStart
      selectionEnd := lineStart + transformed.length
      cursorPosition := lineStart + transformed.length }
  else
    let firstExisting : ℤ := listPrefixLength (lines.headD [])
    let delta := if allActive then -firstExisting else (desired checklist).length - firstExisting
    let cursor := max (lineStart : ℤ) (start + delta)
    { text := next, selectionStart := cursor, selectionEnd := cursor, cursorPosition := cursor }

/-! ### What a toggle should do -/

/-- The line of an offset: the newlines before it. -/
def lineOf (s : Text) (offset : Nat) : Nat := (s.take offset).count 10

/-- The lines from the one of the selection's start to the one of its last
unit. -/
def Reached (source : Text) (selection : Nat × Nat) (i : Nat) : Prop :=
  lineOf source selection.1 ≤ i ∧ i ≤ lineOf source (max selection.1 (selection.2 - 1))

/-- Every reached line has the kind. -/
def AllActive (source : Text) (selection : Nat × Nat) (checklist : Bool) : Prop :=
  ∀ i line, Reached source selection i → (source.splitOn 10)[i]? = some line →
    isActive checklist line = true

/-- Only the reached lines change, in their prefix, and the cursor and the
selection stay in the text. -/
structure Toggles (source : Text) (selection : Nat × Nat) (checklist : Bool) (toggle : Toggle) :
    Prop where
  sameCount : (toggle.text.splitOn 10).length = (source.splitOn 10).length
  others : ∀ i, ¬ Reached source selection i →
    (toggle.text.splitOn 10)[i]? = (source.splitOn 10)[i]?
  reached : ∀ i line, Reached source selection i → (source.splitOn 10)[i]? = some line →
    (AllActive source selection checklist →
      (toggle.text.splitOn 10)[i]? = some (withoutPrefix line)) ∧
    (¬ AllActive source selection checklist →
      (toggle.text.splitOn 10)[i]? = some (desired checklist ++ withoutPrefix line))
  selectionInside : 0 ≤ toggle.selectionStart ∧ toggle.selectionStart ≤ toggle.selectionEnd ∧
    toggle.selectionEnd ≤ toggle.text.length
  cursorInside : 0 ≤ toggle.cursorPosition ∧ toggle.cursorPosition ≤ toggle.text.length

/-! ### Offsets of lines -/

theorem normalizedSelection_le (text : Text) (start stop : ℤ) :
    (normalizedSelection text start stop).1 ≤ (normalizedSelection text start stop).2 ∧
      (normalizedSelection text start stop).2 ≤ text.length := by
  unfold normalizedSelection
  dsimp only
  split_ifs <;> constructor <;> omega

theorem lastNewline_spec {s : Text} {k : Nat} :
    (∀ i, lastNewline s k = some i → i ≤ k ∧ s[i]? = some 10 ∧
      ∀ j, i < j → j ≤ k → s[j]? ≠ some 10) ∧
    (lastNewline s k = none → ∀ j ≤ k, s[j]? ≠ some 10) := by
  induction k with
  | zero =>
      rw [lastNewline]
      split_ifs with hc
      · refine ⟨fun i hi => ?_, fun h => (by cases h)⟩
        cases hi
        exact ⟨le_rfl, hc, fun j hj hle => by omega⟩
      · refine ⟨fun i hi => (by cases hi), fun _ j hj => ?_⟩
        rw [Nat.le_zero.mp hj]
        exact hc
  | succ k ih =>
      rw [lastNewline]
      split_ifs with hc
      · refine ⟨fun i hi => ?_, fun h => (by cases h)⟩
        cases hi
        exact ⟨le_rfl, hc, fun j hj hle => by omega⟩
      · have hlater : ∀ j, (j ≤ k → s[j]? ≠ some 10) → j ≤ k + 1 → s[j]? ≠ some 10 := by
          intro j hj hle
          rcases Nat.lt_or_eq_of_le hle with hlt | rfl
          · exact hj (Nat.lt_succ_iff.mp hlt)
          · exact hc
        refine ⟨fun i hi => ?_, fun h j hj => hlater j (fun hle => ih.2 h j hle) hj⟩
        obtain ⟨hle, hget, hnone⟩ := ih.1 i hi
        exact ⟨Nat.le_succ_of_le hle, hget, fun j hj hle' => hlater j (hnone j hj) hle'⟩

/-- The start of the line of an offset, except before a newline at 0. -/
theorem lineStart_spec {s : Text} {start lineStart : Nat} (hstart : ¬ (start = 0 ∧ s[0]? = some 10))
    (h : lineStart = (lastIndexOf s ((start : ℤ) - 1) + 1).toNat) :
    lineStart ≤ start ∧ Lines.Starts 10 s lineStart ∧
      ∀ i, lineStart ≤ i → i < start → s[i]? ≠ some 10 := by
  unfold lastIndexOf at h
  have hoffset : ((start : ℤ) - 1).toNat = start - 1 := by omega
  rw [hoffset] at h
  cases hlast : lastNewline s (start - 1) with
  | none =>
      rw [hlast] at h
      have hzero : lineStart = 0 := by simpa using h
      refine ⟨by omega, Or.inl hzero, fun i _ hi => ?_⟩
      exact lastNewline_spec.2 hlast i (by omega)
  | some i =>
      rw [hlast] at h
      have hsucc : lineStart = i + 1 := by
        simp only at h
        omega
      obtain ⟨hle, hget, hnone⟩ := lastNewline_spec.1 i hlast
      have hpositive : 0 < start := by
        by_contra hzero
        have hi : i = 0 := by omega
        exact hstart ⟨by omega, hi ▸ hget⟩
      exact ⟨by omega, Or.inr ⟨i, hsucc, hget⟩, fun j hj hlt => hnone j (by omega) (by omega)⟩

theorem nextNewline_spec {s : Text} {offset : Nat} (hle : offset ≤ s.length) :
    offset ≤ nextNewline s offset ∧ nextNewline s offset ≤ s.length ∧
      Lines.Ends 10 s (nextNewline s offset) ∧
      ∀ i, offset ≤ i → i < nextNewline s offset → s[i]? ≠ some 10 := by
  unfold nextNewline
  cases hfind : (s.drop offset).findIdx? (· == 10) with
  | none =>
      rw [List.findIdx?_eq_none_iff] at hfind
      refine ⟨hle, le_rfl, Or.inl rfl, fun i hi hlt hget => ?_⟩
      have hmem : 10 ∈ s.drop offset := List.mem_iff_getElem?.mpr
        ⟨i - offset, by rw [List.getElem?_drop, Nat.add_sub_cancel' hi, hget]⟩
      simpa using hfind 10 hmem
  | some i =>
      obtain ⟨hlt, hget, hbefore⟩ := List.findIdx?_eq_some_iff_getElem.mp hfind
      have hinside : i < s.length - offset := by rwa [List.length_drop] at hlt
      rw [List.getElem_drop, beq_iff_eq] at hget
      have hend : offset + i < s.length := by omega
      refine ⟨Nat.le_add_right _ _, hend.le, Or.inr ?_, fun j hj hlt' hget' => ?_⟩
      · exact (List.getElem?_eq_getElem hend).trans (congrArg some hget)
      · have hlt' : j < offset + i := hlt'
        have hj' := hbefore (j - offset) (by omega)
        rw [List.getElem_drop] at hj'
        obtain ⟨_, hvalue⟩ := List.getElem?_eq_some_iff.mp hget'
        simp only [Nat.add_sub_cancel' hj] at hj'
        simp [hvalue] at hj'

/-! ### The lines of the result -/

theorem not_mem_withoutPrefix {line : Text} (h : 10 ∉ line) : 10 ∉ withoutPrefix line :=
  fun hmem => h (List.mem_of_mem_drop hmem)

theorem not_mem_toggleLine {line : Text} (h : 10 ∉ line) (allActive checklist : Bool) :
    10 ∉ toggleLine allActive checklist line := by
  have hdesired : 10 ∉ desired checklist := by
    cases checklist <;> decide
  unfold toggleLine
  split_ifs
  · exact not_mem_withoutPrefix h
  · rw [List.mem_append, not_or]
    exact ⟨hdesired, not_mem_withoutPrefix h⟩

theorem transformed_splitOn {middle : Text} (allActive checklist : Bool) :
    ([10].intercalate ((middle.splitOn 10).map (toggleLine allActive checklist))).splitOn 10 =
      (middle.splitOn 10).map (toggleLine allActive checklist) := by
  refine List.splitOn_intercalate 10 (fun line hline => ?_) ?_
  · obtain ⟨source, hsource, rfl⟩ := List.mem_map.mp hline
    exact not_mem_toggleLine (Lines.not_mem_of_mem_splitOn hsource) allActive checklist
  · rw [Ne, List.map_eq_nil_iff]
    exact List.splitOn_ne_nil 10 middle

theorem around_slice (s : Text) {first last : Nat} (hle : first ≤ last) :
    s.take first ++ slice s first last ++ s.drop last = s := by
  have htake : s.take first = (s.take last).take first := by
    rw [List.take_take, min_eq_left hle]
  rw [slice, htake, List.take_append_drop, List.take_append_drop]

/-- The places of the reached lines: those of the middle. -/
theorem reached_iff {source : Text} {selection : Nat × Nat} {lineStart lineEnd : Nat}
    (hle : lineStart ≤ lineEnd)
    (hfirst : lineOf source selection.1 = (source.take lineStart).count 10)
    (hlast : lineOf source (max selection.1 (selection.2 - 1)) = (source.take lineEnd).count 10)
    (i : Nat) :
    Reached source selection i ↔ (source.take lineStart).count 10 ≤ i ∧
      i < (source.take lineStart).count 10 + ((slice source lineStart lineEnd).splitOn 10).length := by
  have hsplit : (source.take lineEnd).count 10 =
      (source.take lineStart).count 10 + (slice source lineStart lineEnd).count 10 := by
    have htake : source.take lineStart = (source.take lineEnd).take lineStart := by
      rw [List.take_take, min_eq_left hle]
    rw [slice, htake, ← List.count_append, List.take_append_drop]
  rw [Reached, hfirst, hlast, hsplit, Lines.length_splitOn]
  omega

/-- What the offsets of `toggleLines` have to be. -/
structure LineBounds (source : Text) (selection : Nat × Nat) (lineStart lineEnd : Nat) : Prop where
  le_start : lineStart ≤ selection.1
  start_le : selection.1 ≤ lineEnd
  le_length : lineEnd ≤ source.length
  starts : Lines.Starts 10 source lineStart
  ends : Lines.Ends 10 source lineEnd
  first : lineOf source selection.1 = (source.take lineStart).count 10
  last : lineOf source (max selection.1 (selection.2 - 1)) = (source.take lineEnd).count 10
  one : selection.1 = selection.2 →
    ∀ i, lineStart ≤ i → i < lineEnd → source[i]? ≠ some 10

theorem lineBounds {source : Text} {selection : Nat × Nat} {lineStart probeEnd : Nat}
    (hle : selection.1 ≤ selection.2) (hlength : selection.2 ≤ source.length)
    (hstart : ¬ (selection.1 = 0 ∧ source[0]? = some 10))
    (hlineStart : lineStart = (lastIndexOf source ((selection.1 : ℤ) - 1) + 1).toNat)
    (hprobeEnd : probeEnd = if selection.1 < selection.2 ∧ source[selection.2 - 1]? = some 10
      then selection.2 - 1 else selection.2) :
    LineBounds source selection lineStart (nextNewline source probeEnd) := by
  obtain ⟨hbefore, hstarts, hnone⟩ := lineStart_spec hstart hlineStart
  have hprobe : selection.1 ≤ probeEnd ∧ probeEnd ≤ selection.2 := by
    rw [hprobeEnd]
    split_ifs with h <;> omega
  obtain ⟨hafter, hinside, hends, hnone'⟩ :=
    nextNewline_spec (le_trans hprobe.2 hlength)
  refine ⟨hbefore, le_trans hprobe.1 hafter, hinside, hstarts, hends,
    Lines.count_take_eq hbefore hnone, ?_, fun heq i hi hlt => ?_⟩
  · have hprobeLine : lineOf source probeEnd =
        (source.take (nextNewline source probeEnd)).count 10 :=
      (Lines.count_take_eq hafter hnone').symm
    rw [← hprobeLine]
    by_cases hselected : selection.1 < selection.2
    · have hmax : max selection.1 (selection.2 - 1) = selection.2 - 1 := by omega
      rw [hmax]
      by_cases hnewline : source[selection.2 - 1]? = some 10
      · rw [hprobeEnd, if_pos ⟨hselected, hnewline⟩]
      · rw [hprobeEnd, if_neg fun h => hnewline h.2]
        refine (Lines.count_take_eq (Nat.sub_le _ _) fun i hi hlt => ?_).symm
        have hi' : i = selection.2 - 1 := by omega
        exact hi' ▸ hnewline
    · have hmax : max selection.1 (selection.2 - 1) = selection.2 := by omega
      rw [hmax, hprobeEnd, if_neg fun h => hselected h.1]
  · have hprobe' : probeEnd = selection.1 := by omega
    by_cases hlt' : i < selection.1
    · exact hnone i hi hlt'
    · exact hnone' i (by omega) hlt

/-- The text that takes the place of the reached lines. -/
theorem toggles_lines {source : Text} {selection : Nat × Nat} {lineStart lineEnd : Nat}
    (h : LineBounds source selection lineStart lineEnd) (checklist : Bool) {allActive : Bool}
    (hactive : allActive =
      ((slice source lineStart lineEnd).splitOn 10).all (isActive checklist)) {next : Text}
    (hnext : next = source.take lineStart ++ [10].intercalate
      (((slice source lineStart lineEnd).splitOn 10).map (toggleLine allActive checklist)) ++
        source.drop lineEnd) :
    (next.splitOn 10).length = (source.splitOn 10).length ∧
      (∀ i, ¬ Reached source selection i → (next.splitOn 10)[i]? = (source.splitOn 10)[i]?) ∧
      ∀ i line, Reached source selection i → (source.splitOn 10)[i]? = some line →
        (AllActive source selection checklist →
          (next.splitOn 10)[i]? = some (withoutPrefix line)) ∧
        (¬ AllActive source selection checklist →
          (next.splitOn 10)[i]? = some (desired checklist ++ withoutPrefix line)) := by
  have hle : lineStart ≤ lineEnd := le_trans h.le_start h.start_le
  obtain ⟨pre, post, hpre, haround⟩ := Lines.splitOn_around h.starts h.ends
  generalize hlines : (slice source lineStart lineEnd).splitOn 10 = lines at hactive hnext
  have hsource : source.splitOn 10 = pre ++ lines ++ post := by
    rw [← hlines, ← haround, around_slice source hle]
  have hresult : next.splitOn 10 = pre ++ lines.map (toggleLine allActive checklist) ++ post := by
    rw [hnext, haround, ← hlines, transformed_splitOn]
  have hreached : ∀ i, Reached source selection i ↔
      pre.length ≤ i ∧ i < pre.length + lines.length := by
    intro i
    rw [reached_iff hle h.first h.last, hlines, hpre]
  have hmap : lines.length = (lines.map (toggleLine allActive checklist)).length := by
    rw [List.length_map]
  have hkind : AllActive source selection checklist ↔ allActive = true := by
    rw [hactive, List.all_eq_true, AllActive, hsource]
    constructor
    · intro hall line hline
      obtain ⟨j, hj⟩ := List.mem_iff_getElem?.mp hline
      have hlt : j < lines.length := (List.getElem?_eq_some_iff.mp hj).1
      have hi : Reached source selection (pre.length + j) := (hreached _).mpr (by omega)
      refine hall _ line hi ?_
      rw [Lines.getElem?_middle (by omega) (by omega), Nat.add_sub_cancel_left, hj]
    · intro hall i line hi hline
      obtain ⟨hfirst, hlast⟩ := (hreached i).mp hi
      rw [Lines.getElem?_middle hfirst hlast] at hline
      exact hall line (List.mem_of_getElem? hline)
  rw [hresult, hsource]
  refine ⟨by simp, fun i hi => Lines.getElem?_around hmap fun h => hi ((hreached i).mpr h), ?_⟩
  intro i line hi hline
  obtain ⟨hfirst, hlast⟩ := (hreached i).mp hi
  rw [Lines.getElem?_middle hfirst hlast] at hline
  rw [Lines.getElem?_middle hfirst (hmap ▸ hlast), List.getElem?_map, hline, Option.map_some,
    toggleLine]
  exact ⟨fun hall => by rw [if_pos (hkind.mp hall)],
    fun hnot => by rw [if_neg fun h => hnot (hkind.mpr h)]⟩

/-! ### Where the toggle does what it should -/

theorem listPrefixLength_le (line : Text) : listPrefixLength line ≤ line.length := by
  have hbox : ∀ rest, isBox rest = true → 4 ≤ rest.length := by
    intro rest h
    unfold isBox at h
    split at h
    · simp only [List.length_cons]
      omega
    · cases h
  unfold listPrefixLength
  split
  · next c rest =>
    split_ifs with _ h
    · have := hbox rest h
      simp only [List.length_cons]
      omega
    · simp
    · exact Nat.zero_le _
  · have hsplit := congrArg List.length (List.takeWhile_append_dropWhile (p := isDigit) (l := line))
    split
    · next d digits c rest hdigits hrest =>
      rw [hdigits, hrest, List.length_append] at hsplit
      simp only [List.length_cons] at hsplit ⊢
      split_ifs <;> omega
    · exact Nat.zero_le _

theorem length_toggleLine (allActive checklist : Bool) (line : Text) :
    ((toggleLine allActive checklist line).length : ℤ) = line.length +
      (if allActive then -(listPrefixLength line : ℤ)
        else (desired checklist).length - (listPrefixLength line : ℤ)) := by
  have hle := listPrefixLength_le line
  unfold toggleLine withoutPrefix
  split_ifs
  · rw [List.length_drop]
    omega
  · rw [List.length_append, List.length_drop]
    omega

theorem not_mem_slice {s : Text} {first last : Nat}
    (h : ∀ i, first ≤ i → i < last → s[i]? ≠ some 10) : 10 ∉ slice s first last := by
  intro hmem
  obtain ⟨i, hi⟩ := List.mem_iff_getElem?.mp hmem
  rw [slice, List.getElem?_drop] at hi
  have hlt : first + i < last := by
    have hinside := (List.getElem?_eq_some_iff.mp hi).1
    rw [List.length_take] at hinside
    omega
  rw [List.getElem?_take_of_lt hlt] at hi
  exact h (first + i) (Nat.le_add_right _ _) hlt hi

theorem length_slice {s : Text} {first last : Nat} (hlast : last ≤ s.length) :
    (slice s first last).length = last - first := by
  rw [slice, List.length_drop, List.length_take, min_eq_left hlast]

theorem toggles_of_start {source : Text} {start stop : ℤ} (checklist : Bool)
    (hstart : ¬ ((normalizedSelection source start stop).1 = 0 ∧ source[0]? = some 10)) :
    Toggles source (normalizedSelection source start stop) checklist
      (toggleLines source start stop checklist) := by
  obtain ⟨hle, hlength⟩ := normalizedSelection_le source start stop
  unfold toggleLines
  generalize normalizedSelection source start stop = selection at hstart hle hlength ⊢
  obtain ⟨first, last⟩ := selection
  have hbounds := lineBounds hle hlength hstart rfl rfl
  dsimp only at hbounds hle ⊢
  generalize (lastIndexOf source ((first : ℤ) - 1) + 1).toNat = lineStart at hbounds ⊢
  generalize nextNewline source _ = lineEnd at hbounds ⊢
  obtain ⟨hcount, hothers, hreached⟩ := toggles_lines hbounds checklist rfl rfl
  have hfirst : lineStart ≤ first ∧ first ≤ lineEnd := ⟨hbounds.le_start, hbounds.start_le⟩
  have hinside : lineEnd ≤ source.length := hbounds.le_length
  have hone : first = last → (slice source lineStart lineEnd).splitOn 10 =
      [slice source lineStart lineEnd] := fun heq =>
    List.splitOn_eq_singleton (not_mem_slice (hbounds.one heq))
  have hline : (slice source lineStart lineEnd).length = lineEnd - lineStart :=
    length_slice hinside
  generalize ((slice source lineStart lineEnd).splitOn 10).all (isActive checklist) = allActive at *
  by_cases hsame : first = last
  · have hcursor := length_toggleLine allActive checklist (slice source lineStart lineEnd)
    rw [if_neg (not_not.mpr hsame)]
    rw [hone hsame, List.map_singleton, List.intercalate_singleton] at hcount hothers hreached ⊢
    rw [List.headD_cons]
    generalize hdelta : (if allActive then -(listPrefixLength (slice source lineStart lineEnd) : ℤ)
      else (desired checklist).length - (listPrefixLength (slice source lineStart lineEnd) : ℤ)) =
        delta at hcursor ⊢
    refine ⟨hcount, hothers, hreached, ?_, ?_⟩
    all_goals
      simp only [List.length_append, List.length_take, List.length_drop]
      omega
  · rw [if_pos hsame]
    refine ⟨hcount, hothers, hreached, ?_, ?_⟩
    all_goals
      simp only [List.length_append, List.length_take, List.length_drop]
      omega

/-- With the selection at 0 before a newline, the first line keeps its empty
text. -/
theorem not_toggles_of_newline {source : Text} {start stop : ℤ} (checklist : Bool)
    (hstart : (normalizedSelection source start stop).1 = 0) (hnewline : source[0]? = some 10) :
    ¬ Toggles source (normalizedSelection source start stop) checklist
      (toggleLines source start stop checklist) := by
  intro h
  obtain ⟨rest, rfl⟩ : ∃ rest, source = 10 :: rest := by
    cases source with
    | nil => cases hnewline
    | cons c rest => exact ⟨rest, by rw [Option.some.inj hnewline]⟩
  have hfirst : (10 :: rest : Text).splitOn 10 = [] :: rest.splitOn 10 :=
    List.splitOn_append_cons_self [] rest
  have hreached : Reached (10 :: rest) (normalizedSelection (10 :: rest) start stop) 0 := by
    rw [Reached, hstart]
    exact ⟨le_rfl, Nat.zero_le _⟩
  have hline : ((10 :: rest : Text).splitOn 10)[0]? = some [] := by rw [hfirst]; rfl
  have hnot : ¬ AllActive (10 :: rest) (normalizedSelection (10 :: rest) start stop) checklist :=
    fun hall => absurd (hall 0 [] hreached hline) (by simp [isActive])
  have hwanted := (h.reached 0 [] hreached hline).2 hnot
  have htext : ∃ more, (toggleLines (10 :: rest) start stop checklist).text = 10 :: more := by
    unfold toggleLines
    generalize normalizedSelection (10 :: rest) start stop = selection at hstart ⊢
    obtain ⟨first, last⟩ := selection
    dsimp only at hstart ⊢
    subst hstart
    have hlast : lastIndexOf (10 :: rest) (((0 : Nat) : ℤ) - 1) = 0 := rfl
    rw [hlast]
    split_ifs <;> exact ⟨_, rfl⟩
  obtain ⟨more, hmore⟩ := htext
  have hkept : ((10 :: more : Text).splitOn 10)[0]? = some [] := by
    have hsplit : (10 :: more : Text).splitOn 10 = [] :: more.splitOn 10 :=
      List.splitOn_append_cons_self [] more
    rw [hsplit]
    rfl
  rw [hmore, hkept] at hwanted
  cases checklist <;> cases hwanted

/-- A toggle rewrites the prefixes of the reached lines and nothing else,
except where the selection starts at 0 and the text with a newline. -/
theorem toggleLines_toggles_iff (source : Text) (start stop : ℤ) (checklist : Bool) :
    Toggles source (normalizedSelection source start stop) checklist
        (toggleLines source start stop checklist) ↔
      ¬ ((normalizedSelection source start stop).1 = 0 ∧ source[0]? = some 10) :=
  ⟨fun h hbad => not_toggles_of_newline checklist hbad.1 hbad.2 h, toggles_of_start checklist⟩

/-- A bullet on an empty first line adds a line instead. -/
theorem toggle_on_empty_first_line :
    (toggleLines (ascii "\nab") 0 0 false).text = ascii "\n- \nab" ∧
      ¬ Toggles (ascii "\nab") (normalizedSelection (ascii "\nab") 0 0) false
        (toggleLines (ascii "\nab") 0 0 false) := by
  refine ⟨by decide +kernel, fun h => ?_⟩
  have hcount := h.sameCount
  revert hcount
  decide +kernel

end Notes

end CybexOS
