/-
`moveWidget` of `LayoutHelpers.js`: a widget taken out of one column of the bar
and put into another or the same one.
-/
import CybexOS.Settings.Mods

namespace CybexOS

namespace Bar

open Settings (Column)

/-- The members of an entry that are kept, its flags of any kind. -/
structure Widget (On Detail : Type) where
  id : Text
  on : On
  detail : Detail
deriving DecidableEq

variable {On Detail : Type}

/-- The column of a name, if the name is known. -/
def columnNamed (name : Text) : Option Column := Column.all.find? (·.key = name)

/-- A layout by columns; a missing layout or column is empty. -/
abbrev Mods (On Detail : Type) := Option (Column → Option (List (Widget On Detail)))

/-- The copy of `mods` that is worked on. -/
def next (mods : Mods On Detail) (col : Column) : List (Widget On Detail) :=
  ((mods.bind fun columns => columns col)).getD []

def clamp {α : Type} [LinearOrder α] (value low high : α) : α := max low (min high value)

/-- `list.splice(at, 0, entry)` -/
def spliceIn {α : Type} (at' : ℕ) (entry : α) (list : List α) : List α :=
  list.take at' ++ entry :: list.drop at'

structure Moved (On Detail : Type) where
  mods : Column → List (Widget On Detail)
  col : Text
  idx : ℕ

def moveWidget (mods : Mods On Detail) (fromCol id toCol : Text) (index : ℤ) :
    Option (Moved On Detail) := do
  let source ← columnNamed fromCol
  let target ← columnNamed toCol
  let from' ← (next mods source).findIdx? (·.id = id)
  let entry ← (next mods source)[from']?
  let asked := (clamp index 0 (next mods target).length).toNat
  let removed := Function.update (next mods) source ((next mods source).eraseIdx from')
  let to' := if target = source ∧ from' < asked then asked - 1 else asked
  pure ⟨Function.update removed target (spliceIn to' entry (removed target)), toCol, to'⟩

/-! ### Lists -/

section Lists

variable {α : Type} {l : List α} {f n : ℕ}

/-- An index counted before the removal, as one counted after it. -/
def shifted (f n : ℕ) : ℕ := if f < n then n - 1 else n

/-- What stood before an index stands before the shifted one. -/
theorem take_eraseIdx :
    (l.eraseIdx f).take (shifted f n) = (l.take n).eraseIdx f := by
  apply List.ext_getElem?
  intro i
  unfold shifted
  rw [List.getElem?_take, List.getElem?_eraseIdx, List.getElem?_eraseIdx]
  split_ifs <;> grind

/-- What stood at an index stands at the shifted one, unless it was removed. -/
theorem head?_drop_eraseIdx (hne : n ≠ f) :
    ((l.eraseIdx f).drop (shifted f n)).head? = l[n]? := by
  unfold shifted
  rw [List.head?_drop, List.getElem?_eraseIdx]
  split_ifs <;> grind

end Lists

/-! ### Columns -/

/-- All entries of a layout. -/
def entries (columns : Column → List (Widget On Detail)) : List (Widget On Detail) :=
  Column.all.flatMap columns

theorem entries_update (columns : Column → List (Widget On Detail)) (col : Column) :
    ∃ before after, ∀ list, entries (Function.update columns col list) = before ++ list ++ after := by
  cases col with
  | left =>
      refine ⟨[], columns .center ++ columns .right, fun list => ?_⟩
      simp [entries, Column.all]
  | center =>
      refine ⟨columns .left, columns .right, fun list => ?_⟩
      simp [entries, Column.all]
  | right =>
      refine ⟨columns .left ++ columns .center, [], fun list => ?_⟩
      simp [entries, Column.all]

theorem entries_insert (columns : Column → List (Widget On Detail)) {col : Column}
    {before after : List (Widget On Detail)} (h : columns col = before ++ after)
    (entry : Widget On Detail) :
    (entries (Function.update columns col (before ++ entry :: after))).Perm
      (entry :: entries columns) := by
  obtain ⟨front, back, hentries⟩ := entries_update columns col
  have hsame : entries columns = front ++ (before ++ after) ++ back := by
    rw [← hentries, ← h, Function.update_eq_self]
  rw [hentries, hsame]
  simp only [List.append_assoc, List.cons_append]
  rw [← List.append_assoc, ← List.append_assoc front before (after ++ back)]
  exact List.perm_middle

theorem entries_erase (columns : Column → List (Widget On Detail)) {col : Column} {f : ℕ}
    {entry : Widget On Detail} (h : (columns col)[f]? = some entry) :
    (entry :: entries (Function.update columns col ((columns col).eraseIdx f))).Perm
      (entries columns) := by
  obtain ⟨hlt, hget⟩ := List.getElem?_eq_some_iff.mp h
  have hsplit : (columns col).eraseIdx f = (columns col).take f ++ (columns col).drop (f + 1) :=
    List.eraseIdx_eq_take_drop_succ _ _
  have hback := entries_insert (Function.update columns col ((columns col).eraseIdx f))
    (by rw [Function.update_self]; exact hsplit) entry
  rw [Function.update_idem] at hback
  have hold : (columns col).take f ++ entry :: (columns col).drop (f + 1) = columns col := by
    rw [← hget, ← List.drop_eq_getElem_cons hlt, List.take_append_drop]
  rw [hold, Function.update_eq_self] at hback
  exact hback.symm

/-! ### The move -/

/-- The column as it stood, without the moved entry if that came from it. -/
def without (source : Column) (f : ℕ) (col : Column) (list : List (Widget On Detail)) :
    List (Widget On Detail) :=
  if col = source then list.eraseIdx f else list

theorem moveWidget_eq_some {mods : Mods On Detail} {fromCol id toCol : Text} {index : ℤ}
    {result : Moved On Detail} (h : moveWidget mods fromCol id toCol index = some result) :
    ∃ source target f entry asked, columnNamed fromCol = some source ∧
      columnNamed toCol = some target ∧ (next mods source).findIdx? (·.id = id) = some f ∧
      (next mods source)[f]? = some entry ∧ entry.id = id ∧
      asked = (clamp index 0 (next mods target).length).toNat ∧
      result.col = toCol ∧ result.idx = (if target = source then shifted f asked else asked) ∧
      result.mods = Function.update
        (Function.update (next mods) source ((next mods source).eraseIdx f)) target
        (spliceIn result.idx entry (without source f target (next mods target))) := by
  unfold moveWidget at h
  obtain ⟨source, hsource, h⟩ := Option.bind_eq_some_iff.mp h
  obtain ⟨target, htarget, h⟩ := Option.bind_eq_some_iff.mp h
  obtain ⟨f, hf, h⟩ := Option.bind_eq_some_iff.mp h
  obtain ⟨entry, hentry, h⟩ := Option.bind_eq_some_iff.mp h
  cases h
  have hid : entry.id = id := by
    obtain ⟨hlt, hfound, -⟩ := List.findIdx?_eq_some_iff_getElem.mp hf
    obtain ⟨_, hget⟩ := List.getElem?_eq_some_iff.mp hentry
    rw [hget] at hfound
    exact of_decide_eq_true hfound
  refine ⟨source, target, f, entry, _, hsource, htarget, hf, hentry, hid, rfl, rfl, ?_, ?_⟩
  · by_cases hsame : target = source <;> simp [hsame, shifted]
  · by_cases hsame : target = source
    · rw [hsame]
      simp [without]
    · simp [without, hsame]

theorem moveWidget_eq_none {mods : Mods On Detail} {fromCol id toCol : Text} {index : ℤ} :
    moveWidget mods fromCol id toCol index = none ↔
      columnNamed fromCol = none ∨ columnNamed toCol = none ∨
        ∃ source, columnNamed fromCol = some source ∧ ∀ entry ∈ next mods source, entry.id ≠ id := by
  unfold moveWidget
  cases hsource : columnNamed fromCol with
  | none => simp
  | some source =>
      cases htarget : columnNamed toCol with
      | none => simp
      | some target =>
          cases hf : (next mods source).findIdx? (·.id = id) with
          | none =>
              have habsent : ∀ entry ∈ next mods source, entry.id ≠ id := fun entry h =>
                of_decide_eq_false (List.findIdx?_eq_none_iff.mp hf entry h)
              simp only [Option.bind_eq_bind, Option.bind_some, hf, Option.bind_none, true_iff]
              exact Or.inr (Or.inr ⟨source, rfl, habsent⟩)
          | some f =>
              obtain ⟨hlt, hfound, -⟩ := List.findIdx?_eq_some_iff_getElem.mp hf
              have hget : (next mods source)[f]? = some (next mods source)[f] :=
                List.getElem?_eq_getElem hlt
              have hmem : (next mods source)[f] ∈ next mods source := List.getElem_mem hlt
              simp only [Option.bind_eq_bind, Option.bind_some, hf, hget]
              simp only [Option.pure_def, reduceCtorEq, Option.some.injEq, exists_eq_left', false_or,
                false_iff, not_forall, not_not]
              exact ⟨_, hmem, of_decide_eq_true hfound⟩

/-- Every move is a removal and an insertion where the index pointed. -/
theorem moveWidget_moves (mods : Mods On Detail) (fromCol id toCol : Text) (index : ℤ) :
    (moveWidget mods fromCol id toCol index = none ↔
      columnNamed fromCol = none ∨ columnNamed toCol = none ∨
        ∃ source, columnNamed fromCol = some source ∧
          ∀ entry ∈ next mods source, entry.id ≠ id) ∧
    ∀ result, moveWidget mods fromCol id toCol index = some result →
      (entries result.mods).Perm (entries (next mods)) ∧
      ∃ source target f entry, columnNamed fromCol = some source ∧
        columnNamed toCol = some target ∧ result.col = toCol ∧
        (next mods source)[f]? = some entry ∧ entry.id = id ∧
        (∀ col, col ≠ target → result.mods col = without source f col (next mods col)) ∧
        ∃ before after, result.mods target = before ++ entry :: after ∧
          before.length = result.idx ∧
          before ++ after = without source f target (next mods target) ∧
          (∀ n : ℕ, index = n → n < (next mods target).length → (target = source → n ≠ f) →
            before = without source f target ((next mods target).take n) ∧
              after.head? = (next mods target)[n]?) ∧
          ((next mods target).length ≤ index → after = []) := by
  refine ⟨moveWidget_eq_none, fun result h => ?_⟩
  obtain ⟨source, target, f, entry, asked, hsource, htarget, -, hentry, hid, hasked, hcol, hidx,
    hmods⟩ := moveWidget_eq_some h
  obtain ⟨hf, -⟩ := List.getElem?_eq_some_iff.mp hentry
  have hrange : asked ≤ (next mods target).length := by
    rw [hasked]
    unfold clamp
    omega
  have hother : ∀ col, col ≠ target → result.mods col = without source f col (next mods col) := by
    intro col hne
    rw [hmods, Function.update_of_ne hne]
    by_cases hsame : col = source
    · rw [hsame, Function.update_self, without, if_pos rfl]
    · rw [Function.update_of_ne hsame, without, if_neg hsame]
  have hself : result.mods target =
      spliceIn result.idx entry (without source f target (next mods target)) := by
    rw [hmods, Function.update_self]
  have hlength : result.idx ≤ (without source f target (next mods target)).length := by
    rw [hidx]
    unfold without shifted
    by_cases hsame : target = source
    · rw [if_pos hsame, if_pos hsame]
      rw [hsame] at hrange ⊢
      rw [List.length_eraseIdx_of_lt hf]
      split_ifs <;> omega
    · rw [if_neg hsame, if_neg hsame]
      exact hrange
  refine ⟨?_, source, target, f, entry, hsource, htarget, hcol, hentry, hid, hother,
    (without source f target (next mods target)).take result.idx,
    (without source f target (next mods target)).drop result.idx, hself,
    List.length_take_of_le hlength, List.take_append_drop _ _, ?_, ?_⟩
  · have hcolumn : Function.update (next mods) source ((next mods source).eraseIdx f) target =
        without source f target (next mods target) := by
      by_cases hsame : target = source
      · rw [hsame, Function.update_self, without, if_pos rfl]
      · rw [Function.update_of_ne hsame, without, if_neg hsame]
    rw [hmods]
    refine (entries_insert _ ?_ entry).trans (entries_erase _ hentry)
    rw [hcolumn, List.take_append_drop]
  · intro n hn hlt hne
    have hn : asked = n := by
      rw [hasked, hn]
      unfold clamp
      omega
    rw [hidx, hn]
    unfold without
    by_cases hsame : target = source
    · simp only [if_pos hsame]
      exact ⟨take_eraseIdx, head?_drop_eraseIdx (hne hsame)⟩
    · simp only [if_neg hsame]
      exact ⟨trivial, List.head?_drop⟩
  · intro hend
    have hall : asked = (next mods target).length := by
      rw [hasked]
      unfold clamp
      omega
    refine List.drop_eq_nil_of_le ?_
    rw [hidx, hall]
    unfold without shifted
    by_cases hsame : target = source
    · rw [if_pos hsame, if_pos hsame]
      rw [hsame, List.length_eraseIdx_of_lt hf, if_pos hf]
    · rw [if_neg hsame, if_neg hsame]

end Bar

end CybexOS
