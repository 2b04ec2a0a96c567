/-
Dictionaries that keep the order of insertion, as lists of items: assigning,
merging and removing keys.
-/
import Mathlib.Data.List.Nodup
import Mathlib.Tactic.SplitIfs

namespace CybexOS

namespace Dict

variable {κ α : Type} [DecidableEq κ]

/-- The keys, in order of insertion. -/
def keys (d : List (κ × α)) : List κ := d.map Prod.fst

/-- `d[key] = value` -/
def set (d : List (κ × α)) (key : κ) (value : α) : List (κ × α) :=
  match d with
  | [] => [(key, value)]
  | item :: d => if item.1 = key then (key, value) :: d else item :: set d key value

/-- `d.update(e)`, or `{**d, **e}` -/
def merge (d e : List (κ × α)) : List (κ × α) :=
  e.foldl (fun merged item => set merged item.1 item.2) d

/-- `d.pop(key, None)` -/
def pop (d : List (κ × α)) (key : κ) : List (κ × α) := d.filter fun item => item.1 ≠ key

/-- `d.setdefault(key, value)` -/
def setDefault (d : List (κ × α)) (key : κ) (value : α) : List (κ × α) :=
  if key ∈ keys d then d else set d key value

section

variable [BEq κ] [LawfulBEq κ] {d e : List (κ × α)} {key asked : κ} {value : α}

theorem lookup_item (held : κ) :
    ((held, value) :: d).lookup asked = if asked = held then some value else d.lookup asked := by
  by_cases h : asked = held
  · rw [List.lookup_cons, beq_iff_eq.mpr h, if_pos h]
  · rw [List.lookup_cons, beq_eq_false_iff_ne.mpr h, if_neg h]

theorem lookup_isSome : (d.lookup asked).isSome ↔ asked ∈ keys d := by
  induction d with
  | nil => simp [keys]
  | cons item d ih =>
      rw [lookup_item, keys, List.map_cons, List.mem_cons]
      split_ifs with h
      · simp [h]
      · simp only [h, false_or]
        exact ih

theorem lookup_eq_none : d.lookup asked = none ↔ asked ∉ keys d := by
  rw [← lookup_isSome, Option.not_isSome_iff_eq_none]

theorem mem_of_lookup (h : d.lookup asked = some value) : (asked, value) ∈ d := by
  induction d with
  | nil => simp at h
  | cons item d ih =>
      rw [lookup_item] at h
      split_ifs at h with heq
      · rw [← Option.some.inj h, heq]
        exact List.mem_cons_self
      · exact List.mem_cons_of_mem _ (ih h)

/-- Where keys are distinct every item is the one found under its key. -/
theorem lookup_of_mem (hkeys : (keys d).Nodup) (h : (asked, value) ∈ d) :
    d.lookup asked = some value := by
  induction d with
  | nil => cases h
  | cons item d ih =>
      rw [keys, List.map_cons, List.nodup_cons] at hkeys
      rw [lookup_item]
      rcases List.mem_cons.mp h with rfl | hmem
      · rw [if_pos rfl]
      · rw [if_neg, ih hkeys.2 hmem]
        rintro rfl
        exact hkeys.1 (List.mem_map.mpr ⟨_, hmem, rfl⟩)

@[simp]
theorem lookup_set : (set d key value).lookup asked =
    if asked = key then some value else d.lookup asked := by
  induction d with
  | nil => rw [set, lookup_item]
  | cons item d ih =>
      rw [set]
      split_ifs with hitem hasked hasked
      · rw [lookup_item, if_pos hasked]
      · rw [lookup_item, lookup_item, if_neg hasked, if_neg (hitem ▸ hasked)]
      · rw [lookup_item, ih, if_pos hasked, if_neg (hasked ▸ Ne.symm hitem)]
      · rw [lookup_item, lookup_item, ih, if_neg hasked]

@[simp]
theorem lookup_pop : (pop d key).lookup asked =
    if asked = key then none else d.lookup asked := by
  induction d with
  | nil => simp [pop]
  | cons item d ih =>
      unfold pop at ih ⊢
      by_cases hitem : item.1 = key
      · rw [List.filter_cons_of_neg (by simpa using hitem), ih, lookup_item]
        by_cases hasked : asked = key
        · rw [if_pos hasked, if_pos hasked]
        · rw [if_neg hasked, if_neg hasked, if_neg (hitem ▸ hasked)]
      · rw [List.filter_cons_of_pos (by simpa using hitem), lookup_item, ih, lookup_item]
        by_cases hasked : asked = item.1
        · rw [if_pos hasked, if_pos hasked, if_neg (hasked ▸ hitem)]
        · rw [if_neg hasked, if_neg hasked]

/-- Only some keys are kept. -/
theorem lookup_filter_key (keep : κ → Bool) :
    (d.filter fun item => keep item.1).lookup asked =
      if keep asked then d.lookup asked else none := by
  induction d with
  | nil => simp
  | cons item d ih =>
      rw [List.filter_cons]
      by_cases hitem : keep item.1 = true
      · rw [if_pos hitem, lookup_item, lookup_item, ih]
        by_cases hasked : asked = item.1
        · rw [if_pos hasked, if_pos hasked, if_pos (hasked ▸ hitem)]
        · rw [if_neg hasked, if_neg hasked]
      · rw [if_neg hitem, ih, lookup_item]
        by_cases hasked : asked = item.1
        · rw [if_neg (hasked ▸ hitem), if_neg (hasked ▸ hitem)]
        · rw [if_neg hasked]

/-- Only some items are kept. -/
theorem lookup_filter (hkeys : (keys d).Nodup) (keep : κ × α → Bool) :
    (d.filter keep).lookup asked = (d.lookup asked).filter fun value => keep (asked, value) := by
  induction d with
  | nil => rfl
  | cons item d ih =>
      rw [keys, List.map_cons, List.nodup_cons] at hkeys
      have hlater : item.1 ∉ keys d := hkeys.1
      rw [List.filter_cons, lookup_item]
      by_cases hasked : asked = item.1
      · subst hasked
        rw [if_pos rfl, Option.filter_some]
        by_cases hitem : keep item = true
        · rw [if_pos hitem, lookup_item, if_pos rfl, if_pos hitem]
        · rw [if_neg hitem, ih hkeys.2, lookup_eq_none.mpr hlater, if_neg hitem, Option.filter_none]
      · rw [if_neg hasked, ← ih hkeys.2]
        by_cases hitem : keep item = true
        · rw [if_pos hitem, lookup_item, if_neg hasked]
        · rw [if_neg hitem]

theorem lookup_filter_of_keep (hkeys : (keys d).Nodup) {keep : κ × α → Bool}
    (h : d.lookup asked = some value) (hkeep : keep (asked, value) = true) :
    (d.filter keep).lookup asked = some value := by
  rw [lookup_filter hkeys, h, Option.filter_some, if_pos hkeep]

theorem lookup_of_lookup_filter (hkeys : (keys d).Nodup) {keep : κ × α → Bool}
    (h : (d.filter keep).lookup asked = some value) : d.lookup asked = some value := by
  rw [lookup_filter hkeys] at h
  exact (Option.filter_eq_some_iff.mp h).1

/-- Under distinct keys the order of the items makes no difference. -/
theorem lookup_perm (hkeys : (keys d).Nodup) (h : d.Perm e) :
    e.lookup asked = d.lookup asked := by
  have hkeys' : (keys e).Nodup := (h.map Prod.fst).nodup_iff.mp hkeys
  cases hlookup : d.lookup asked with
  | none =>
      rw [lookup_eq_none] at hlookup ⊢
      exact fun hmem => hlookup ((h.map Prod.fst).mem_iff.mpr hmem)
  | some value => exact lookup_of_mem hkeys' (h.mem_iff.mp (mem_of_lookup hlookup))

/-- A change of every value under its key. -/
theorem lookup_map_item {β : Type} {change : κ × α → κ × β}
    (hchange : ∀ item, (change item).1 = item.1) :
    (d.map change).lookup asked = (d.lookup asked).map fun value => (change (asked, value)).2 := by
  induction d with
  | nil => rfl
  | cons item d ih =>
      obtain ⟨held, value⟩ := item
      have hitem : change (held, value) = (held, (change (held, value)).2) :=
        Prod.ext (hchange _) rfl
      rw [List.map_cons, hitem, lookup_item, lookup_item, ih]
      split_ifs with hasked
      · rw [hasked, Option.map_some]
      · rfl

theorem lookup_setDefault : (setDefault d key value).lookup asked =
    if asked = key ∧ key ∉ keys d then some value else d.lookup asked := by
  unfold setDefault
  by_cases hkey : key ∈ keys d
  · rw [if_pos hkey, if_neg (fun h => h.2 hkey)]
  · rw [if_neg hkey, lookup_set]
    simp [hkey]

/-- The right-hand side wins. -/
theorem lookup_merge (he : (keys e).Nodup) :
    (merge d e).lookup asked = (e.lookup asked).or (d.lookup asked) := by
  induction e generalizing d with
  | nil => simp [merge]
  | cons item e ih =>
      rw [keys, List.map_cons, List.nodup_cons] at he
      have hmerge : merge d (item :: e) = merge (set d item.1 item.2) e := rfl
      rw [hmerge, ih he.2, lookup_set, lookup_item]
      split_ifs with hasked
      · rw [hasked, lookup_eq_none.mpr he.1]
        rfl
      · rfl

end

section

variable {d : List (κ × α)} {key asked : κ} {value : α}

theorem keys_set : keys (set d key value) = if key ∈ keys d then keys d else keys d ++ [key] := by
  induction d with
  | nil => simp [set, keys]
  | cons item d ih =>
      unfold keys at ih ⊢
      rw [set]
      by_cases hitem : item.1 = key
      · simp [hitem]
      · rw [if_neg hitem, List.map_cons, ih, List.map_cons]
        by_cases hmem : key ∈ d.map Prod.fst
        · rw [if_pos hmem, if_pos (List.mem_cons_of_mem _ hmem)]
        · rw [if_neg hmem, if_neg (by simpa [Ne.symm hitem] using hmem), List.cons_append]

theorem set_new (h : key ∉ keys d) : set d key value = d ++ [(key, value)] := by
  induction d with
  | nil => rfl
  | cons item d ih =>
      rw [keys, List.map_cons, List.mem_cons, not_or] at h
      rw [set, if_neg (Ne.symm h.1), ih h.2, List.cons_append]

theorem mem_of_mem_set {item : κ × α} (h : item ∈ set d key value) :
    item = (key, value) ∨ item ∈ d := by
  induction d with
  | nil => exact Or.inl (List.mem_singleton.mp h)
  | cons first d ih =>
      rw [set] at h
      split_ifs at h with hfirst
      · exact (List.mem_cons.mp h).imp_right (List.mem_cons_of_mem _)
      · rcases List.mem_cons.mp h with rfl | h
        · exact Or.inr List.mem_cons_self
        · exact (ih h).imp_right (List.mem_cons_of_mem _)

omit [DecidableEq κ] in
theorem nodup_filter (hkeys : (keys d).Nodup) (keep : κ × α → Bool) :
    (keys (d.filter keep)).Nodup := hkeys.sublist (List.filter_sublist.map _)

theorem mem_keys_set : asked ∈ keys (set d key value) ↔ asked = key ∨ asked ∈ keys d := by
  rw [keys_set]
  split_ifs with hmem
  · constructor
    · exact Or.inr
    · rintro (rfl | h)
      · exact hmem
      · exact h
  · rw [List.mem_append, List.mem_singleton, or_comm]

theorem nodup_set (hkeys : (keys d).Nodup) : (keys (set d key value)).Nodup := by
  rw [keys_set]
  split_ifs with hmem
  · exact hkeys
  · rw [List.nodup_append]
    refine ⟨hkeys, List.nodup_singleton key, ?_⟩
    rintro other hother _ hsingle rfl
    rw [List.mem_singleton] at hsingle
    exact hmem (hsingle ▸ hother)

end

end Dict

end CybexOS
