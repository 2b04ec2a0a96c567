/-
Strings as sequences of code units.  The shell's languages disagree about
the unit (UTF-16 in QML, code points in Python, bytes in Lua), so a text is a
plain list of numbers and each language model says which unit it means.
-/
import Mathlib.Data.List.DropRight
import Mathlib.Data.List.Lex
import Mathlib.Order.Lex

namespace CybexOS

/-- A string as its code units. -/
abbrev Text := List Nat

instance : LawfulBEq Text := inferInstance

/-- The code units of an ASCII literal, the same in every encoding used. -/
def ascii (s : String) : Text := s.toList.map Char.toNat

/-- `^[class]+$` over code units. -/
def allUnits (p : Nat → Bool) (s : Text) : Bool := s.all p

def isDigit (c : Nat) : Bool := 48 ≤ c && c ≤ 57

def isUpper (c : Nat) : Bool := 65 ≤ c && c ≤ 90

def isLower (c : Nat) : Bool := 97 ≤ c && c ≤ 122

def isAlnum (c : Nat) : Bool := isDigit c || isUpper c || isLower c

/-- Strip the units satisfying `p` from both ends. -/
def trimWith (p : Nat → Bool) (s : Text) : Text :=
  (s.dropWhile p).rdropWhile p

theorem dropWhile_eq_self_of_head {p : Nat → Bool} {s : Text}
    (hhead : ∀ c ∈ s.head?, p c = false) : s.dropWhile p = s := by
  cases s with
  | nil => rfl
  | cons c rest => simp [hhead c (by simp)]

theorem head_dropWhile_not {p : Nat → Bool} (s : Text) :
    ∀ c ∈ (s.dropWhile p).head?, p c = false := by
  intro c hc
  have h := List.head?_dropWhile_not p s
  rw [Option.mem_def.mp hc] at h
  simpa using h

theorem getLast_rdropWhile_not {p : Nat → Bool} (s : Text) :
    ∀ c ∈ (s.rdropWhile p).getLast?, p c = false := by
  intro c hc
  rw [List.rdropWhile, List.getLast?_reverse] at hc
  exact head_dropWhile_not s.reverse c hc

theorem rdropWhile_eq_self_of_getLast {p : Nat → Bool} {s : Text}
    (hlast : ∀ c ∈ s.getLast?, p c = false) : s.rdropWhile p = s := by
  rw [List.rdropWhile, dropWhile_eq_self_of_head, List.reverse_reverse]
  rwa [List.head?_reverse]

/-- Stripping the right end keeps a head that does not satisfy `p`. -/
theorem head_rdropWhile {p : Nat → Bool} {s : Text}
    (hhead : ∀ c ∈ s.head?, p c = false) :
    ∀ c ∈ (s.rdropWhile p).head?, p c = false := by
  intro c hc
  have hpre : s.rdropWhile p <+: s := List.rdropWhile_prefix p s
  obtain ⟨tail, htail⟩ := hpre
  apply hhead
  rw [← htail]
  exact List.mem_head?_append_of_mem_head? hc

theorem trimWith_eq_self {p : Nat → Bool} {s : Text}
    (hhead : ∀ c ∈ s.head?, p c = false)
    (hlast : ∀ c ∈ s.getLast?, p c = false) : trimWith p s = s := by
  rw [trimWith, dropWhile_eq_self_of_head hhead,
    rdropWhile_eq_self_of_getLast hlast]

theorem head_trimWith {p : Nat → Bool} (s : Text) :
    ∀ c ∈ (trimWith p s).head?, p c = false :=
  head_rdropWhile (head_dropWhile_not s)

theorem getLast_trimWith {p : Nat → Bool} (s : Text) :
    ∀ c ∈ (trimWith p s).getLast?, p c = false :=
  getLast_rdropWhile_not (s.dropWhile p)

/-- Trimming is idempotent. -/
@[simp]
theorem trimWith_trimWith {p : Nat → Bool} (s : Text) :
    trimWith p (trimWith p s) = trimWith p s :=
  trimWith_eq_self (head_trimWith s) (getLast_trimWith s)

/-- A text is its own trim exactly when neither end can be stripped. -/
theorem trimWith_eq_self_iff {p : Nat → Bool} {s : Text} :
    trimWith p s = s ↔
      (∀ c ∈ s.head?, p c = false) ∧ ∀ c ∈ s.getLast?, p c = false := by
  constructor
  · intro h
    rw [← h]
    exact ⟨head_trimWith s, getLast_trimWith s⟩
  · rintro ⟨hhead, hlast⟩
    exact trimWith_eq_self hhead hlast

/-- A unit that cannot be stripped survives the trim. -/
theorem trimWith_ne_nil {p : Nat → Bool} {s : Text} {c : Nat} (hc : c ∈ s)
    (hp : p c = false) : trimWith p s ≠ [] := by
  intro h
  have hall := List.rdropWhile_eq_nil_iff.mp h
  have hne : s.dropWhile p ≠ [] := by
    intro hnil
    have := List.dropWhile_eq_nil_iff.mp hnil c hc
    simp [hp] at this
  obtain ⟨d, tail, hcons⟩ := List.exists_cons_of_ne_nil hne
  have hd := head_dropWhile_not (p := p) s d (by rw [hcons]; rfl)
  have := hall d (by rw [hcons]; exact List.mem_cons_self)
  simp [hd] at this

end CybexOS
