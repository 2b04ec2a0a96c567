/-
The exchange of system roots as a protocol over uuids: which root stands under
which name, and what the restore records say of it.
-/
import CybexOS.Snapshot.Restore

namespace CybexOS

namespace Snapshot

/-- The part of the system that decides which roots there are. -/
@[ext]
structure Roots where
  held : RootName → Option ℕ
  record : Stamp → Option Record
  points : List (Text × Point)
  next : ℕ

def System.view (s : System) : Roots where
  held := s.uuidOf
  record := fun stamp => s.records.lookup stamp
  points := s.points
  next := s.nextUuid

namespace Roots

def setAt (r : Roots) (name : RootName) (uuid : Option ℕ) : Roots :=
  { r with held := Function.update r.held name uuid }

def setRecord (r : Roots) (stamp : Stamp) (record : Option Record) : Roots :=
  { r with record := Function.update r.record stamp record }

/-- A restore of this stamp waits for its exchange or for its rename. -/
def Pending (r : Roots) (stamp : Stamp) (record : Record) : Prop :=
  r.record stamp = some record ∧ record.state = .prepared

/-- One effect on the roots; uuids from `base` on are copies made by
restores, and only the copy `allowed` may become the root. -/
inductive Step (base : ℕ) (allowed : Option ℕ) : Roots → Roots → Prop
  | stay (r : Roots) : Step base allowed r r
  | copy (r : Roots) (stamp : Stamp) (hfree : r.held (.incoming stamp) = none)
      (hidle : ∀ record, ¬ r.Pending stamp record) :
      Step base allowed r { r.setAt (.incoming stamp) (some r.next) with next := r.next + 1 }
  /-- A prepared record names the copy, or nothing. -/
  | prepare (r : Roots) (stamp : Stamp) (copy : ℕ) (record : Record)
      (hstate : record.state = .prepared)
      (hfree : r.held (.replaced stamp) = none)
      (hcopy : r.held (.incoming stamp) = some copy) (hbase : base ≤ copy)
      (hnew : ∀ u ∈ record.newRoot, u = copy)
      (hsame : ∀ before, r.Pending stamp before → before.newRoot = record.newRoot) :
      Step base allowed r (r.setRecord stamp (some record))
  | exchange (r : Roots) (stamp : Stamp) (copy : ℕ) (record : Record)
      (hcopy : r.held (.incoming stamp) = some copy) (hpending : r.Pending stamp record)
      (hnew : ∀ u ∈ record.newRoot, u = copy) (hallowed : allowed = some copy) :
      Step base allowed r ((r.setAt (.incoming stamp) (r.held .root)).setAt .root (some copy))
  | rename (r : Roots) (stamp : Stamp) (hfree : r.held (.replaced stamp) = none) :
      Step base allowed r ((r.setAt (.replaced stamp) (r.held (.incoming stamp))).setAt
        (.incoming stamp) none)
  /-- A record past the exchange. -/
  | settle (r : Roots) (stamp : Stamp) (record : Record) (hstate : record.state ≠ .prepared)
      (hidle : r.held (.incoming stamp) = none ∨ ∀ record, ¬ r.Pending stamp record) :
      Step base allowed r (r.setRecord stamp (some record))
  /-- Only the copy that its own restore recorded is deleted. -/
  | discard (r : Roots) (stamp : Stamp) (copy : ℕ)
      (hcopy : r.held (.incoming stamp) = some copy) (hbase : base ≤ copy)
      (hsame : ∀ record, r.Pending stamp record → record.newRoot = some copy) :
      Step base allowed r (r.setAt (.incoming stamp) none)
  | forget (r : Roots) (stamp : Stamp)
      (hsame : ∀ record, r.Pending stamp record →
        r.held (.incoming stamp) = none ∨ r.held (.incoming stamp) = record.newRoot) :
      Step base allowed r (r.setRecord stamp none)

/-- The roots in `kept` are there, and none of them can be taken for an unused
copy. -/
structure Keeping (base : ℕ) (kept : Set ℕ) (r : Roots) : Prop where
  root : ∃ u, r.held .root = some u
  distinct : ∀ a b u, r.held a = some u → r.held b = some u → a = b
  below : ∀ a u, r.held a = some u → u < r.next
  base_le : base ≤ r.next
  copies : ∀ stamp record, r.Pending stamp record → ∀ u ∈ record.newRoot, base ≤ u
  apart : ∀ stamp record, r.Pending stamp record →
    r.held (.incoming stamp) = none ∨ r.held (.replaced stamp) = none
  there : ∀ u ∈ kept, ∃ name, r.held name = some u
  documented : ∀ stamp, ∀ u ∈ kept, r.held (.incoming stamp) = some u →
    u < base ∨ ∃ record, r.Pending stamp record ∧ record.newRoot ≠ some u

section

variable {r : Roots} {stamp other : Stamp} {record found : Record} {name : RootName}

@[simp]
theorem setAt_held (uuid : Option ℕ) (asked : RootName) :
    (r.setAt name uuid).held asked = if asked = name then uuid else r.held asked := by
  simp [setAt, Function.update_apply]

@[simp]
theorem setRecord_held (held : Option Record) : (r.setRecord stamp held).held = r.held := rfl

@[simp]
theorem setAt_next (uuid : Option ℕ) : (r.setAt name uuid).next = r.next := rfl

@[simp]
theorem setRecord_next (held : Option Record) : (r.setRecord stamp held).next = r.next := rfl

@[simp]
theorem pending_setAt (uuid : Option ℕ) :
    (r.setAt name uuid).Pending other found ↔ r.Pending other found := Iff.rfl

theorem pending_setRecord (held : Option Record) :
    (r.setRecord stamp held).Pending other found ↔
      if other = stamp then held = some found ∧ found.state = .prepared
      else r.Pending other found := by
  simp only [Pending, setRecord, Function.update_apply]
  split_ifs <;> rfl

end

/-- A step leaves the recovery points alone, and the root unless it exchanges
it for the allowed copy. -/
theorem Step.points_root {base : ℕ} {allowed : Option ℕ} {r t : Roots}
    (h : Step base allowed r t) : t.points = r.points ∧
      (t.held .root = r.held .root ∨ ∃ u, allowed = some u ∧ t.held .root = some u) := by
  cases h with
  | exchange stamp copy record hcopy hpending hnew hallowed =>
      exact ⟨rfl, Or.inr ⟨copy, hallowed, by simp⟩⟩
  | copy stamp hfree hidle => exact ⟨rfl, Or.inl (by simp)⟩
  | rename stamp hfree => exact ⟨rfl, Or.inl (by simp)⟩
  | discard stamp copy hcopy hbase hsame => exact ⟨rfl, Or.inl (by simp)⟩
  | _ => exact ⟨rfl, Or.inl rfl⟩

namespace Keeping

variable {base : ℕ} {allowed : Option ℕ} {kept : Set ℕ} {r t : Roots} {stamp : Stamp}
  {record : Record} {copy root : ℕ}

theorem after_copy (h : Keeping base kept r) (hfree : r.held (.incoming stamp) = none)
    (hidle : ∀ record, ¬ r.Pending stamp record) :
    Keeping base kept { r.setAt (.incoming stamp) (some r.next) with next := r.next + 1 } := by
  have hfresh : ∀ name, r.held name ≠ some r.next := fun name hname =>
    absurd (h.below name _ hname) (lt_irrefl _)
  obtain ⟨root, hroot⟩ := h.root
  refine ⟨⟨root, by simp [hroot]⟩, ?_, ?_, Nat.le_succ_of_le h.base_le, h.copies, ?_, ?_, ?_⟩
  · intro a b u ha hb
    have hdistinct := h.distinct a b u
    simp only [setAt_held] at ha hb
    grind
  · intro a u ha
    simp only [setAt_held] at ha
    split_ifs at ha with hcopy
    · have := Option.some.inj ha
      simp only
      omega
    · exact Nat.lt_succ_of_lt (h.below a u ha)
  · intro other found hpending
    have hother : other ≠ stamp := by
      rintro rfl
      exact hidle found hpending
    simpa [hother] using h.apart other found hpending
  · intro u hu
    obtain ⟨name, hname⟩ := h.there u hu
    refine ⟨name, ?_⟩
    have hother : name ≠ .incoming stamp := by
      rintro rfl
      simp [hfree] at hname
    simpa [hother] using hname
  · intro other u hu hheld
    simp only [setAt_held] at hheld
    split_ifs at hheld with hcopy
    · obtain ⟨name, hname⟩ := h.there u hu
      rw [← hheld] at hname
      exact absurd hname (hfresh name)
    · exact h.documented other u hu hheld

theorem after_prepare (h : Keeping base kept r) (hstate : record.state = .prepared)
    (hfree : r.held (.replaced stamp) = none) (hbase : base ≤ copy)
    (hnew : ∀ u ∈ record.newRoot, u = copy)
    (hsame : ∀ before, r.Pending stamp before → before.newRoot = record.newRoot) :
    Keeping base kept (r.setRecord stamp (some record)) := by
  refine ⟨h.root, h.distinct, h.below, h.base_le, ?_, ?_, h.there, ?_⟩
  · intro other found hpending u hu
    rw [pending_setRecord] at hpending
    split_ifs at hpending with heq
    · obtain rfl := Option.some.inj hpending.1
      exact hnew u hu ▸ hbase
    · exact h.copies other found hpending u hu
  · intro other found hpending
    rw [pending_setRecord] at hpending
    split_ifs at hpending with heq
    · exact Or.inr (heq ▸ hfree)
    · exact h.apart other found hpending
  · intro other u hu hheld
    rcases h.documented other u hu hheld with hlow | ⟨found, hfound, hne⟩
    · exact Or.inl hlow
    · refine Or.inr ?_
      by_cases heq : other = stamp
      · subst heq
        exact ⟨record, by simp [pending_setRecord, hstate], hsame found hfound ▸ hne⟩
      · exact ⟨found, by simpa [pending_setRecord, heq] using hfound, hne⟩

theorem after_exchange (h : Keeping base kept r) (hcopy : r.held (.incoming stamp) = some copy)
    (hpending : r.Pending stamp record) (hnew : ∀ u ∈ record.newRoot, u = copy) :
    Keeping base kept
      ((r.setAt (.incoming stamp) (r.held .root)).setAt .root (some copy)) := by
  obtain ⟨root, hroot⟩ := h.root
  have hne : copy ≠ root := by
    rintro rfl
    simpa using h.distinct _ _ _ hcopy hroot
  refine ⟨⟨copy, by simp⟩, ?_, ?_, h.base_le, h.copies, ?_, ?_, ?_⟩
  · intro a b u ha hb
    have hdistinct := h.distinct
    simp only [setAt_held] at ha hb
    grind
  · intro a u ha
    have hbelow := h.below
    simp only [setAt_held, setAt_next] at ha ⊢
    grind
  · intro other found hfound
    have hapart := h.apart other found hfound
    simp only [setAt_held]
    grind
  · intro u hu
    obtain ⟨name, hname⟩ := h.there u hu
    rcases eq_or_ne name .root with rfl | hroot'
    · exact ⟨.incoming stamp, by simpa using hname⟩
    · rcases eq_or_ne name (.incoming stamp) with rfl | hincoming
      · exact ⟨.root, by simpa [hcopy] using hname⟩
      · exact ⟨name, by simpa [hroot', hincoming] using hname⟩
  · intro other u hu hheld
    by_cases heq : other = stamp
    · subst heq
      have hu' : u = root := by simpa [hroot] using hheld.symm
      refine Or.inr ⟨record, hpending, fun hrecord => hne ?_⟩
      rw [← hu', hnew u hrecord]
    · exact h.documented other u hu (by simpa [heq] using hheld)

theorem after_rename (h : Keeping base kept r) (hfree : r.held (.replaced stamp) = none) :
    Keeping base kept ((r.setAt (.replaced stamp) (r.held (.incoming stamp))).setAt
      (.incoming stamp) none) := by
  obtain ⟨root, hroot⟩ := h.root
  refine ⟨⟨root, by simp [hroot]⟩, ?_, ?_, h.base_le, h.copies, ?_, ?_, ?_⟩
  · intro a b u ha hb
    have hdistinct := h.distinct
    simp only [setAt_held] at ha hb
    grind
  · intro a u ha
    have hbelow := h.below
    simp only [setAt_held, setAt_next] at ha ⊢
    grind
  · intro other found hfound
    have hapart := h.apart other found hfound
    simp only [setAt_held]
    grind
  · intro u hu
    obtain ⟨name, hname⟩ := h.there u hu
    rcases eq_or_ne name (.incoming stamp) with rfl | hincoming
    · exact ⟨.replaced stamp, by simpa using hname⟩
    · have hreplaced : name ≠ .replaced stamp := by
        rintro rfl
        simp [hfree] at hname
      exact ⟨name, by simpa [hincoming, hreplaced] using hname⟩
  · intro other u hu hheld
    by_cases heq : other = stamp
    · subst heq
      simp at hheld
    · exact h.documented other u hu (by simpa [heq] using hheld)

theorem after_settle (h : Keeping base kept r) (hstate : record.state ≠ .prepared)
    (hidle : r.held (.incoming stamp) = none ∨ ∀ record, ¬ r.Pending stamp record) :
    Keeping base kept (r.setRecord stamp (some record)) := by
  have hpending_of : ∀ other found, (r.setRecord stamp (some record)).Pending other found →
      r.Pending other found := by
    intro other found hpending
    rw [pending_setRecord] at hpending
    split_ifs at hpending with heq
    · obtain rfl := Option.some.inj hpending.1
      exact absurd hpending.2 hstate
    · exact hpending
  refine ⟨h.root, h.distinct, h.below, h.base_le,
    fun other found hpending => h.copies other found (hpending_of other found hpending),
    fun other found hpending => h.apart other found (hpending_of other found hpending),
    h.there, ?_⟩
  intro other u hu hheld
  rcases h.documented other u hu hheld with hlow | ⟨found, hfound, hne⟩
  · exact Or.inl hlow
  · by_cases heq : other = stamp
    · subst heq
      rcases hidle with hnone | hnone
      · rw [setRecord_held, hnone] at hheld
        cases hheld
      · exact absurd hfound (hnone found)
    · exact Or.inr ⟨found, by simpa [pending_setRecord, heq] using hfound, hne⟩

theorem after_discard (h : Keeping base kept r) (hcopy : r.held (.incoming stamp) = some copy)
    (hbase : base ≤ copy)
    (hsame : ∀ record, r.Pending stamp record → record.newRoot = some copy) :
    Keeping base kept (r.setAt (.incoming stamp) none) := by
  obtain ⟨root, hroot⟩ := h.root
  have hunkept : copy ∉ kept := by
    intro hmem
    rcases h.documented stamp copy hmem hcopy with hlow | ⟨found, hfound, hne⟩
    · omega
    · exact hne (hsame found hfound)
  refine ⟨⟨root, by simp [hroot]⟩, ?_, ?_, h.base_le, h.copies, ?_, ?_, ?_⟩
  · intro a b u ha hb
    have hdistinct := h.distinct
    simp only [setAt_held] at ha hb
    grind
  · intro a u ha
    have hbelow := h.below
    simp only [setAt_held, setAt_next] at ha ⊢
    grind
  · intro other found hfound
    have hapart := h.apart other found hfound
    simp only [setAt_held]
    grind
  · intro u hu
    obtain ⟨name, hname⟩ := h.there u hu
    have hother : name ≠ .incoming stamp := by
      rintro rfl
      obtain rfl := Option.some.inj (hcopy.symm.trans hname)
      exact hunkept hu
    exact ⟨name, by simpa [hother] using hname⟩
  · intro other u hu hheld
    by_cases heq : other = stamp
    · subst heq
      simp at hheld
    · exact h.documented other u hu (by simpa [heq] using hheld)

theorem after_forget (h : Keeping base kept r)
    (hsame : ∀ record, r.Pending stamp record →
      r.held (.incoming stamp) = none ∨ r.held (.incoming stamp) = record.newRoot) :
    Keeping base kept (r.setRecord stamp none) := by
  have hpending_of : ∀ other found, (r.setRecord stamp none).Pending other found →
      r.Pending other found := by
    intro other found hpending
    rw [pending_setRecord] at hpending
    split_ifs at hpending with heq
    · simp at hpending
    · exact hpending
  refine ⟨h.root, h.distinct, h.below, h.base_le,
    fun other found hpending => h.copies other found (hpending_of other found hpending),
    fun other found hpending => h.apart other found (hpending_of other found hpending),
    h.there, ?_⟩
  intro other u hu hheld
  rcases h.documented other u hu hheld with hlow | ⟨found, hfound, hne⟩
  · exact Or.inl hlow
  · by_cases heq : other = stamp
    · subst heq
      rcases hsame found hfound with hnone | hnew
      · rw [setRecord_held, hnone] at hheld
        cases hheld
      · exact absurd (hnew.symm.trans hheld) hne
    · exact Or.inr ⟨found, by simpa [pending_setRecord, heq] using hfound, hne⟩

/-- No step loses a kept root. -/
theorem step (h : Keeping base kept r) (hstep : Step base allowed r t) : Keeping base kept t := by
  cases hstep with
  | stay => exact h
  | copy stamp hfree hidle => exact h.after_copy hfree hidle
  | prepare stamp copy record hstate hfree hcopy hbase hnew hsame =>
      exact h.after_prepare hstate hfree hbase hnew hsame
  | exchange stamp copy record hcopy hpending hnew _ =>
      exact h.after_exchange hcopy hpending hnew
  | rename stamp hfree => exact h.after_rename hfree
  | settle stamp record hstate hidle => exact h.after_settle hstate hidle
  | discard stamp copy hcopy hbase hsame => exact h.after_discard hcopy hbase hsame
  | forget stamp hsame => exact h.after_forget hsame

/-- The running root can be kept from here on. -/
theorem insert_root (h : Keeping base kept r) {u : ℕ} (hu : r.held .root = some u) :
    Keeping base (insert u kept) r where
  root := h.root
  distinct := h.distinct
  below := h.below
  base_le := h.base_le
  copies := h.copies
  apart := h.apart
  there v hv := by
    rcases hv with rfl | hv
    · exact ⟨.root, hu⟩
    · exact h.there v hv
  documented stamp v hv hheld := by
    rcases hv with rfl | hv
    · exact absurd (h.distinct _ _ _ hheld hu) (by simp)
    · exact h.documented stamp v hv hheld

end Keeping

end Roots

end Snapshot

end CybexOS
