/-
Computations that raise: what a successful end says of the steps before it.
-/
import Mathlib.Tactic.Common

namespace CybexOS

section

variable {ε δ α β σ : Type}

/-- A sequence of checks succeeds when each of them does. -/
theorem bind_eq_ok {x : Except ε α} {f : α → Except ε β} {b : β} :
    x >>= f = .ok b ↔ ∃ a, x = .ok a ∧ f a = .ok b := by
  cases x with
  | error e => simp [bind, Except.bind]
  | ok a => simp [bind, Except.bind]

theorem bind_eq_error {x : Except ε α} {f : α → Except ε β} {e : ε} :
    x >>= f = .error e ↔ x = .error e ∨ ∃ a, x = .ok a ∧ f a = .error e := by
  cases x with
  | error e => simp [bind, Except.bind]
  | ok a => simp [bind, Except.bind]

theorem pure_eq_ok {a b : α} : (pure a : Except ε α) = .ok b ↔ a = b := by
  simp [pure, Except.pure]

theorem mapError_eq_ok {x : Except ε α} {f : ε → δ} {a : α} :
    x.mapError f = .ok a ↔ x = .ok a := by
  cases x <;> simp [Except.mapError]

/-- What every step keeps, a loop keeps. -/
theorem foldlM_keeps {step : σ → α → Except ε σ} (invariant : σ → Prop) {items : List α}
    (hstep : ∀ s, ∀ item ∈ items, ∀ t, invariant s → step s item = .ok t → invariant t)
    {s t : σ} (hs : invariant s) (h : items.foldlM step s = .ok t) : invariant t := by
  induction items generalizing s with
  | nil =>
      rw [List.foldlM_nil, pure_eq_ok] at h
      exact h ▸ hs
  | cons item items ih =>
      rw [List.foldlM_cons, bind_eq_ok] at h
      obtain ⟨next, hnext, hrest⟩ := h
      refine ih (fun u other hother => hstep u other (List.mem_cons_of_mem _ hother)) ?_ hrest
      exact hstep s item List.mem_cons_self next hs hnext

/-- The results of a loop come from its items. -/
theorem mem_of_mapM {step : α → Except ε β} {items : List α} {results : List β}
    (h : items.mapM step = .ok results) {result : β} (hmem : result ∈ results) :
    ∃ item ∈ items, step item = .ok result := by
  induction items generalizing results with
  | nil =>
      rw [List.mapM_nil, pure_eq_ok] at h
      rw [← h] at hmem
      cases hmem
  | cons item items ih =>
      rw [List.mapM_cons, bind_eq_ok] at h
      obtain ⟨first, hfirst, h⟩ := h
      rw [bind_eq_ok] at h
      obtain ⟨rest, hrest, h⟩ := h
      rw [pure_eq_ok] at h
      rw [← h, List.mem_cons] at hmem
      rcases hmem with rfl | hmem
      · exact ⟨item, List.mem_cons_self, hfirst⟩
      · obtain ⟨other, hother, hstep⟩ := ih hrest hmem
        exact ⟨other, List.mem_cons_of_mem _ hother, hstep⟩

/-- A loop whose steps give changed results gives its results changed. -/
theorem mapM_map_of_ok {γ : Type} {first : α → Except ε β} {second : α → Except ε γ}
    {change : β → γ} {items : List α} {results : List β}
    (h : ∀ item ∈ items, ∀ result, first item = .ok result → second item = .ok (change result))
    (hfirst : items.mapM first = .ok results) :
    items.mapM second = .ok (results.map change) := by
  induction items generalizing results with
  | nil =>
      rw [List.mapM_nil, pure_eq_ok] at hfirst ⊢
      rw [← hfirst, List.map_nil]
  | cons item items ih =>
      rw [List.mapM_cons, bind_eq_ok] at hfirst
      obtain ⟨result, hitem, hfirst⟩ := hfirst
      rw [bind_eq_ok] at hfirst
      obtain ⟨rest, hrest, hfirst⟩ := hfirst
      rw [pure_eq_ok] at hfirst
      rw [← hfirst, List.mapM_cons, h item List.mem_cons_self result hitem,
        ih (fun other hother => h other (List.mem_cons_of_mem _ hother)) hrest]
      rfl

/-- Loops whose steps raise the same raise the same. -/
theorem mapM_eq_error_congr {first second : α → Except ε β} {items : List α}
    (h : ∀ item ∈ items, ∀ e, second item = .error e ↔ first item = .error e) (e : ε) :
    items.mapM second = .error e ↔ items.mapM first = .error e := by
  induction items with
  | nil => simp [pure, Except.pure]
  | cons item items ih =>
      have hitem := h item List.mem_cons_self
      have hrest := ih fun other hother => h other (List.mem_cons_of_mem _ hother)
      simp only [List.mapM_cons]
      cases hfirst : first item with
      | error raised =>
          rw [(hitem raised).mpr hfirst]
          rfl
      | ok result =>
          cases hsecond : second item with
          | error raised =>
              rw [(hitem raised).mp hsecond] at hfirst
              cases hfirst
          | ok other => simp [bind_eq_error, hrest, pure, Except.pure]

end

end CybexOS
