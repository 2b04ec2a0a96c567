/-
Runs of a machine that takes one action after another.
-/
import Mathlib.Data.List.Basic

namespace CybexOS

section

variable {σ α : Type*} (step : σ → α → σ)

/-- The states between the actions of a run, the first included. -/
def states (s : σ) : List α → List σ
  | [] => [s]
  | action :: actions => s :: states (step s action) actions

/-- A condition on each action and the state it meets. -/
def EachStep (condition : σ → α → Prop) (s : σ) : List α → Prop
  | [] => True
  | action :: actions => condition s action ∧ EachStep condition (step s action) actions

variable {step}

theorem mem_states_head (s : σ) (actions : List α) : s ∈ states step s actions := by
  cases actions <;> exact List.mem_cons_self

theorem foldl_mem_states (s : σ) (actions : List α) :
    actions.foldl step s ∈ states step s actions := by
  induction actions generalizing s with
  | nil => exact List.mem_cons_self
  | cons action actions ih => exact List.mem_cons_of_mem _ (ih (step s action))

instance EachStep.decidable {condition : σ → α → Prop}
    [∀ s action, Decidable (condition s action)] (s : σ) :
    (actions : List α) → Decidable (EachStep step condition s actions)
  | [] => isTrue trivial
  | action :: actions =>
      haveI : Decidable (EachStep step condition (step s action) actions) :=
        EachStep.decidable (step s action) actions
      inferInstanceAs (Decidable (_ ∧ _))

theorem EachStep.of_forall {condition : σ → α → Prop} (h : ∀ s action, condition s action) (s : σ)
    (actions : List α) : EachStep step condition s actions := by
  induction actions generalizing s with
  | nil => trivial
  | cons action actions ih => exact ⟨h s action, ih (step s action)⟩

theorem EachStep.of_mem {condition : α → Prop} {s : σ} {actions : List α}
    (h : ∀ action ∈ actions, condition action) :
    EachStep step (fun _ action => condition action) s actions := by
  induction actions generalizing s with
  | nil => trivial
  | cons action actions ih =>
      refine ⟨h action List.mem_cons_self, ih fun other hother => ?_⟩
      exact h other (List.mem_cons_of_mem _ hother)

theorem EachStep.append_iff {condition : σ → α → Prop} {s : σ} {before after : List α} :
    EachStep step condition s (before ++ after) ↔
      EachStep step condition s before ∧
        EachStep step condition (before.foldl step s) after := by
  induction before generalizing s with
  | nil => simp [EachStep]
  | cons action before ih =>
      rw [List.cons_append, EachStep, ih, EachStep, List.foldl_cons, and_assoc]

theorem EachStep.and {first second : σ → α → Prop} {s : σ} {actions : List α}
    (hfirst : EachStep step first s actions) (hsecond : EachStep step second s actions) :
    EachStep step (fun s action => first s action ∧ second s action) s actions := by
  induction actions generalizing s with
  | nil => trivial
  | cons action actions ih =>
      exact ⟨⟨hfirst.1, hsecond.1⟩, ih hfirst.2 hsecond.2⟩

section

variable {condition : σ → α → Prop} {invariant : σ → Prop}
  (hstep : ∀ s action, invariant s → condition s action → invariant (step s action))

include hstep

/-- What allowed steps preserve holds between all actions of an allowed run. -/
theorem EachStep.states {s : σ} (h : invariant s) {actions : List α}
    (hrun : EachStep step condition s actions) :
    ∀ t ∈ states step s actions, invariant t := by
  induction actions generalizing s with
  | nil => simpa [CybexOS.states] using h
  | cons action actions ih =>
      refine List.forall_mem_cons.mpr ⟨h, ?_⟩
      exact ih (hstep s action h hrun.1) hrun.2

theorem EachStep.foldl {s : σ} (h : invariant s) {actions : List α}
    (hrun : EachStep step condition s actions) :
    invariant (actions.foldl step s) := by
  induction actions generalizing s with
  | nil => exact h
  | cons action actions ih => exact ih (hstep s action h hrun.1) hrun.2

/-- What the invariant gives of one allowed step holds of each. -/
theorem EachStep.of_invariant {conclusion : σ → α → Prop}
    (hconclusion : ∀ s action, invariant s → condition s action → conclusion s action)
    {s : σ} (h : invariant s) {actions : List α}
    (hrun : EachStep step condition s actions) :
    EachStep step conclusion s actions := by
  induction actions generalizing s with
  | nil => trivial
  | cons action actions ih =>
      exact ⟨hconclusion s action h hrun.1, ih (hstep s action h hrun.1) hrun.2⟩

end

end

end CybexOS
