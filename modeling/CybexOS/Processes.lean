/-
Processes as trees of operations: what one does next depends on the answers it
got, and may raise. Rules for what a process does in a mode of its own.
-/
import Mathlib.Tactic.Common

namespace CybexOS

/-- A process over operations `Op`, that raises an `ε` or returns an `α`. -/
inductive Process (Op : Type) (Answer : Op → Type) (ε α : Type) : Type
  | done (value : α)
  | throw (error : ε)
  | step (op : Op) (next : Answer op → Process Op Answer ε α)

namespace Process

variable {Op : Type} {Answer : Op → Type} {ε α β : Type}

/-- Go on by the way a process ended. -/
def andThen (process : Process Op Answer ε α)
    (next : Except ε α → Process Op Answer ε β) : Process Op Answer ε β :=
  match process with
  | done value => next (.ok value)
  | throw error => next (.error error)
  | step op rest => step op fun answer => (rest answer).andThen next

def ofExcept : Except ε α → Process Op Answer ε α
  | .ok value => done value
  | .error error => throw error

instance : Monad (Process Op Answer ε) where
  pure := done
  bind process next := process.andThen fun
    | .ok value => next value
    | .error error => throw error

/-- One operation. -/
def call (op : Op) : Process Op Answer ε (Answer op) := step op done

/-- Handle an error. -/
def handling (process : Process Op Answer ε α) (handler : ε → Process Op Answer ε α) :
    Process Op Answer ε α :=
  process.andThen fun
    | .ok value => done value
    | .error error => handler error

/-- The end of a process as a value. -/
def attempt (process : Process Op Answer ε α) : Process Op Answer ε (Except ε α) :=
  process.andThen done

/-- Do something in any case, and go on with the end of the process. -/
def ensuring (process : Process Op Answer ε α) (cleanup : Process Op Answer ε Unit) :
    Process Op Answer ε α :=
  process.andThen fun result => cleanup.andThen fun
    | .ok () => ofExcept result
    | .error error => throw error

theorem andThen_assoc {γ : Type} (process : Process Op Answer ε α)
    (next : Except ε α → Process Op Answer ε β) (last : Except ε β → Process Op Answer ε γ) :
    (process.andThen next).andThen last =
      process.andThen fun result => (next result).andThen last := by
  induction process with
  | done value => rfl
  | throw error => rfl
  | step op rest ih =>
      unfold andThen
      exact congrArg (step op) (funext ih)

instance : LawfulMonad (Process Op Answer ε) := by
  refine LawfulMonad.mk' _ (fun process => ?_) (fun _ _ => rfl) fun process next last => ?_
  · change process.andThen _ = process
    induction process with
    | done value => rfl
    | throw error => rfl
    | step op rest ih =>
        unfold andThen
        exact congrArg (step op) (funext ih)
  · refine (andThen_assoc process _ _).trans ?_
    refine congrArg process.andThen (funext fun result => ?_)
    cases result <;> rfl

/-! ### What a process does -/

section

variable {M : Type} {spec : (op : Op) → M → (Answer op → M → Prop) → Prop}

/-- In this mode the process does only what the specification of the operations
allows, and ends as described. -/
def Does (spec : (op : Op) → M → (Answer op → M → Prop) → Prop)
    (post : Except ε α → M → Prop) : Process Op Answer ε α → M → Prop
  | done value, mode => post (.ok value) mode
  | throw error, mode => post (.error error) mode
  | step op next, mode => spec op mode fun answer mode => Does spec post (next answer) mode

theorem does_andThen {process : Process Op Answer ε α}
    {next : Except ε α → Process Op Answer ε β} {post : Except ε β → M → Prop} {mode : M} :
    (process.andThen next).Does spec post mode ↔
      process.Does spec (fun result mode => (next result).Does spec post mode) mode := by
  induction process generalizing mode with
  | done value => exact Iff.rfl
  | throw error => exact Iff.rfl
  | step op rest ih =>
      unfold andThen Does
      have hnext : (fun answer mode => ((rest answer).andThen next).Does spec post mode) =
          fun answer mode => (rest answer).Does spec
            (fun result mode => (next result).Does spec post mode) mode := by
        funext answer mode
        exact propext (ih answer)
      rw [hnext]

theorem does_bind {process : Process Op Answer ε α} {next : α → Process Op Answer ε β}
    {post : Except ε β → M → Prop} {mode : M} :
    (process >>= next).Does spec post mode ↔
      process.Does spec (fun
        | .ok value, mode => (next value).Does spec post mode
        | .error error, mode => post (.error error) mode) mode := by
  change (process.andThen _).Does spec post mode ↔ _
  rw [does_andThen]
  refine iff_of_eq (congrArg (fun post => process.Does spec post mode) ?_)
  funext result mode
  cases result <;> rfl

theorem does_call {op : Op} {post : Except ε (Answer op) → M → Prop} {mode : M} :
    (call op : Process Op Answer ε (Answer op)).Does spec post mode ↔
      spec op mode fun answer mode => post (.ok answer) mode := Iff.rfl

theorem does_handling {process : Process Op Answer ε α} {handler : ε → Process Op Answer ε α}
    {post : Except ε α → M → Prop} {mode : M} :
    (process.handling handler).Does spec post mode ↔
      process.Does spec (fun
        | .ok value, mode => post (.ok value) mode
        | .error error, mode => (handler error).Does spec post mode) mode := by
  unfold handling
  rw [does_andThen]
  refine iff_of_eq (congrArg (fun post => process.Does spec post mode) ?_)
  funext result mode
  cases result <;> rfl

theorem does_attempt {process : Process Op Answer ε α}
    {post : Except ε (Except ε α) → M → Prop} {mode : M} :
    process.attempt.Does spec post mode ↔
      process.Does spec (fun result mode => post (.ok result) mode) mode := by
  unfold attempt
  rw [does_andThen]
  exact Iff.rfl

theorem does_ofExcept {result : Except ε α} {post : Except ε α → M → Prop} {mode : M} :
    (ofExcept result : Process Op Answer ε α).Does spec post mode ↔ post result mode := by
  cases result <;> exact Iff.rfl

variable (hspec : ∀ op mode (first second : Answer op → M → Prop),
  (∀ answer mode, first answer mode → second answer mode) → spec op mode first → spec op mode second)

include hspec

/-- A process ends as described if it ends better. -/
theorem Does.imp {process : Process Op Answer ε α} {post post' : Except ε α → M → Prop} {mode : M}
    (h : process.Does spec post mode)
    (hpost : ∀ result mode, post result mode → post' result mode) :
    process.Does spec post' mode := by
  induction process generalizing mode with
  | done value => exact hpost _ _ h
  | throw error => exact hpost _ _ h
  | step op rest ih => exact hspec op mode _ _ (fun answer mode hanswer => ih answer hanswer) h

end

end Process

end CybexOS
