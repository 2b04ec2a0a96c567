/-
A `Process` of the shell: it runs until it has exited, also when it was asked to
exit, and may be asked meanwhile to run once more.
-/
import Mathlib.Tactic.Common

namespace CybexOS

namespace Shell

/-- The run that is not over, with what it was started with; whether it was asked
to exit; and whether another run is to start after it. -/
structure Proc (ρ : Type) where
  run : Option ρ
  ending : Bool
  queued : Bool
deriving DecidableEq

namespace Proc

variable {ρ : Type}

def idle : Proc ρ := ⟨none, false, false⟩

def running (proc : Proc ρ) : Bool := proc.run.isSome

/-- `running = false` -/
def stop (proc : Proc ρ) : Proc ρ := ⟨proc.run, proc.running, false⟩

/-- `running = true`, with what a run that starts now is started with. -/
def start (proc : Proc ρ) (given : ρ) : Proc ρ :=
  match proc.run with
  | none => ⟨some given, false, false⟩
  | some _ => { proc with queued := true }

/-- The run is over. -/
def exited (proc : Proc ρ) : Proc ρ := ⟨none, false, proc.queued⟩

/-- The run that was to start after the last one starts. -/
def resume (proc : Proc ρ) (given : ρ) : Proc ρ :=
  if proc.queued ∧ proc.run.isNone then ⟨some given, false, false⟩ else proc

@[simp]
theorem running_eq_false {proc : Proc ρ} : proc.running = false ↔ proc.run = none := by
  unfold running
  rw [Option.isSome_eq_false_iff, Option.isNone_iff_eq_none]

/-- Only a run that is not over ends, and only after one that ends another one is to start. -/
structure Sound (proc : Proc ρ) : Prop where
  ending : proc.ending = true → proc.running = true
  queued : proc.queued = true → proc.ending = true

theorem sound_idle : (idle : Proc ρ).Sound := ⟨nofun, nofun⟩

end Proc

end Shell

end CybexOS
