/-
The stored session of one conversation of the Hermes bridge (`hermes_bridge.py`)
and the mark `has_messages` that guards it, while prompts, list refreshes and
restarts of the bridge interleave.
-/
import CybexOS.Text
import CybexOS.Runs
import Mathlib.Logic.Function.Basic

namespace CybexOS

namespace Hermes

/-- A row object of the conversation; `session` is `remote_session_id` when the
bridge serves a WebUI and `stored_session_id` otherwise. -/
structure Row where
  hasMessages : Bool
  session : Text
deriving DecidableEq

/-- What is known of a prompt that was sent: the bridge has a definite answer,
or the connection broke and its outcome is unknown. -/
inductive Delivery where
  | inFlight
  | accepted
  | rejected
  | unknown
deriving DecidableEq

/-- A prompt with the row object it holds and the `has_messages` it found. -/
structure Prompt where
  row : Nat
  previous : Bool
  delivery : Delivery
deriving DecidableEq

/-- Where `ensure_runtime` or `ensure_remote_session` stands under the lock. -/
inductive Ensuring where
  | asking
  | creating
deriving DecidableEq

/-- The bridge for one conversation. The registry holds the object `row` of the
objects `rows` made so far; others may still be held by coroutines. -/
structure Bridge where
  remote : Bool
  rows : Nat → Row
  made : Nat
  row : Nat
  disk : Row
  ensuring : Option (Nat × Ensuring)
  prompts : List Prompt

/-- What happens to the conversation, in any order. -/
inductive Happening where
  | ensures (row : Nat)
  | resumes
  | resumeFails (missing : Bool)
  | created (session : Text)
  | createFails
  | submits (row : Nat)
  | accepted (prompt : Nat)
  | nameless (prompt : Nat)
  | ambiguous (prompt : Nat)
  | rejected (prompt : Nat) (activeStream : Bool) (took : Bool)
  | shown (row : Nat)
  | refreshed (hasMessages : Bool) (session : Text)
  | saves
  | restarts
deriving DecidableEq

namespace Bridge

def put (b : Bridge) (row : Nat) (value : Row) : Bridge :=
  { b with rows := Function.update b.rows row value }

/-- `conversation["has_messages"] = value` -/
def mark (b : Bridge) (row : Nat) (value : Bool) : Bridge :=
  b.put row { b.rows row with hasMessages := value }

/-- `registry.save`, for the row that the registry holds. -/
def save (b : Bridge) : Bridge := { b with disk := b.rows b.row }

def settle (b : Bridge) (prompt : Nat) (delivery : Delivery) : Bridge :=
  { b with prompts := b.prompts.modify prompt fun sent => { sent with delivery := delivery } }

/-- The lock is taken: a stored session is asked for, or a new one created. -/
def ensure (b : Bridge) (row : Nat) : Bridge :=
  { b with ensuring := some (row, if (b.rows row).session = [] then .creating else .asking) }

/-- The fallback of an `ensure` whose session could not be resumed. -/
def resumeFailed (b : Bridge) (missing : Bool) (row : Nat) : Bridge :=
  if missing = false ∨ (b.rows row).hasMessages then { b with ensuring := none }
  else
    let cleared := { b.put row { b.rows row with session := [] } with
      ensuring := some (row, .creating) }
    if b.remote then cleared else cleared.save

/-- `prompt.submit`, up to its request; only the local gateway marks first. -/
def submit (b : Bridge) (row : Nat) : Bridge :=
  let sent := { b with prompts := b.prompts ++ [⟨row, (b.rows row).hasMessages, .inFlight⟩] }
  if b.remote then sent else (sent.mark row true).save

/-- The mark that a prompt leaves when it may have been accepted. -/
def markSent (b : Bridge) (row : Nat) : Bridge :=
  if b.remote then (b.mark row true).save else b

/-- The mark that a rejected prompt leaves. -/
def unmark (b : Bridge) (sent : Prompt) (activeStream : Bool) : Bridge :=
  (b.mark sent.row (if b.remote ∧ activeStream then true else sent.previous)).save

/-- One event; an event that cannot happen changes nothing. -/
def step (b : Bridge) : Happening → Bridge
  -- only a refresh of a WebUI's list leaves row objects behind
  | .ensures row =>
      if b.ensuring = none ∧ row < b.made ∧ (b.remote ∨ row = b.row) then b.ensure row else b
  | .resumes =>
      match b.ensuring with
      | some (_, .asking) => { b with ensuring := none }.save
      | _ => b
  | .resumeFails missing =>
      match b.ensuring with
      | some (row, .asking) => b.resumeFailed missing row
      | _ => b
  | .created session =>
      match b.ensuring with
      | some (row, .creating) =>
          { (b.put row { b.rows row with session := session }).save with ensuring := none }
      | _ => b
  | .createFails =>
      match b.ensuring with
      | some (_, .creating) => { b with ensuring := none }
      | _ => b
  | .submits row => if row < b.made ∧ (b.remote ∨ row = b.row) then b.submit row else b
  | .accepted prompt =>
      match b.prompts[prompt]? with
      | some sent => if sent.delivery = .inFlight then
          (b.settle prompt .accepted).markSent sent.row else b
      | none => b
  -- an answer of the WebUI that names no stream leaves the mark alone
  | .nameless prompt =>
      match b.prompts[prompt]? with
      | some sent => if sent.delivery = .inFlight ∧ b.remote then b.settle prompt .accepted else b
      | none => b
  | .ambiguous prompt =>
      match b.prompts[prompt]? with
      | some sent => if sent.delivery = .inFlight then
          (b.settle prompt .unknown).markSent sent.row else b
      | none => b
  | .rejected prompt activeStream took =>
      match b.prompts[prompt]? with
      | some sent => if sent.delivery = .inFlight then
          (b.settle prompt (if took then .accepted else .rejected)).unmark sent activeStream else b
      | none => b
  -- a transcript with messages
  | .shown row => (b.mark row true).save
  | .refreshed hasMessages session =>
      if b.remote then
        { b.put b.made ⟨hasMessages, session⟩ with made := b.made + 1, row := b.made }
      else b
  | .saves => b.save
  | .restarts =>
      { b.put b.made b.disk with
        made := b.made + 1, row := b.made, ensuring := none,
        prompts := b.prompts.map fun sent =>
          if sent.delivery = .inFlight then { sent with delivery := .unknown } else sent }

/-- A conversation that was just made. -/
def fresh (remote : Bool) : Bridge := ⟨remote, fun _ => ⟨false, []⟩, 1, 0, ⟨false, []⟩, none, []⟩

/-- The event gives up the stored session of the row that it holds. -/
def Forgets (b : Bridge) (happening : Happening) : Prop :=
  ∃ row, b.ensuring = some (row, .asking) ∧ (b.rows row).session ≠ [] ∧
    ((b.step happening).rows row).session = []

end Bridge

/-- Hermes may have accepted the prompt. -/
def Prompt.MayBeAccepted (prompt : Prompt) : Prop := prompt.delivery ≠ .rejected

instance (prompt : Prompt) : Decidable prompt.MayBeAccepted :=
  inferInstanceAs (Decidable (_ ≠ _))

end Hermes

end CybexOS
