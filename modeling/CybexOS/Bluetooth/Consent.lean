/-
What holds of a session in every run: requests are answered once, operations come
one at a time and end, and none goes on after it was canceled. A request is
accepted only by a reply to its own prompt where no reply can meet another one.
-/
import CybexOS.Bluetooth.Session
import CybexOS.Runs

namespace CybexOS

namespace Bluetooth

open Json (PyValue)

/-! ### What happened -/

def Happening.isAccepted : Happening → Bool
  | .accepted _ _ => true
  | _ => false

/-- The latest operation has not ended. -/
def inProgress : List Happening → Bool
  | [] => false
  | .accepted _ _ :: _ => true
  | .ended :: _ => false
  | _ :: older => inProgress older

/-- What has happened since the latest operation was accepted. -/
def current (log : List Happening) : List Happening := log.takeWhile fun entry => !entry.isAccepted

/-- Operations are accepted when none is in progress, and each ends once. -/
def Alternate : List Happening → Prop
  | [] => True
  | entry :: older => (entry.isAccepted = true → inProgress older = false) ∧
      (entry = .ended → inProgress older = true) ∧ Alternate older

/-- No step is started of an operation that was canceled. -/
def Obeyed : List Happening → Prop
  | [] => True
  | entry :: older => (entry = .trusting ∨ entry = .connecting → .canceled ∉ current older) ∧
      Obeyed older

/-- A reply of the drawer that accepts. -/
def accepts (message : PyValue) : Bool :=
  Session.isStr (Session.field message "action") "reply" &&
    Session.isTrue (Session.field message "accept")

/-! ### Calls of an operation -/

/-- How many calls an operation has still to make, the one that is to be answered
included. -/
def Done.rank : Done → ℕ
  | .paired => 3
  | .trusted _ => 2
  | .finish => 1
  | .complete _ => 0
  | .nothing => 0

/-- The operation goes on or ends with the answer. -/
def Done.isChain (done : Done) : Bool := 0 < done.rank

def weight (value : BusCall → ℕ) (calls : List BusCall) : ℕ :=
  calls.foldr (fun busCall total => value busCall + total) 0

theorem weight_append (value : BusCall → ℕ) (calls : List BusCall) (busCall : BusCall) :
    weight value (calls ++ [busCall]) = weight value calls + value busCall := by
  induction calls with
  | nil => simp [weight]
  | cons first calls ih =>
      have hcons : weight value (first :: calls) = value first + weight value calls := rfl
      have happend : weight value (first :: calls ++ [busCall]) =
          value first + weight value (calls ++ [busCall]) := rfl
      rw [happend, ih, hcons, Nat.add_assoc]

theorem weight_eraseIdx (value : BusCall → ℕ) {calls : List BusCall} {index : ℕ}
    {busCall : BusCall} (h : calls[index]? = some busCall) :
    weight value (calls.eraseIdx index) + value busCall = weight value calls := by
  induction calls generalizing index with
  | nil => simp at h
  | cons first calls ih =>
      have hcons (rest : List BusCall) : weight value (first :: rest) =
          value first + weight value rest := rfl
      cases index with
      | zero =>
          obtain rfl : first = busCall := by simpa using h
          rw [List.eraseIdx_cons_zero, hcons, Nat.add_comm]
      | succ index =>
          rw [List.eraseIdx_cons_succ, hcons, hcons, Nat.add_assoc, ih (by simpa using h)]

theorem weight_pos {value : BusCall → ℕ} {calls : List BusCall} (h : 0 < weight value calls) :
    ∃ (index : ℕ) (busCall : BusCall), calls[index]? = some busCall ∧ 0 < value busCall := by
  induction calls with
  | nil => simp [weight] at h
  | cons first calls ih =>
      rcases Nat.eq_zero_or_pos (value first) with hzero | hpos
      · have hcons : weight value (first :: calls) = value first + weight value calls := rfl
        rw [hcons, hzero, Nat.zero_add] at h
        obtain ⟨index, busCall, hget, hvalue⟩ := ih h
        exact ⟨index + 1, busCall, by simpa using hget, hvalue⟩
      · exact ⟨0, first, rfl, hpos⟩

/-- The calls of the operation that are to be answered. -/
def chainCalls (calls : List BusCall) : ℕ :=
  weight (fun busCall => if busCall.done.isChain then 1 else 0) calls

theorem chainCalls_append (calls : List BusCall) (busCall : BusCall) :
    chainCalls (calls ++ [busCall]) =
      chainCalls calls + if busCall.done.isChain then 1 else 0 :=
  weight_append _ calls busCall

/-- The calls of the operation that are still to come. -/
def remaining (calls : List BusCall) : ℕ := weight (fun busCall => busCall.done.rank) calls

theorem remaining_of_chainCalls {calls : List BusCall} (h : chainCalls calls = 0) :
    remaining calls = 0 := by
  rcases Nat.eq_zero_or_pos (remaining calls) with hzero | hpos
  · exact hzero
  · obtain ⟨index, busCall, hget, hrank⟩ := weight_pos hpos
    have herase := weight_eraseIdx (fun busCall => if busCall.done.isChain then 1 else 0) hget
    have hchain : busCall.done.isChain = true := by simpa [Done.isChain] using hrank
    unfold chainCalls at h
    rw [h] at herase
    simp [hchain] at herase

/-! ### Properties -/

/-- Every request that has waited is answered once, unless it still waits; with a
value only for an accepting reply that was sent when its prompt had been received. -/
structure Consent (s : Session) : Prop where
  once : ∀ number ∈ s.waited, s.answers.countP (·.1 = number) =
    if s.pending = some number then 0 else 1
  willing : ∀ number value line, (number, Answer.accepted value line) ∈ s.answers →
    accepts line.message = true ∧ number ∈ line.seen

/-- An operation in progress has a call to be answered, and every answer to it
brings the end nearer. -/
def Ends (s : Session) : Prop :=
  s.closed = false → (inProgress s.log = true ↔ 0 < remaining s.calls) ∧
    ∀ (index : ℕ) (busCall : BusCall) (error : Text), s.calls[index]? = some busCall →
      busCall.done.isChain = true →
      remaining (s.step (.reply index error)).calls < remaining s.calls

structure Consensual (s : Session) : Prop where
  consent : Consent s
  alternate : Alternate s.log
  obeyed : Obeyed s.log
  ends : Ends s

/-! ### Conditions -/

namespace Session

/-- The call of the agent starts to wait for the user. -/
def waits (s : Session) (sender : Text) (agentCall : AgentCall) : Bool :=
  !s.closed && sender == s.owner && s.pending.isNone && s.device ≠ [] &&
    match agentCall.prompt with
    | some (path, prompt) => path == s.device && !prompt.kind.isDisplay
    | none => false

/-- An accepting reply is sent when the prompt of the request that waits has been
received, and no request starts to wait before an accepting reply is read. -/
def Fit (s : Session) : Move → Prop
  | .send message => accepts message = true → ∀ number ∈ s.pending, number ∈ s.seen
  | .agent sender agentCall =>
      s.waits sender agentCall = true → ∀ line ∈ s.input, accepts line.message = false
  | _ => True

end Session

end Bluetooth

end CybexOS
