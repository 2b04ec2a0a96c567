/-
Server-sent events as the Hermes bridge reads them from a response, line by
line (`_consume_remote_sse`), and as a journal is written on the wire.
-/
import CybexOS.Utf8

namespace CybexOS

namespace Hermes

/-- `MAX_REMOTE_SSE_EVENT` -/
def maxRemoteSseEvent : Nat := 4 * 1024 * 1024

/-! ### Reading -/

/-- The event that the reader gathers. -/
structure Pending where
  name : Text
  data : List Text
  id : Text
  size : Nat
deriving DecidableEq

/-- What a line amounts to. -/
inductive Line where
  | fault
  | blank
  | more (pending : Pending)
deriving DecidableEq

namespace Pending

def fresh : Pending := ⟨ascii "message", [], [], 0⟩

/-- `line.partition(":")`, and the value without one leading space. -/
def value (line : Text) : Text :=
  match line.dropWhile (· ≠ 58) with
  | [] => []
  | _ :: rest => if rest.head? = some 32 then rest.tail else rest

/-- A line that is neither blank nor a comment. -/
def field (pending : Pending) (size : Nat) (line : Text) : Line :=
  let field := line.takeWhile (· ≠ 58)
  let value := value line
  if field = ascii "event" then
    let name := value.take 256
    .more { pending with name := if name = [] then ascii "message" else name }
  else if field = ascii "data" then
    if maxRemoteSseEvent < pending.size + size then .fault
    else .more { pending with size := pending.size + size, data := pending.data ++ [value] }
  else if field = ascii "id" ∧ 0 ∉ value then .more { pending with id := value.take 1024 }
  else .more pending

/-- A line as `readline` returns it. -/
def read (pending : Pending) (raw : List Nat) : Line :=
  if maxRemoteSseEvent < raw.length then .fault
  else
    match Utf8.decode raw with
    | none => .fault
    | some text =>
        let line := text.rdropWhile fun c => c == 13 || c == 10
        if line = [] then .blank
        else if line.head? = some 58 then .more pending
        else pending.field raw.length line

end Pending

/-! ### Writing -/

inductive Field where
  | id
  | event
  | data
  | retry
  | comment
deriving DecidableEq

def Field.name : Field → Text
  | .id => ascii "id"
  | .event => ascii "event"
  | .data => ascii "data"
  | .retry => ascii "retry"
  | .comment => []

/-- A line of an event, with or without a space after its colon. -/
structure WireLine where
  field : Field
  value : Text
  spaced : Bool
  crlf : Bool
deriving DecidableEq

def lineEnd (crlf : Bool) : Text := if crlf then [13, 10] else [10]

def WireLine.text (line : WireLine) : Text :=
  line.field.name ++ 58 :: if line.spaced then 32 :: line.value else line.value

def WireLine.bytes (line : WireLine) : List Nat :=
  (line.text ++ lineEnd line.crlf).flatMap Utf8.encodeChar

/-- A line that the reader takes as it was meant. -/
structure WireLine.Valid (line : WireLine) : Prop where
  scalar : line.value.all Utf8.isScalar = true
  oneLine : 10 ∉ line.value ∧ 13 ∉ line.value
  plain : line.spaced = false → line.value.head? ≠ some 32
  id : line.field = .id → line.value.length ≤ 1024 ∧ 0 ∉ line.value
  event : line.field = .event → line.value.length ≤ 256

/-- The value of the last line of a field. -/
def lastOf (field : Field) (lines : List WireLine) : Text :=
  (((lines.filter fun line => line.field = field).getLast?).map WireLine.value).getD []

def dataOf (lines : List WireLine) : List Text :=
  (lines.filter fun line => line.field = .data).map WireLine.value

/-- The bytes of the lines of data. -/
def dataSize (lines : List WireLine) : Nat :=
  lines.foldl (fun size line => if line.field = .data then size + line.bytes.length else size) 0

def nameOf (lines : List WireLine) : Text :=
  if lastOf .event lines = [] then ascii "message" else lastOf .event lines

/-- An event of a journal, in lines of any order, and the blank line after it. -/
structure Entry where
  lines : List WireLine
  crlf : Bool
deriving DecidableEq

namespace Entry

def id (entry : Entry) : Text := lastOf .id entry.lines

def wire (entry : Entry) : List (List Nat) :=
  entry.lines.map WireLine.bytes ++ [lineEnd entry.crlf]

structure Valid (entry : Entry) : Prop where
  lines : ∀ line ∈ entry.lines, line.Valid
  id : entry.id ≠ []
  data : dataOf entry.lines ≠ []

end Entry

/-! ### What is written is read -/

/-- What the reader has gathered after some lines. -/
def gathered (lines : List WireLine) : Pending where
  name := nameOf lines
  data := dataOf lines
  id := lastOf .id lines
  size := dataSize lines

theorem gathered_nil : gathered [] = .fresh := by decide

theorem lastOf_append (field : Field) (lines : List WireLine) (line : WireLine) :
    lastOf field (lines ++ [line]) = if line.field = field then line.value else lastOf field lines := by
  unfold lastOf
  rw [List.filter_append]
  split_ifs with hfield
  · rw [List.filter_singleton]
    simp [hfield]
  · rw [List.filter_singleton]
    simp [hfield]

theorem dataOf_append (lines : List WireLine) (line : WireLine) :
    dataOf (lines ++ [line]) = if line.field = .data then dataOf lines ++ [line.value]
      else dataOf lines := by
  unfold dataOf
  rw [List.filter_append, List.map_append]
  split_ifs with hfield
  · rw [List.filter_singleton]
    simp [hfield]
  · rw [List.filter_singleton]
    simp [hfield]

theorem dataSize_append (lines : List WireLine) (line : WireLine) :
    dataSize (lines ++ [line]) = if line.field = .data then dataSize lines + line.bytes.length
      else dataSize lines := by
  unfold dataSize
  rw [List.foldl_append]
  rfl

theorem Field.name_plain (field : Field) : ∀ c ∈ field.name, c ≠ 58 ∧ c ≠ 10 ∧ c ≠ 13 ∧ c < 128 := by
  cases field <;> decide

theorem lineEnd_plain (crlf : Bool) : ∀ c ∈ lineEnd crlf, c < 128 := by
  cases crlf <;> decide

namespace WireLine

theorem text_oneLine {line : WireLine} (h : line.Valid) :
    ∀ c ∈ line.text, c ≠ 10 ∧ c ≠ 13 := by
  intro c hc
  have hvalue : ∀ d ∈ line.value, d ≠ 10 ∧ d ≠ 13 := fun d hd =>
    ⟨fun hten => h.oneLine.1 (hten ▸ hd), fun hten => h.oneLine.2 (hten ▸ hd)⟩
  unfold text at hc
  rcases List.mem_append.mp hc with hname | hrest
  · exact ⟨(line.field.name_plain c hname).2.1, (line.field.name_plain c hname).2.2.1⟩
  · rcases List.mem_cons.mp hrest with rfl | hrest
    · decide
    · split_ifs at hrest
      · rcases List.mem_cons.mp hrest with rfl | hrest
        · decide
        · exact hvalue c hrest
      · exact hvalue c hrest

theorem text_scalar {line : WireLine} (h : line.Valid) :
    (line.text ++ lineEnd line.crlf).all Utf8.isScalar = true := by
  have hplain : ∀ c, c < 128 → Utf8.isScalar c = true := by
    intro c hc
    exact Utf8.isScalar_iff.mpr (Or.inl (by omega))
  rw [List.all_eq_true]
  intro c hc
  rcases List.mem_append.mp hc with htext | hend
  · unfold text at htext
    rcases List.mem_append.mp htext with hname | hrest
    · exact hplain c (line.field.name_plain c hname).2.2.2
    · rcases List.mem_cons.mp hrest with rfl | hrest
      · decide
      · split_ifs at hrest
        · rcases List.mem_cons.mp hrest with rfl | hrest
          · decide
          · exact List.all_eq_true.mp h.scalar c hrest
        · exact List.all_eq_true.mp h.scalar c hrest
  · exact hplain c (lineEnd_plain line.crlf c hend)

theorem text_ne_nil (line : WireLine) : line.text ≠ [] :=
  List.append_ne_nil_of_right_ne_nil _ (List.cons_ne_nil _ _)

theorem head_text_comment {line : WireLine} (h : line.field = .comment) :
    line.text.head? = some 58 := by
  unfold text
  rw [h]
  rfl

theorem head_text_field {line : WireLine} (h : line.field ≠ .comment) :
    line.text.head? ≠ some 58 := by
  unfold text
  cases hfield : line.field with
  | comment => exact absurd hfield h
  | id => exact fun hhead => absurd (Option.some.inj hhead) (by decide)
  | event => exact fun hhead => absurd (Option.some.inj hhead) (by decide)
  | data => exact fun hhead => absurd (Option.some.inj hhead) (by decide)
  | retry => exact fun hhead => absurd (Option.some.inj hhead) (by decide)

theorem takeWhile_text (line : WireLine) :
    line.text.takeWhile (· ≠ 58) = line.field.name := by
  unfold text
  rw [List.takeWhile_append_of_pos fun c hc => decide_eq_true (line.field.name_plain c hc).1]
  simp

theorem value_text {line : WireLine} (h : line.Valid) : Pending.value line.text = line.value := by
  have hdrop : line.text.dropWhile (· ≠ 58) =
      58 :: if line.spaced then 32 :: line.value else line.value := by
    unfold text
    rw [List.dropWhile_append_of_pos fun c hc => decide_eq_true (line.field.name_plain c hc).1]
    simp
  unfold Pending.value
  rw [hdrop]
  dsimp only
  cases hspaced : line.spaced with
  | true => rfl
  | false => exact if_neg (h.plain hspaced)

end WireLine

theorem rdropWhile_lineEnd {text : Text} (h : ∀ c ∈ text, c ≠ 10 ∧ c ≠ 13) (crlf : Bool) :
    (text ++ lineEnd crlf).rdropWhile (fun c => c == 13 || c == 10) = text := by
  have hself : text.rdropWhile (fun c => c == 13 || c == 10) = text := by
    refine rdropWhile_eq_self_of_getLast fun c hc => ?_
    obtain ⟨hten, hthirteen⟩ := h c (List.mem_of_mem_getLast? hc)
    simp [hten, hthirteen]
  cases crlf with
  | true =>
      rw [show text ++ lineEnd true = text ++ [13] ++ [10] by simp [lineEnd],
        List.rdropWhile_concat_pos _ _ _ (by decide), List.rdropWhile_concat_pos _ _ _ (by decide),
        hself]
  | false =>
      rw [show text ++ lineEnd false = text ++ [10] from rfl,
        List.rdropWhile_concat_pos _ _ _ (by decide), hself]

/-- A line of another field leaves the event alone. -/
theorem gathered_other {read : List WireLine} {line : WireLine}
    (h : line.field ≠ .id ∧ line.field ≠ .event ∧ line.field ≠ .data) :
    gathered (read ++ [line]) = gathered read := by
  unfold gathered nameOf
  rw [lastOf_append, lastOf_append, dataOf_append, dataSize_append, if_neg h.1, if_neg h.2.1,
    if_neg h.2.2, if_neg h.2.2]

theorem field_text (read : List WireLine) {line : WireLine} (h : line.Valid) :
    (gathered read).field line.bytes.length line.text = .fault ∨
      (gathered read).field line.bytes.length line.text = .more (gathered (read ++ [line])) := by
  unfold Pending.field
  rw [line.takeWhile_text, WireLine.value_text h]
  dsimp only
  cases hfield : line.field with
  | id =>
      obtain ⟨hlength, hnul⟩ := h.id hfield
      refine Or.inr ?_
      rw [if_neg (by decide), if_neg (by decide), if_pos ⟨rfl, hnul⟩, List.take_of_length_le hlength]
      unfold gathered nameOf
      rw [lastOf_append, lastOf_append, dataOf_append, dataSize_append, hfield]
      simp
  | event =>
      refine Or.inr ?_
      rw [if_pos (by rfl), List.take_of_length_le (h.event hfield)]
      unfold gathered nameOf
      rw [lastOf_append, lastOf_append, dataOf_append, dataSize_append, hfield]
      simp
  | data =>
      rw [if_neg (by decide), if_pos (by rfl)]
      split_ifs
      · exact Or.inl rfl
      · refine Or.inr ?_
        unfold gathered nameOf
        rw [lastOf_append, lastOf_append, dataOf_append, dataSize_append, hfield]
        simp
  | retry =>
      refine Or.inr ?_
      rw [if_neg (by decide), if_neg (by decide), if_neg fun hid => absurd hid.1 (by decide),
        gathered_other (by rw [hfield]; decide)]
  | comment =>
      refine Or.inr ?_
      rw [if_neg (by decide), if_neg (by decide), if_neg fun hid => absurd hid.1 (by decide),
        gathered_other (by rw [hfield]; decide)]

/-- A written line is gathered, or it is too long. -/
theorem read_line (read : List WireLine) {line : WireLine} (h : line.Valid) :
    (gathered read).read line.bytes = .fault ∨
      (gathered read).read line.bytes = .more (gathered (read ++ [line])) := by
  unfold Pending.read
  split_ifs
  · exact Or.inl rfl
  · rw [WireLine.bytes, Utf8.decode_flatMap (WireLine.text_scalar h)]
    dsimp only
    rw [rdropWhile_lineEnd (WireLine.text_oneLine h), if_neg line.text_ne_nil, ← WireLine.bytes]
    by_cases hcomment : line.field = .comment
    · rw [if_pos (WireLine.head_text_comment hcomment)]
      exact Or.inr (by rw [gathered_other (by rw [hcomment]; decide)])
    · rw [if_neg (WireLine.head_text_field hcomment)]
      exact field_text read h

theorem read_blank (pending : Pending) (crlf : Bool) : pending.read (lineEnd crlf) = .blank := by
  cases crlf <;> rfl

end Hermes

end CybexOS
