/-
The conversation page's rows: the edit script between two row lists, and the
rows of a message history that the page's model follows.
-/
import CybexOS.Dict
import CybexOS.T3.History

namespace CybexOS

namespace T3

open Json

/-! ### Rows -/

/-- A property as a comparison sees it: an object is its identity. -/
inductive Operand where
  | undefined
  | null
  | bool (value : Bool)
  | num (value : Number)
  | str (text : Text)
  | object (identity : Nat)
deriving DecidableEq

/-- `left === right` -/
def Operand.same (left right : Operand) : Bool := left ≠ .num .nan && left == right

theorem Operand.eq_of_same {left right : Operand} (h : left.same right = true) :
    left = right := by
  rw [Operand.same, Bool.and_eq_true] at h
  exact beq_iff_eq.mp h.2

abbrev Row := List (Text × Operand)

/-- `row[field]` -/
def Row.read (row : Row) (field : Text) : Operand := (row.lookup field).getD .undefined

/-- The rows show the same in these fields. -/
def AgreesOn (fields : List Text) (left right : Row) : Prop :=
  ∀ field ∈ fields, left.read field = right.read field

/-! ### Edit scripts -/

inductive RowOp where
  | remove (index count : Nat)
  | insert (index : Nat) (row : Row)
  | set (index : Nat) (changes : Row)
deriving DecidableEq

/-- One operation on a row list, `none` outside its bounds. -/
def applyOp (rows : List Row) : RowOp → Option (List Row)
  | .remove index count =>
      if index + count ≤ rows.length then some (rows.take index ++ rows.drop (index + count))
      else none
  | .insert index row =>
      if index ≤ rows.length then some (rows.take index ++ row :: rows.drop index) else none
  | .set index changes =>
      rows[index]?.map fun row => rows.set index (Dict.merge row changes)

def applyOps (rows : List Row) (ops : List RowOp) : Option (List Row) := ops.foldlM applyOp rows

/-- The variables of the loop in `keyedRowOps`. -/
structure Script where
  work : List Row
  ops : List RowOp

section

variable (keyField : Text) (fields : List Text)

/-- The first row from `n` on with the key of `row`. -/
def indexFrom (work : List Row) (n : Nat) (row : Row) : Option Nat :=
  ((work.drop n).findIdx? fun held => (held.read keyField).same (row.read keyField)).map (n + ·)

/-- `changes`, `none` while no field differs. -/
def differences (held row : Row) : Option Row :=
  fields.foldl
    (fun changes field =>
      if (held.read field).same (row.read field) then changes
      else some (Dict.set (changes.getD []) field (row.read field)))
    none

/-- One turn of the loop. -/
def placeRow (script : Script) (n : Nat) (row : Row) : Script :=
  match indexFrom keyField script.work n row with
  | none =>
      { work := script.work.take n ++ row :: script.work.drop n
        ops := script.ops ++ [.insert n row] }
  | some at' =>
      let script := if n < at' then
          { work := script.work.take n ++ script.work.drop at'
            ops := script.ops ++ [.remove n (at' - n)] : Script }
        else script
      let changes := differences fields (script.work[n]?.getD []) row
      { work := script.work.set n row
        ops := script.ops ++ (changes.map (RowOp.set n)).toList }

def keyedRowOps (current next : List Row) : List RowOp :=
  let script := next.zipIdx.foldl
    (fun script item => placeRow keyField fields script item.2 item.1) ⟨current, []⟩
  if next.length < script.work.length then
    script.ops ++ [.remove next.length (script.work.length - next.length)]
  else script.ops

end

/-! ### The script leads from one list to the other -/

theorem applyOps_append (rows : List Row) (ops more : List RowOp) :
    applyOps rows (ops ++ more) = (applyOps rows ops).bind fun rows => applyOps rows more :=
  List.foldlM_append

theorem applyOps_single (rows : List Row) (op : RowOp) : applyOps rows [op] = applyOp rows op := by
  simp [applyOps]

/-- What the loop over the fields has collected. -/
structure Collected (held row : Row) (done : List Text) (changes : Row) : Prop where
  nodup : (Dict.keys changes).Nodup
  wanted : ∀ field value, changes.lookup field = some value → value = row.read field
  covered : ∀ field ∈ done, changes.lookup field = none → held.read field = row.read field

theorem Collected.step {held row : Row} {done : List Text} {changes : Option Row}
    (h : Collected held row done (changes.getD [])) (field : Text) :
    Collected held row (done ++ [field])
      ((if (held.read field).same (row.read field) then changes
        else some (Dict.set (changes.getD []) field (row.read field))).getD []) := by
  split_ifs with hsame
  · refine ⟨h.nodup, h.wanted, fun asked hasked hnone => ?_⟩
    rcases List.mem_append.mp hasked with hdone | hfield
    · exact h.covered asked hdone hnone
    · rw [List.mem_singleton.mp hfield]
      exact Operand.eq_of_same hsame
  · rw [Option.getD_some]
    refine ⟨Dict.nodup_set h.nodup, fun asked value hlookup => ?_, fun asked hasked hnone => ?_⟩
    · rw [Dict.lookup_set] at hlookup
      split_ifs at hlookup with heq
      · rw [heq, Option.some.inj hlookup]
      · exact h.wanted asked value hlookup
    · rw [Dict.lookup_set] at hnone
      split_ifs at hnone with heq
      rcases List.mem_append.mp hasked with hdone | hfield
      · exact h.covered asked hdone hnone
      · exact absurd (List.mem_singleton.mp hfield) heq

theorem differences_collected (fields : List Text) (held row : Row) :
    Collected held row fields ((differences fields held row).getD []) := by
  have hloop : ∀ (later done : List Text) (changes : Option Row),
      Collected held row done (changes.getD []) →
      Collected held row (done ++ later) ((later.foldl (fun changes field =>
        if (held.read field).same (row.read field) then changes
        else some (Dict.set (changes.getD []) field (row.read field))) changes).getD []) := by
    intro later
    induction later with
    | nil =>
        intro done changes h
        rwa [List.append_nil]
    | cons field later ih =>
        intro done changes h
        rw [List.foldl_cons, List.append_cons]
        exact ih _ _ (h.step field)
  exact hloop fields [] none ⟨List.nodup_nil, fun _ _ h => (by cases h), fun _ h => (by cases h)⟩

theorem Collected.read_merge {held row changes base : Row} {done : List Text} {field : Text}
    (h : Collected held row done changes) (hbase : base.read field = held.read field)
    (hfield : field ∈ done ∨ held.read field = row.read field) :
    Row.read (Dict.merge base changes) field = row.read field := by
  unfold Row.read
  rw [Dict.lookup_merge h.nodup]
  cases hlookup : changes.lookup field with
  | some value =>
      rw [Option.some_or, Option.getD_some]
      exact h.wanted field value hlookup
  | none =>
      rw [Option.none_or]
      exact hbase.trans (hfield.elim (fun hdone => h.covered field hdone hlookup) id)

/-- Two row lists show the same in these fields, row by row. -/
def Shows (fields : List Text) (shown rows : List Row) : Prop :=
  List.Forall₂ (AgreesOn fields) shown rows

section

variable {keyField : Text} {fields : List Text} {base done : List Row} {script : Script}

/-- From a list that shows the one compared, the operations lead to the rows
done so far and the untouched rest of the working copy. -/
def InStep (keyField : Text) (fields : List Text) (base done : List Row) (script : Script)
    (rest : List Row) : Prop :=
  script.work = done ++ rest ∧
    ∃ shown kept, Shows (keyField :: fields) shown done ∧ Shows (keyField :: fields) kept rest ∧
      applyOps base script.ops = some (shown ++ kept)

theorem indexFrom_some {rest : List Row} {row : Row} {at' : Nat}
    (h : indexFrom keyField (done ++ rest) done.length row = some at') :
    ∃ skipped held later, rest = skipped ++ held :: later ∧
      at' = done.length + skipped.length ∧ held.read keyField = row.read keyField := by
  rw [indexFrom, List.drop_left, Option.map_eq_some_iff] at h
  obtain ⟨j, hfind, rfl⟩ := h
  obtain ⟨hj, hsame, -⟩ := List.findIdx?_eq_some_iff_getElem.mp hfind
  refine ⟨rest.take j, rest[j], rest.drop (j + 1), ?_, ?_, Operand.eq_of_same hsame⟩
  · rw [List.cons_getElem_drop_succ, List.take_append_drop]
  · rw [List.length_take, min_eq_left hj.le]

theorem InStep.insert {rest : List Row} (h : InStep keyField fields base done script rest)
    (row : Row) :
    InStep keyField fields base (done ++ [row])
      ⟨script.work.take done.length ++ row :: script.work.drop done.length,
        script.ops ++ [.insert done.length row]⟩ rest := by
  obtain ⟨hwork, shown, kept, hshown, hkept, hops⟩ := h
  have hlength : done.length = shown.length := hshown.length_eq.symm
  refine ⟨?_, shown ++ [row], kept, ?_, hkept, ?_⟩
  · rw [hwork, List.take_left, List.drop_left, List.append_assoc, List.singleton_append]
  · exact List.rel_append hshown (List.forall₂_cons.mpr ⟨fun _ _ => rfl, List.Forall₂.nil⟩)
  · rw [applyOps_append, hops, Option.bind_some, applyOps_single, applyOp, hlength,
      if_pos (by simp), List.take_left, List.drop_left, List.append_assoc, List.singleton_append]

theorem InStep.skip {skipped rest : List Row}
    (h : InStep keyField fields base done script (skipped ++ rest)) :
    InStep keyField fields base done
      (if done.length < done.length + skipped.length then
        { work := script.work.take done.length ++
            script.work.drop (done.length + skipped.length)
          ops := script.ops ++ [.remove done.length (done.length + skipped.length - done.length)] }
      else script) rest := by
  obtain ⟨hwork, shown, whole, hshown, hwhole, hops⟩ := h
  obtain ⟨gone, kept, hgone, hkept, rfl⟩ : ∃ gone later, Shows (keyField :: fields) gone skipped ∧
      Shows (keyField :: fields) later rest ∧ whole = gone ++ later := by
    have htake := List.forall₂_take_append whole skipped rest hwhole
    have hdrop := List.forall₂_drop_append whole skipped rest hwhole
    exact ⟨_, _, htake, hdrop, (List.take_append_drop _ _).symm⟩
  split_ifs with hskipped
  · have hlength : done.length = shown.length := hshown.length_eq.symm
    have hcount : skipped.length = gone.length := hgone.length_eq.symm
    refine ⟨?_, shown, kept, hshown, hkept, ?_⟩
    · rw [hwork, List.take_left, ← List.append_assoc, ← List.length_append, List.drop_left]
    · rw [applyOps_append, hops, Option.bind_some, applyOps_single, applyOp,
        Nat.add_sub_cancel_left, hlength, hcount, if_pos (by simp), List.take_left,
        ← List.append_assoc, ← List.length_append, List.drop_left]
  · have hnil : skipped = [] := List.length_eq_zero_iff.mp (by omega)
    subst hnil
    rw [List.forall₂_nil_right_iff.mp hgone] at hops
    exact ⟨hwork, shown, kept, hshown, hkept, hops⟩

theorem InStep.change {held row : Row} {later : List Row}
    (h : InStep keyField fields base done script (held :: later))
    (hkey : held.read keyField = row.read keyField) :
    InStep keyField fields base (done ++ [row])
      ⟨script.work.set done.length row, script.ops ++
        ((differences fields (script.work[done.length]?.getD []) row).map
          (RowOp.set done.length)).toList⟩ later := by
  obtain ⟨hwork, shown, whole, hshown, hwhole, hops⟩ := h
  obtain ⟨first, kept, hfirst, hkept, rfl⟩ := List.forall₂_cons_right_iff.mp hwhole
  have hlength : done.length = shown.length := hshown.length_eq.symm
  have hheld : script.work[done.length]?.getD [] = held := by simp [hwork]
  have hwork' : script.work.set done.length row = done ++ [row] ++ later := by simp [hwork]
  have hcollected := differences_collected fields held row
  refine ⟨hwork', ?_⟩
  rw [hheld]
  have hagrees : AgreesOn (keyField :: fields)
      (Dict.merge first ((differences fields held row).getD [])) row := fun field hfield =>
    hcollected.read_merge (hfirst field hfield) ((List.mem_cons.mp hfield).elim
      (fun heq => Or.inr (heq ▸ hkey)) Or.inl)
  refine ⟨shown ++ [Dict.merge first ((differences fields held row).getD [])], kept,
    List.rel_append hshown (List.forall₂_cons.mpr ⟨hagrees, List.Forall₂.nil⟩), hkept, ?_⟩
  cases hchanges : differences fields held row with
  | none => simpa [Dict.merge] using hops
  | some changes =>
      rw [Option.map_some, Option.toList_some, applyOps_append, hops, Option.bind_some,
        applyOps_single, applyOp, hlength]
      simp

theorem InStep.place {rest : List Row} (h : InStep keyField fields base done script rest)
    (row : Row) :
    ∃ rest', InStep keyField fields base (done ++ [row])
      (placeRow keyField fields script done.length row) rest' := by
  unfold placeRow
  cases hindex : indexFrom keyField script.work done.length row with
  | none => exact ⟨rest, h.insert row⟩
  | some at' =>
      rw [h.1] at hindex
      obtain ⟨skipped, held, later, rfl, rfl, hkey⟩ := indexFrom_some hindex
      exact ⟨later, h.skip.change hkey⟩

theorem InStep.loop {rest : List Row} (h : InStep keyField fields base done script rest)
    (next : List Row) :
    ∃ rest', InStep keyField fields base (done ++ next)
      ((next.zipIdx done.length).foldl
        (fun script item => placeRow keyField fields script item.2 item.1) script) rest' := by
  induction next generalizing done script rest with
  | nil => exact ⟨rest, by simpa using h⟩
  | cons row next ih =>
      obtain ⟨rest', hplaced⟩ := h.place row
      obtain ⟨rest'', hdone⟩ := ih hplaced
      rw [List.length_append, List.length_singleton, List.append_assoc] at hdone
      exact ⟨rest'', hdone⟩

end

/-- On any list that shows the compared one the operations stay within bounds
and lead to a list that shows the wanted one. -/
theorem shows_after_ops {keyField : Text} {fields : List Text} {base current : List Row}
    (hbase : Shows (keyField :: fields) base current) (next : List Row) :
    ∃ shown, applyOps base (keyedRowOps keyField fields current next) = some shown ∧
      Shows (keyField :: fields) shown next := by
  have hstart : InStep keyField fields base [] ⟨current, []⟩ current :=
    ⟨rfl, [], base, List.Forall₂.nil, hbase, rfl⟩
  obtain ⟨rest, hwork, shown, kept, hshown, hkept, hops⟩ := hstart.loop next
  rw [List.nil_append] at hwork hshown
  rw [List.length_nil] at hwork hops
  have hcount : rest.length = kept.length := hkept.length_eq.symm
  refine ⟨shown, ?_, hshown⟩
  simp only [keyedRowOps]
  rw [hwork]
  split_ifs with hlonger
  · have hlength : next.length = shown.length := hshown.length_eq.symm
    rw [applyOps_append, hops, Option.bind_some, applyOps_single, applyOp,
      List.length_append, Nat.add_sub_cancel_left, hlength, hcount, if_pos (by simp),
      List.take_left, ← List.length_append, List.drop_length, List.append_nil]
  · have hnil : kept = [] := List.length_eq_zero_iff.mp (by
      rw [List.length_append] at hlonger
      omega)
    rw [hops, hnil, List.append_nil]

theorem Shows.refl (fields : List Text) (rows : List Row) : Shows fields rows rows :=
  List.forall₂_same.mpr fun _ _ _ _ => rfl

/-- In order and within bounds, the operations turn the current rows into rows
that show the next ones. -/
theorem applyOps_keyedRowOps (keyField : Text) (fields : List Text) (current next : List Row) :
    ∃ shown, applyOps current (keyedRowOps keyField fields current next) = some shown ∧
      Shows (keyField :: fields) shown next :=
  shows_after_ops (Shows.refl _ _) next

/-! ### The conversation page -/

def LONG_MESSAGE_CHARS : Nat := 1200

def LONG_MESSAGE_LINES : Nat := 12

def exceedsLineCount (text : Text) (maxLines : Nat) : Bool :=
  let newlines := text.count 10
  0 < newlines && maxLines ≤ newlines

def isLongMessage : Option JsValue → Bool
  | some (.str text) =>
      LONG_MESSAGE_CHARS < text.length || exceedsLineCount text LONG_MESSAGE_LINES
  | _ => false

def HISTORY_ROW_FIELDS : List Text :=
  ["speakerRole", "body", "streaming", "timestamp", "longMessage", "continuation"].map ascii

section

variable (string : JsValue → Text)

/-- One row, from the message, its place and the role before it. -/
def historyRow (message : JsValue) (i : Nat) (previousRole : Option Text) : Row :=
  let role := stringOr (property message (ascii "role")) []
  let text := property message (ascii "text")
  let stamp := property message (ascii "updatedAt")
  let stamp := if isNullish stamp then property message (ascii "createdAt") else stamp
  [(ascii "messageId", .str (stringOr (property message (ascii "id")) (35 :: digitsOf i))),
    (ascii "speakerRole", .str role),
    (ascii "body", .str (if isNullish text then [] else (text.map string).getD [])),
    (ascii "streaming", .bool (isTrue (property message (ascii "streaming")))),
    (ascii "timestamp", .str (stringOr stamp [])),
    (ascii "longMessage", .bool (isLongMessage text)),
    (ascii "continuation", .bool (previousRole == some role))]

def historyRowsFrom (i : Nat) (previousRole : Option Text) : List JsValue → List Row
  | [] => []
  | message :: items =>
      historyRow string message i previousRole ::
        historyRowsFrom (i + 1) (some (stringOr (property message (ascii "role")) [])) items

def historyRows (items : List JsValue) : List Row := historyRowsFrom string 0 none items

/-- The page's rows and the list model the cards are drawn from. -/
structure HistoryPage where
  historyRows : List Row
  historyModel : List Row

/-- `historyRowOps` and its operations on the model; `none` where one is out
of bounds. -/
def syncHistory (page : HistoryPage) (items : List JsValue) : Option HistoryPage :=
  let rows := historyRows string items
  (applyOps page.historyModel
      (keyedRowOps (ascii "messageId") HISTORY_ROW_FIELDS page.historyRows rows)).map
    fun model => ⟨rows, model⟩

/-- Every card shows its row. -/
def HistoryPage.InLine (page : HistoryPage) : Prop :=
  Shows (ascii "messageId" :: HISTORY_ROW_FIELDS) page.historyModel page.historyRows

theorem syncHistory_inLine {page : HistoryPage} (h : page.InLine) (items : List JsValue) :
    ∃ after, syncHistory string page items = some after ∧ after.InLine ∧
      after.historyRows = historyRows string items := by
  obtain ⟨shown, hops, hshown⟩ := shows_after_ops h (historyRows string items)
  exact ⟨⟨historyRows string items, shown⟩, by rw [syncHistory, hops, Option.map_some],
    hshown, rfl⟩

/-- However the visible page of the history changes, every operation finds its
row and the cards show the rows of the last one. -/
theorem syncHistory_runs (history : List (List JsValue)) :
    ∃ page, history.foldlM (syncHistory string) ⟨[], []⟩ = some page ∧ page.InLine ∧
      page.historyRows = (history.getLast?.map (historyRows string)).getD [] := by
  have hrun : ∀ (history : List (List JsValue)) (page : HistoryPage), page.InLine →
      ∃ after, history.foldlM (syncHistory string) page = some after ∧ after.InLine ∧
        after.historyRows = (history.getLast?.map (historyRows string)).getD page.historyRows := by
    intro history
    induction history with
    | nil => exact fun page h => ⟨page, rfl, h, rfl⟩
    | cons items later ih =>
        intro page h
        obtain ⟨next, hnext, hline, hrows⟩ := syncHistory_inLine string h items
        obtain ⟨after, hafter, hlast, hshown⟩ := ih next hline
        refine ⟨after, ?_, hlast, ?_⟩
        · rw [List.foldlM_cons, hnext]
          exact hafter
        · rw [hshown, hrows]
          cases later with
          | nil => rfl
          | cons => rfl
  exact hrun history ⟨[], []⟩ List.Forall₂.nil

end

/-- A streamed token is one field of one row. -/
example : keyedRowOps (ascii "messageId") HISTORY_ROW_FIELDS
      [[(ascii "messageId", .str (ascii "m1")), (ascii "body", .str (ascii "a"))]]
      [[(ascii "messageId", .str (ascii "m1")), (ascii "body", .str (ascii "ab"))]] =
    [.set 0 [(ascii "body", .str (ascii "ab"))]] := by
  decide +kernel

end T3

end CybexOS
