/-
Lua chunks that only return data: comments, and tables of strings under names.
Reading one, and what is read of a printed table.
-/
import CybexOS.Text

namespace CybexOS

namespace LuaData

inductive Value where
  | str (text : Text)
  | table (fields : List (Text × Value))

/-- Induction with the hypothesis for every field. -/
@[induction_eliminator]
theorem Value.induct {motive : Value → Prop} (str : ∀ text, motive (.str text))
    (table : ∀ fields, (∀ field ∈ fields, motive field.2) → motive (.table fields))
    (value : Value) : motive value :=
  @Value.rec motive (fun fields => ∀ field ∈ fields, motive field.2) (fun field => motive field.2)
    str table (by simp) (fun _ _ hhead htail => List.forall_mem_cons.mpr ⟨hhead, htail⟩)
    (fun _ _ hvalue => hvalue) value

/-- The value under a name; the last one that the table was given. -/
def Value.index (name : Text) : Value → Option Value
  | .str _ => none
  | .table fields => fields.reverse.lookup name

/-! ### Tokens -/

inductive Token where
  | name (text : Text)
  | str (text : Text)
  | opens
  | closes
  | equals
  | separator
deriving DecidableEq

def isSpace (c : ℕ) : Bool := c == 32 || (9 ≤ c && c ≤ 13)

def isNameStart (c : ℕ) : Bool := isUpper c || isLower c || c == 95

def isNameUnit (c : ℕ) : Bool := isNameStart c || isDigit c

/-- What the reader is in: between tokens, after a dash, at the start of a comment
or in one, in a name, or in a string. -/
inductive Mode where
  | between
  | dash
  | commentStart
  | comment
  | name (text : Text)
  | str (text : Text)
deriving DecidableEq

/-- A unit between tokens; other tokens of Lua are not those of data. -/
def start (c : ℕ) : Option (Mode × List Token) :=
  if isSpace c then some (.between, [])
  else if isNameStart c then some (.name [c], [])
  else if c = 34 then some (.str [], [])
  else if c = 45 then some (.dash, [])
  else if c = 123 then some (.between, [.opens])
  else if c = 125 then some (.between, [.closes])
  else if c = 61 then some (.between, [.equals])
  else if c = 44 ∨ c = 59 then some (.between, [.separator])
  else none

/-- A string ends before its line does; long comments and escapes are not read. -/
def advance (mode : Mode) (c : ℕ) : Option (Mode × List Token) :=
  match mode with
  | .between => start c
  | .dash => if c = 45 then some (.commentStart, []) else none
  | .commentStart =>
      if c = 91 then none else some (if c = 10 then .between else .comment, [])
  | .comment => some (if c = 10 then .between else .comment, [])
  | .name text =>
      if isNameUnit c then some (.name (text ++ [c]), [])
      else (start c).map fun next => (next.1, .name text :: next.2)
  | .str text =>
      if c = 34 then some (.between, [.str text])
      else if c = 92 ∨ c = 10 ∨ c = 13 then none
      else some (.str (text ++ [c]), [])

/-- The mode after a text, and the tokens that it has ended. -/
def scan (mode : Mode) : Text → Option (Mode × List Token)
  | [] => some (mode, [])
  | c :: rest => do
      let (next, tokens) ← advance mode c
      let (last, more) ← scan next rest
      pure (last, tokens ++ more)

def lex (text : Text) : Option (List Token) := do
  let (mode, tokens) ← scan .between text
  match mode with
  | .name name => some (tokens ++ [.name name])
  | .between | .commentStart | .comment => some tokens
  | .dash | .str _ => none

/-! ### Tables -/

def RESERVED : List Text :=
  ["and", "break", "do", "else", "elseif", "end", "false", "for", "function", "goto", "if", "in",
    "local", "nil", "not", "or", "repeat", "return", "then", "true", "until", "while"].map ascii

/-- The fields of a table that is being read, and the name of the next one. -/
abbrev Frame := List (Text × Value) × Text

/-- What comes next: `return`, a value, a field of a table, the sign after a
name, or what stands after a field; or the value is complete. -/
inductive Expected where
  | chunk
  | value (frames : List Frame)
  | field (fields : List (Text × Value)) (frames : List Frame)
  | equals (name : Text) (fields : List (Text × Value)) (frames : List Frame)
  | separator (fields : List (Text × Value)) (frames : List Frame)
  | nothing (value : Value)

/-- A value is complete. -/
def complete (value : Value) : List Frame → Expected
  | [] => .nothing value
  | (fields, name) :: frames => .separator (fields ++ [(name, value)]) frames

def accept : Expected → Token → Option Expected
  | .chunk, .name name => if name = ascii "return" then some (.value []) else none
  | .value frames, .str text => some (complete (.str text) frames)
  | .value frames, .opens => some (.field [] frames)
  | .field fields frames, .name name =>
      if name ∈ RESERVED then none else some (.equals name fields frames)
  | .field fields frames, .closes => some (complete (.table fields) frames)
  | .equals name fields frames, .equals => some (.value ((fields, name) :: frames))
  | .separator fields frames, .separator => some (.field fields frames)
  | .separator fields frames, .closes => some (complete (.table fields) frames)
  | _, _ => none

def acceptAll (expected : Expected) : List Token → Option Expected
  | [] => some expected
  | token :: tokens => (accept expected token).bind fun next => acceptAll next tokens

/-- The value that a chunk of data returns. -/
def load (text : Text) : Option Value := do
  let tokens ← lex text
  match ← acceptAll .chunk tokens with
  | .nothing value => some value
  | _ => none

/-! ### Printed tables -/

/-- The indentation of a level. -/
def pad (level : ℕ) : Text := List.replicate (2 * level) 32

mutual

/-- One field on a line, each followed by a comma. -/
def print (indent : ℕ) : Value → Text
  | .str text => 34 :: text ++ [34]
  | .table fields => 123 :: printFields indent fields ++ 10 :: pad indent ++ [125]

def printFields (indent : ℕ) : List (Text × Value) → Text
  | [] => []
  | (name, value) :: fields =>
      10 :: pad (indent + 1) ++ name ++ ascii " = " ++ print (indent + 1) value ++ [44] ++
        printFields indent fields

end

mutual

def tokensOf : Value → List Token
  | .str text => [.str text]
  | .table fields => .opens :: fieldTokens fields ++ [.closes]

def fieldTokens : List (Text × Value) → List Token
  | [] => []
  | (name, value) :: fields =>
      .name name :: .equals :: tokensOf value ++ .separator :: fieldTokens fields

end

/-- A name that a field can have. -/
def isName : Text → Bool
  | [] => false
  | c :: rest => isNameStart c && rest.all isNameUnit && (c :: rest) ∉ RESERVED

/-- An ASCII unit that stands for itself in a string. -/
def isPlain (c : ℕ) : Bool := c < 128 && c ≠ 34 && c ≠ 92 && c ≠ 10 && c ≠ 13

mutual

/-- Names are names, and strings need no escapes. -/
def isTame : Value → Bool
  | .str text => text.all isPlain
  | .table fields => areTame fields

def areTame : List (Text × Value) → Bool
  | [] => true
  | (name, value) :: fields => isName name && isTame value && areTame fields

end

theorem areTame_iff {fields : List (Text × Value)} : areTame fields = true ↔
    ∀ field ∈ fields, isName field.1 = true ∧ isTame field.2 = true := by
  induction fields with
  | nil => simp [areTame]
  | cons field fields ih =>
      rw [areTame, Bool.and_eq_true, Bool.and_eq_true, ih, List.forall_mem_cons]

mutual

/-- No table has two fields of a name. -/
def isDistinct : Value → Bool
  | .str _ => true
  | .table fields => decide (fields.map Prod.fst).Nodup && areDistinct fields

def areDistinct : List (Text × Value) → Bool
  | [] => true
  | (_, value) :: fields => isDistinct value && areDistinct fields

end

theorem areDistinct_iff {fields : List (Text × Value)} : areDistinct fields = true ↔
    ∀ field ∈ fields, isDistinct field.2 = true := by
  induction fields with
  | nil => simp [areDistinct]
  | cons field fields ih => rw [areDistinct, Bool.and_eq_true, ih, List.forall_mem_cons]

mutual

def printedLength (indent : ℕ) : Value → ℕ
  | .str text => text.length + 2
  | .table fields => fieldsLength indent fields + 2 * indent + 3

def fieldsLength (indent : ℕ) : List (Text × Value) → ℕ
  | [] => 0
  | (name, value) :: fields =>
      2 * (indent + 1) + name.length + printedLength (indent + 1) value + 5 +
        fieldsLength indent fields

end

theorem fieldsLength_perm (indent : ℕ) {fields others : List (Text × Value)}
    (h : fields.Perm others) : fieldsLength indent fields = fieldsLength indent others := by
  induction h with
  | nil => rfl
  | cons field h ih => rw [fieldsLength, fieldsLength, ih]
  | swap first second fields =>
      simp only [fieldsLength]
      omega
  | trans hfirst hsecond ihfirst ihsecond => exact ihfirst.trans ihsecond

theorem length_printFields {indent : ℕ} {fields : List (Text × Value)}
    (h : ∀ field ∈ fields, (print (indent + 1) field.2).length =
      printedLength (indent + 1) field.2) :
    (printFields indent fields).length = fieldsLength indent fields := by
  induction fields with
  | nil => simp [printFields, fieldsLength]
  | cons field fields ih =>
      obtain ⟨name, value⟩ := field
      have hvalue := h _ List.mem_cons_self
      have hfields := ih fun field hfield => h field (List.mem_cons_of_mem _ hfield)
      have hequals : (ascii " = ").length = 3 := rfl
      rw [printFields, fieldsLength]
      simp only [List.length_append, List.length_cons, List.length_nil, pad, List.length_replicate,
        hvalue, hfields, hequals]
      omega

theorem length_print (value : Value) (indent : ℕ) :
    (print indent value).length = printedLength indent value := by
  induction value generalizing indent with
  | str text =>
      rw [print, printedLength]
      simp
  | table fields ih =>
      have hfields := @length_printFields indent fields fun field hfield =>
        ih field hfield (indent + 1)
      rw [print, printedLength]
      simp only [List.length_append, List.length_cons, List.length_nil, pad, List.length_replicate,
        hfields]
      omega

theorem isName_ascii {name : Text} (h : isName name = true) : ∀ c ∈ name, c < 128 := by
  cases name with
  | nil => cases h
  | cons first rest =>
      simp only [isName, Bool.and_eq_true, List.all_eq_true] at h
      intro c hc
      have hunit : isNameUnit c = true := by
        rcases List.mem_cons.mp hc with rfl | hrest
        · simp [isNameUnit, h.1.1]
        · exact h.1.2 c hrest
      simp only [isNameUnit, isNameStart, isUpper, isLower, isDigit, Bool.or_eq_true,
        Bool.and_eq_true, decide_eq_true_eq, beq_iff_eq] at hunit
      omega

theorem printFields_ascii {indent : ℕ} {fields : List (Text × Value)}
    (h : ∀ field ∈ fields, isTame field.2 = true → ∀ c ∈ print (indent + 1) field.2, c < 128)
    (htame : areTame fields = true) : ∀ c ∈ printFields indent fields, c < 128 := by
  induction fields with
  | nil => simp [printFields]
  | cons field fields ih =>
      obtain ⟨name, value⟩ := field
      rw [areTame, Bool.and_eq_true, Bool.and_eq_true] at htame
      have hname := isName_ascii htame.1.1
      have hvalue := h _ List.mem_cons_self htame.1.2
      have hfields := ih (fun field hfield => h field (List.mem_cons_of_mem _ hfield)) htame.2
      have hequals : ∀ c ∈ ascii " = ", c < 128 := by decide
      intro c hc
      rw [printFields] at hc
      simp only [List.mem_append, List.mem_cons, pad, List.mem_replicate, List.not_mem_nil,
        or_false] at hc
      rcases hc with (((((rfl | ⟨-, rfl⟩) | hc) | hc) | hc) | rfl) | hc
      · decide
      · decide
      · exact hname c hc
      · exact hequals c hc
      · exact hvalue c hc
      · decide
      · exact hfields c hc

theorem print_ascii {value : Value} (h : isTame value = true) (indent : ℕ) :
    ∀ c ∈ print indent value, c < 128 := by
  induction value generalizing indent with
  | str text =>
      rw [isTame, List.all_eq_true] at h
      intro c hc
      rw [print] at hc
      simp only [List.mem_append, List.mem_cons, List.not_mem_nil, or_false] at hc
      rcases hc with (rfl | hc) | rfl
      · decide
      · have hplain := h c hc
        simp only [isPlain, Bool.and_eq_true, decide_eq_true_eq] at hplain
        exact hplain.1.1.1.1
      · decide
  | table fields ih =>
      rw [isTame] at h
      have hfields := @printFields_ascii indent fields
        (fun field hfield htame => ih field hfield htame (indent + 1)) h
      intro c hc
      rw [print] at hc
      simp only [List.mem_append, List.mem_cons, pad, List.mem_replicate, List.not_mem_nil,
        or_false] at hc
      rcases hc with ((rfl | hc) | rfl | ⟨-, rfl⟩) | rfl
      · decide
      · exact hfields c hc
      · decide
      · decide
      · decide

/-! ### Scanning -/

theorem scan_append {mode next : Mode} {text : Text} {tokens : List Token}
    (h : scan mode text = some (next, tokens)) (rest : Text) :
    scan mode (text ++ rest) = (scan next rest).map fun last => (last.1, tokens ++ last.2) := by
  induction text generalizing mode tokens with
  | nil =>
      cases h
      simp
  | cons c text ih =>
      rw [List.cons_append, scan]
      rw [scan] at h
      cases hadvance : advance mode c with
      | none => simp [hadvance] at h
      | some first =>
          cases hscan : scan first.1 text with
          | none => simp [hadvance, hscan] at h
          | some last =>
              simp only [hadvance, hscan, Option.bind_eq_bind, Option.bind_some, pure,
                Option.some.injEq, Prod.mk.injEq] at h
              obtain ⟨rfl, rfl⟩ := h
              simp only [Option.bind_eq_bind, Option.bind_some, ih hscan, pure]
              cases scan last.1 rest with
              | none => rfl
              | some more => simp

/-- One text after another, each scanned. -/
theorem scan_trans {mode next last : Mode} {text rest : Text} {tokens more : List Token}
    (h : scan mode text = some (next, tokens)) (hrest : scan next rest = some (last, more)) :
    scan mode (text ++ rest) = some (last, tokens ++ more) := by
  rw [scan_append h, hrest]
  rfl

theorem scan_pad (level : ℕ) : scan .between (pad level) = some (.between, []) := by
  unfold pad
  generalize 2 * level = count
  induction count with
  | zero => rfl
  | succ count ih =>
      have hspace : scan .between [32] = some (.between, []) := rfl
      exact scan_trans hspace ih

theorem scan_nameUnits {text rest : Text} (h : rest.all isNameUnit = true) :
    scan (.name text) rest = some (.name (text ++ rest), []) := by
  induction rest generalizing text with
  | nil => simp [scan]
  | cons c rest ih =>
      rw [List.all_cons, Bool.and_eq_true] at h
      rw [scan]
      simp [advance, h.1, ih h.2]

theorem isName_notMem {name : Text} (h : isName name = true) : name ∉ RESERVED := by
  cases name with
  | nil => cases h
  | cons c rest =>
      simp only [isName, Bool.and_eq_true, decide_eq_true_eq] at h
      exact h.2

/-- A name, as far as the next unit tells that it has ended. -/
theorem scan_name {name : Text} (h : isName name = true) :
    scan .between (name ++ ascii " = ") = some (.between, [.name name, .equals]) := by
  cases name with
  | nil => cases h
  | cons c rest =>
      simp only [isName, Bool.and_eq_true] at h
      obtain ⟨⟨hstart, hunits⟩, -⟩ := h
      have hspace : isSpace c = false := by
        unfold isSpace
        simp only [isNameStart, isUpper, isLower, Bool.or_eq_true, Bool.and_eq_true,
          decide_eq_true_eq, beq_iff_eq] at hstart
        simp only [Bool.or_eq_false_iff, Bool.and_eq_false_iff, decide_eq_false_iff_not,
          beq_eq_false_iff_ne]
        omega
      have hfirst : scan .between [c] = some (.name [c], []) := by
        simp [scan, advance, start, hspace, hstart]
      have hrest := scan_trans hfirst (scan_nameUnits hunits)
      have hend : scan (.name (c :: rest)) (ascii " = ") =
          some (.between, [.name (c :: rest), .equals]) := rfl
      exact scan_trans hrest hend

theorem scan_plain {text rest : Text} (h : rest.all isPlain = true) :
    scan (.str text) rest = some (.str (text ++ rest), []) := by
  induction rest generalizing text with
  | nil => simp [scan]
  | cons c rest ih =>
      rw [List.all_cons, Bool.and_eq_true] at h
      simp only [isPlain, Bool.and_eq_true, decide_eq_true_eq] at h
      obtain ⟨⟨⟨⟨⟨-, hquote⟩, hslash⟩, hline⟩, hreturn⟩, hrest⟩ := h
      rw [scan]
      simp [advance, hquote, hslash, hline, hreturn, ih hrest]

theorem scan_str {text : Text} (h : text.all isPlain = true) :
    scan .between (34 :: text ++ [34]) = some (.between, [.str text]) := by
  have hquote : scan .between [34] = some (.str [], []) := rfl
  have hclose : scan (.str text) [34] = some (.between, [.str text]) := rfl
  exact scan_trans (scan_trans hquote (scan_plain h)) hclose

theorem scan_printFields {indent : ℕ} {fields : List (Text × Value)}
    (h : ∀ field ∈ fields, isTame field.2 = true → scan .between (print (indent + 1) field.2) =
      some (.between, tokensOf field.2)) (htame : areTame fields = true) :
    scan .between (printFields indent fields) = some (.between, fieldTokens fields) := by
  induction fields with
  | nil =>
      simp [printFields, fieldTokens, scan]
  | cons field fields ih =>
      obtain ⟨name, value⟩ := field
      rw [areTame, Bool.and_eq_true, Bool.and_eq_true] at htame
      obtain ⟨⟨hname, hvalue⟩, hfields⟩ := htame
      have hline : scan .between [10] = some (.between, []) := rfl
      have hcomma : scan .between [44] = some (.between, [.separator]) := rfl
      have hpad := scan_trans hline (scan_pad (indent + 1))
      have hkey := scan_trans hpad (scan_name hname)
      have hitem := scan_trans hkey (h _ List.mem_cons_self hvalue)
      have hone := scan_trans hitem hcomma
      have hall := scan_trans hone (ih (fun field hfield => h field (List.mem_cons_of_mem _ hfield))
        hfields)
      rw [printFields, fieldTokens]
      simpa [List.append_assoc] using hall

theorem scan_print {value : Value} (h : isTame value = true) (indent : ℕ) :
    scan .between (print indent value) = some (.between, tokensOf value) := by
  induction value generalizing indent with
  | str text =>
      rw [isTame] at h
      rw [print, tokensOf]
      exact scan_str h
  | table fields ih =>
      rw [isTame] at h
      have hopen : scan .between [123] = some (.between, [.opens]) := rfl
      have hline : scan .between [10] = some (.between, []) := rfl
      have hclose : scan .between [125] = some (.between, [.closes]) := rfl
      have hfields := @scan_printFields indent fields
        (fun field hfield htame => ih field hfield htame (indent + 1)) h
      have hall := scan_trans (scan_trans (scan_trans (scan_trans hopen hfields) hline)
        (scan_pad indent)) hclose
      rw [print, tokensOf]
      simpa [List.append_assoc] using hall

/-! ### Accepting -/

theorem acceptAll_append (expected : Expected) (tokens more : List Token) :
    acceptAll expected (tokens ++ more) =
      (acceptAll expected tokens).bind fun next => acceptAll next more := by
  induction tokens generalizing expected with
  | nil => rfl
  | cons token tokens ih =>
      rw [List.cons_append, acceptAll, acceptAll, Option.bind_assoc]
      exact congrArg _ (funext fun next => ih next)

theorem acceptAll_fieldTokens {fields before : List (Text × Value)} {frames : List Frame}
    (h : ∀ field ∈ fields, isTame field.2 = true → ∀ frames, acceptAll (.value frames)
      (tokensOf field.2) = some (complete field.2 frames)) (htame : areTame fields = true) :
    acceptAll (.field before frames) (fieldTokens fields) =
      some (.field (before ++ fields) frames) := by
  induction fields generalizing before with
  | nil => simp [fieldTokens, acceptAll]
  | cons field fields ih =>
      obtain ⟨name, value⟩ := field
      rw [areTame, Bool.and_eq_true, Bool.and_eq_true] at htame
      obtain ⟨⟨hname, hvalue⟩, hfields⟩ := htame
      rw [fieldTokens, List.cons_append, List.cons_append, acceptAll]
      simp only [accept, if_neg (isName_notMem hname), Option.bind_some, acceptAll]
      rw [acceptAll_append, h _ List.mem_cons_self hvalue, Option.bind_some]
      simp only [complete, acceptAll, accept, Option.bind_some]
      rw [ih (fun field hfield => h field (List.mem_cons_of_mem _ hfield)) hfields]
      simp

theorem acceptAll_tokensOf {value : Value} (h : isTame value = true) (frames : List Frame) :
    acceptAll (.value frames) (tokensOf value) = some (complete value frames) := by
  induction value generalizing frames with
  | str text => simp [tokensOf, acceptAll, accept]
  | table fields ih =>
      rw [isTame] at h
      rw [tokensOf, List.cons_append, acceptAll]
      simp only [accept, Option.bind_some]
      rw [acceptAll_append, acceptAll_fieldTokens ih h]
      simp [acceptAll, accept]

/-- What a chunk returns that has a scanned header and returns a printed value. -/
theorem load_print {header : Text} {value : Value}
    (hheader : scan .between header = some (.between, [])) (h : isTame value = true)
    (indent : ℕ) :
    load (header ++ ascii "return " ++ print indent value ++ [10]) = some value := by
  have hreturn : scan .between (ascii "return ") = some (.between, [.name (ascii "return")]) := rfl
  have hline : scan .between [10] = some (.between, []) := rfl
  have hall := scan_trans (scan_trans (scan_trans hheader hreturn) (scan_print h indent)) hline
  unfold load lex
  rw [hall]
  simp only [Option.bind_eq_bind, Option.bind_some, List.nil_append, List.append_nil]
  rw [acceptAll_append]
  simp [acceptAll, accept, acceptAll_tokensOf h, complete]

end LuaData

end CybexOS
