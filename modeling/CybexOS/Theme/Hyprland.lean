/-
The compositor's colours: the table that `theme_hyprland.py` writes, and what
`looknfeel.lua` reads of it.
-/
import CybexOS.Dict
import CybexOS.LuaData
import CybexOS.Theme.Tokens
import CybexOS.Utf8
import Mathlib.Data.List.Sort

namespace CybexOS

namespace Theme

namespace Hyprland

open LuaData (Value)

def HEADER : Text :=
  ["-- Generated by CybexOS from the shell's appearance (theme-apply.py). Every\n",
    "-- theme change replaces this file; set colours of your own in\n",
    "-- ~/.config/cybexos/hypr/user.lua instead. Data only: looknfeel.lua loads it\n",
    "-- in an empty environment and uses nothing but the colours below.\n"].flatMap ascii

def rgb (value : Text) : Text := ascii "rgb(" ++ value.tail ++ ascii ")"

/-- `rgba(value, alpha)`, with the digits of the alpha channel. -/
def rgba (value alpha : Text) : Text := ascii "rgba(" ++ value.tail ++ alpha ++ ascii ")"

/-- The base itself on a dark desktop, the ink on a light one. -/
def shadow (tokens : Tokens) : Text :=
  match tokens.mode with
  | .dark => rgba (tokens.colors .background) (ascii "ee")
  | .light => rgba (tokens.colors .text) (ascii "30")

def config (tokens : Tokens) : Value :=
  let accent := Value.str (rgb (tokens.colors .accent))
  let stroke := Value.str (rgb (tokens.colors .stroke))
  let red := Value.str (rgb (tokens.colors .red))
  let borders := Value.table [(ascii "active_border", accent), (ascii "inactive_border", stroke)]
  let group := Value.table [(ascii "border_active", accent), (ascii "border_inactive", stroke),
    (ascii "border_locked_active", red), (ascii "border_locked_inactive", stroke)]
  let groupbarCol := Value.table [(ascii "active", accent), (ascii "inactive", stroke),
    (ascii "locked_active", red), (ascii "locked_inactive", stroke)]
  let text := Value.str (rgb (tokens.colors .text))
  let muted := Value.str (rgb (tokens.colors .textMuted))
  let groupbar := Value.table [(ascii "col", groupbarCol),
    (ascii "text_color", text), (ascii "text_color_inactive", muted),
    (ascii "text_color_locked_active", text), (ascii "text_color_locked_inactive", muted)]
  .table [(ascii "general", .table [(ascii "col", borders)]),
    (ascii "decoration", .table [(ascii "shadow", .table [(ascii "color", .str (shadow tokens))])]),
    (ascii "group", .table [(ascii "col", group), (ascii "groupbar", groupbar)])]

/-- The keys in the order of `sorted`. -/
def sortKeys (fields : List (Text × Value)) : List (Text × Value) :=
  fields.insertionSort fun first second => first.1 ≤ second.1

mutual

/-- The tables with sorted keys, as they are written. -/
def sorted : Value → Value
  | .str text => .str text
  | .table fields => .table (sortKeys (sortedFields fields))

def sortedFields : List (Text × Value) → List (Text × Value)
  | [] => []
  | (name, value) :: fields => (name, sorted value) :: sortedFields fields

end

/-- `lua_table` -/
def luaTable (value : Value) (indent : ℕ) : Text := LuaData.print indent (sorted value)

def render (tokens : Tokens) : Text :=
  HEADER ++ ascii "return " ++ luaTable (config tokens) 0 ++ [10]

/-! ### Reading -/

/-- `THEME_KEYS`, split at the dots. -/
def THEME_KEYS : List (List Text) :=
  [["general", "col", "active_border"], ["general", "col", "inactive_border"],
    ["decoration", "shadow", "color"],
    ["group", "col", "border_active"], ["group", "col", "border_inactive"],
    ["group", "col", "border_locked_active"], ["group", "col", "border_locked_inactive"],
    ["group", "groupbar", "col", "active"], ["group", "groupbar", "col", "inactive"],
    ["group", "groupbar", "col", "locked_active"], ["group", "groupbar", "col", "locked_inactive"],
    ["group", "groupbar", "text_color"], ["group", "groupbar", "text_color_inactive"],
    ["group", "groupbar", "text_color_locked_active"],
    ["group", "groupbar", "text_color_locked_inactive"]].map (·.map ascii)

def THEME_MAX_BYTES : ℕ := 65536

/-- `%x` -/
def isXDigit (c : ℕ) : Bool := isHexDigit c || (65 ≤ c && c ≤ 70)

/-- `^name%(%x…%)$`, with as many digits. -/
def isCall (name : String) (digits : ℕ) (text : Text) : Bool :=
  let inner := (text.drop (ascii name).length).drop 1
  text.take (ascii name).length == ascii name && (text.drop (ascii name).length).head? == some 40 &&
    inner.length == digits + 1 && (inner.take digits).all isXDigit && inner.getLast? == some 41

/-- The node at a path. -/
def nodeAt (data : Value) : List Text → Option Value
  | [] => some data
  | part :: path => (data.index part).bind fun node => nodeAt node path

/-- The value of a theme key, if the file has one; `none` is an error. -/
def readKey (data : Value) (key : List Text) : Option (List (List Text × Text)) :=
  match nodeAt data key with
  | none => some []
  | some (.str text) =>
      if isCall "rgb" 6 text ∨ isCall "rgba" 8 text then some [(key, text)] else none
  | some (.table _) => none

/-- The theme keys that a file of these bytes sets; `none` is an error. -/
def readSystemTheme (bytes : Text) : Option (List (List Text × Text)) := do
  let read := bytes.take (THEME_MAX_BYTES + 1)
  if read = [] ∨ THEME_MAX_BYTES < read.length then none
  else
    match LuaData.load read with
    | some (.table fields) => (THEME_KEYS.mapM (readKey (.table fields))).map List.flatten
    | _ => none

/-! ### Sorted tables -/

theorem sortedFields_eq (fields : List (Text × Value)) :
    sortedFields fields = fields.map fun field => (field.1, sorted field.2) := by
  induction fields with
  | nil => rfl
  | cons field fields ih => rw [sortedFields, ih, List.map_cons]

theorem sortKeys_perm (fields : List (Text × Value)) : (sortKeys fields).Perm fields :=
  List.perm_insertionSort _ fields

theorem isTame_sorted {value : Value} (h : LuaData.isTame value = true) :
    LuaData.isTame (sorted value) = true := by
  induction value with
  | str text => exact h
  | table fields ih =>
      rw [LuaData.isTame, LuaData.areTame_iff] at h
      rw [sorted, LuaData.isTame, LuaData.areTame_iff, sortedFields_eq]
      intro field hfield
      obtain ⟨held, hheld, rfl⟩ := List.mem_map.mp ((sortKeys_perm _).mem_iff.mp hfield)
      exact ⟨(h held hheld).1, ih held hheld (h held hheld).2⟩

theorem fieldsLength_sorted {indent : ℕ} {fields : List (Text × Value)}
    (h : ∀ field ∈ fields, LuaData.printedLength (indent + 1) (sorted field.2) =
      LuaData.printedLength (indent + 1) field.2) :
    LuaData.fieldsLength indent (sortedFields fields) = LuaData.fieldsLength indent fields := by
  induction fields with
  | nil => rfl
  | cons field fields ih =>
      rw [sortedFields, LuaData.fieldsLength, LuaData.fieldsLength, h field List.mem_cons_self,
        ih fun other hother => h other (List.mem_cons_of_mem _ hother)]

theorem printedLength_sorted (value : Value) (indent : ℕ) :
    LuaData.printedLength indent (sorted value) = LuaData.printedLength indent value := by
  induction value generalizing indent with
  | str text => rfl
  | table fields ih =>
      have hfields := LuaData.fieldsLength_perm indent (sortKeys_perm (sortedFields fields))
      rw [sorted, LuaData.printedLength, LuaData.printedLength, hfields]
      rw [fieldsLength_sorted fun field hfield => ih field hfield (indent + 1)]

theorem index_sorted {fields : List (Text × Value)} (h : (Dict.keys fields).Nodup) (name : Text) :
    (sorted (.table fields)).index name = (Value.index name (.table fields)).map sorted := by
  have hperm := (List.reverse_perm _).trans (sortKeys_perm (sortedFields fields))
  have hkeys : Dict.keys (sortedFields fields) = Dict.keys fields := by
    rw [sortedFields_eq, Dict.keys, List.map_map]
    rfl
  have hnodup : (Dict.keys (sortedFields fields)).Nodup := by rwa [hkeys]
  have hmap : (fields.map fun field => (field.1, sorted field.2)).lookup name =
      (fields.lookup name).map sorted := Dict.lookup_map_item fun _ => rfl
  rw [sorted, Value.index, Value.index, Dict.lookup_perm hnodup hperm.symm, sortedFields_eq,
    hmap, Dict.lookup_perm h (List.reverse_perm fields).symm]

/-- Sorting changes nothing of what is read. -/
theorem nodeAt_sorted {value : Value} (h : LuaData.isDistinct value = true) (path : List Text) :
    nodeAt (sorted value) path = (nodeAt value path).map sorted := by
  induction path generalizing value with
  | nil => rfl
  | cons part path ih =>
      rw [nodeAt, nodeAt]
      cases value with
      | str text => rfl
      | table fields =>
          rw [LuaData.isDistinct, Bool.and_eq_true, decide_eq_true_eq] at h
          rw [index_sorted h.1]
          cases hnode : Value.index part (.table fields) with
          | none => rfl
          | some node =>
              have hmem := Dict.mem_of_lookup hnode
              have hnode' := LuaData.areDistinct_iff.mp h.2 _ (List.mem_reverse.mp hmem)
              exact ih hnode'

end Hyprland

end Theme

end CybexOS
