/-
What the validator lets through to the files of the terminal and of the
compositor, and which of it they hold as it is.
-/
import CybexOS.Excepts
import CybexOS.Theme.Hyprland
import CybexOS.Theme.Kitty

namespace CybexOS

namespace Theme

open Json (PyValue)

/-! ### Validated colours -/

def memberOf (value : Option PyValue) (key : Text) : Option PyValue :=
  match value with
  | some (.obj fields) => fields.lookup key
  | _ => none

/-- A colour of an export, in lower case. -/
def exported (lower : Text → Text) (raw : PyValue) (color : Color) : Text :=
  match memberOf (memberOf (some raw) (ascii "colors")) color.key with
  | some (.str text) => lower text
  | _ => []

theorem membersOf_eq {value : Option PyValue} {error : TokenError}
    {fields : List (Text × PyValue)} (h : membersOf value error = .ok fields) :
    value = some (.obj fields) := by
  unfold membersOf at h
  split at h
  · cases h
    rfl
  · cases h

theorem colorOf_ok {lower : Text → Text} {value : Option PyValue} {color : Color} {text : Text}
    (h : colorOf lower value color = .ok text) :
    isHex text = true ∧ ∃ held, value = some (.str held) ∧ text = lower held := by
  unfold colorOf at h
  split at h
  · next held =>
      split at h
      · next hhex =>
          cases h
          exact ⟨hhex, held, rfl, rfl⟩
      · cases h
  · cases h

/-- The checked colours are those of the export. -/
theorem colorsOf_lookup {lower : Text → Text} {fields : List (Text × PyValue)}
    {colors : List Color} {checked : List (Color × Text)}
    (h : colorsOf lower fields colors = .ok checked) {color : Color} (hcolor : color ∈ colors) :
    ∃ held, fields.lookup color.key = some (.str held) ∧ isHex (lower held) = true ∧
      checked.lookup color = some (lower held) := by
  induction colors generalizing checked with
  | nil => cases hcolor
  | cons first rest ih =>
      unfold colorsOf at h
      cases hfirst : colorOf lower (fields.lookup first.key) first with
      | error error =>
          rw [hfirst] at h
          cases h
      | ok text =>
          cases hrest : colorsOf lower fields rest with
          | error error =>
              rw [hfirst, hrest] at h
              cases h
          | ok others =>
              rw [hfirst, hrest] at h
              cases h
              by_cases hsame : color = first
              · subst hsame
                obtain ⟨hhex, held, hheld, rfl⟩ := colorOf_ok hfirst
                exact ⟨held, hheld, hhex, by simp⟩
              · obtain ⟨held, hheld, hhex, hlookup⟩ :=
                  ih hrest ((List.mem_cons.mp hcolor).resolve_left hsame)
                refine ⟨held, hheld, hhex, ?_⟩
                rw [List.lookup_cons, beq_false_of_ne hsame]
                exact hlookup

/-- An export with every colour is checked to the end. -/
theorem colorsOf_all {lower : Text → Text} {fields : List (Text × PyValue)} {held : Color → Text}
    (hfields : ∀ color : Color, fields.lookup color.key = some (.str (held color)))
    (hhex : ∀ color, isHex (lower (held color)) = true) (colors : List Color) :
    colorsOf lower fields colors = .ok (colors.map fun color => (color, lower (held color))) := by
  induction colors with
  | nil => rfl
  | cons color colors ih =>
      rw [colorsOf, ih, hfields, colorOf, if_pos (hhex color)]
      rfl

theorem modeOf_light {value : Option PyValue} {mode : Mode} (h : modeOf value = .ok mode) :
    mode = .light ↔ isStr value "light" = true := by
  unfold modeOf at h
  split_ifs at h with hdark hlight
  · cases h
    simp only [reduceCtorEq, false_iff]
    unfold isStr at hdark ⊢
    split at hdark
    · next held =>
        rw [beq_iff_eq.mp hdark]
        decide
    · simp
  · cases h
    simp [hlight]

theorem validate_ok {lower : Text → Text} {raw : PyValue} {tokens : Tokens}
    (h : validate lower raw = .ok tokens) :
    tokens.colors = exported lower raw ∧ (∀ color, isHex (tokens.colors color) = true) ∧
      (tokens.mode = .light ↔ isStr (memberOf (some raw) (ascii "mode")) "light" = true) := by
  simp only [validate, bind_eq_ok, pure_eq_ok] at h
  obtain ⟨fields, hfields, -, -, mode, hmode, source, -, colors, hcolors, font, -, radius, -, glass,
    -, checked, hchecked, ui, -, mono, -, rfl⟩ := h
  obtain rfl := Option.some.inj (membersOf_eq hfields)
  have hlookup (color : Color) : ∃ held, colors.lookup color.key = some (.str held) ∧
      isHex (lower held) = true ∧ checked.lookup color = some (lower held) :=
    colorsOf_lookup hchecked (by cases color <;> decide)
  refine ⟨?_, ?_, modeOf_light hmode⟩
  · funext color
    obtain ⟨held, hheld, -, hlook⟩ := hlookup color
    simp only [exported, memberOf, membersOf_eq hcolors, hheld, hlook, Option.getD_some]
  · intro color
    obtain ⟨held, -, hhex, hlook⟩ := hlookup color
    simp only [hlook, Option.getD_some, hhex]

/-! ### Hexadecimal colours -/

theorem isHexUnit {digit : ℕ} (h : digit < 16) : isHexDigit (hexUnit digit) = true := by
  unfold isHexDigit isDigit hexUnit
  simp only [Bool.or_eq_true, Bool.and_eq_true, decide_eq_true_eq]
  split_ifs <;> omega

theorem isHexColor_hexColor (channels : ℕ × ℕ × ℕ) : isHexColor (hexColor channels) = true := by
  have hhigh (channel : ℕ) : isHexDigit (hexUnit (min channel 255 / 16)) = true :=
    isHexUnit (by omega)
  have hlow (channel : ℕ) : isHexDigit (hexUnit (min channel 255 % 16)) = true :=
    isHexUnit (Nat.mod_lt _ (by decide))
  simp [hexColor, isHexColor, hhigh, hlow]

theorem isHexColor_mix (arithmetic : Arithmetic) (start stop : Text) (amount : ℚ) :
    isHexColor (arithmetic.mix start stop amount) = true :=
  isHexColor_hexColor _

theorem isHexColor_foregroundFor (arithmetic : Arithmetic) (background : Text) :
    isHexColor (arithmetic.foregroundFor background) = true := by
  unfold Arithmetic.foregroundFor
  split_ifs <;> decide

theorem isHexColor_ensureContrast (arithmetic : Arithmetic) {value background : Text} {target : ℚ}
    (h : arithmetic.reads value background target = true → isHexColor value = true) :
    isHexColor (arithmetic.ensureContrast value background target) = true := by
  unfold Arithmetic.ensureContrast
  split_ifs with hreads
  · exact h hreads
  · exact isHexColor_mix _ _ _ _

theorem isHexColor_eq {text : Text} (h : isHexColor text = true) :
    ∃ digits, text = 35 :: digits ∧ digits.length = 6 ∧ digits.all isHexDigit = true := by
  cases text with
  | nil => cases h
  | cons c digits =>
      simp only [isHexColor, Bool.and_eq_true, beq_iff_eq] at h
      exact ⟨digits, by rw [h.1.1], h.1.2, h.2⟩

theorem isHexDigit_bounds {c : ℕ} (h : isHexDigit c = true) : 48 ≤ c ∧ c ≤ 102 ∧ c ≠ 92 := by
  simp only [isHexDigit, isDigit, Bool.or_eq_true, Bool.and_eq_true, decide_eq_true_eq] at h
  omega

theorem isHexColor_notMem {text : Text} (h : isHexColor text = true) : 10 ∉ text := by
  obtain ⟨digits, rfl, -, hdigits⟩ := isHexColor_eq h
  intro hmem
  rcases List.mem_cons.mp hmem with hline | hline
  · cases hline
  · have hbounds := isHexDigit_bounds (List.all_eq_true.mp hdigits 10 hline)
    omega

/-- The only other text that the expression matches has a line break at its end. -/
theorem isHexColor_of_isHex {text : Text} (h : isHex text = true)
    (hlast : text.getLast? ≠ some 10) : isHexColor text = true := by
  simp only [isHex, matchesLine, Bool.or_eq_true, Bool.and_eq_true, beq_iff_eq] at h
  exact h.resolve_right fun hline => hlast hline.1

/-! ### Colours that are written as they are -/

/-- In the terminal's file all of them are. -/
def embedded (arithmetic : Arithmetic) (colors : Color → Text) (light : Bool) : List Color :=
  [.text, .background, .accent, .accentContainer, .onAccent, .textMuted, .surface, .stroke,
    .amber, .red] ++
    (if arithmetic.reads (colors .accentText) (colors .background) (9 / 2) then [.accentText]
      else []) ++
    if light then [.textDim] else []

/-- No colour of the export that is written as it is ends with a line break. -/
def Clean (lower : Text → Text) (arithmetic : Arithmetic) (raw : PyValue) : Prop :=
  ∀ color ∈ embedded arithmetic (exported lower raw)
      (isStr (memberOf (some raw) (ascii "mode")) "light"),
    (exported lower raw color).getLast? ≠ some 10

instance (lower : Text → Text) (arithmetic : Arithmetic) (raw : PyValue) :
    Decidable (Clean lower arithmetic raw) :=
  inferInstanceAs (Decidable (∀ color ∈ _, _))

/-- The value of a key in the table of the compositor. -/
def configValue (tokens : Tokens) (key : List Text) : Option (List Text × Text) :=
  match Hyprland.nodeAt (Hyprland.config tokens) key with
  | some (.str text) => some (key, text)
  | _ => none

/-- The compositor reads every key with the value of the table, and the terminal's
file has the header and one line for each setting. -/
def Embeds (arithmetic : Arithmetic) (tokens : Tokens) : Prop :=
  (∃ values, Hyprland.THEME_KEYS.mapM (configValue tokens) = some values ∧
    (Utf8.encode (Hyprland.render tokens)).bind Hyprland.readSystemTheme = some values) ∧
  linesOf (Kitty.render arithmetic tokens) =
    linesOf Kitty.HEADER ++ (Kitty.settings arithmetic tokens).map Kitty.line

/-! ### The terminal's file -/

theorem linesOf_append {line : Text} (h : 10 ∉ line) (rest : Text) :
    linesOf (line ++ 10 :: rest) = line :: linesOf rest := by
  induction line with
  | nil => simp [linesOf]
  | cons c line ih =>
      rw [List.mem_cons, not_or] at h
      rw [List.cons_append, linesOf, if_neg (Ne.symm h.1), ih h.2]

/-- No line has a line break in it. -/
theorem linesOf_notMem {text line : Text} (h : line ∈ linesOf text) : 10 ∉ line := by
  induction text generalizing line with
  | nil => cases h
  | cons c rest ih =>
      unfold linesOf at h
      split_ifs at h with hline
      · rcases List.mem_cons.mp h with rfl | hrest
        · simp
        · exact ih hrest
      · split at h
        · rw [List.mem_singleton] at h
          subst h
          simpa using fun hc => hline hc.symm
        · next first lines hlines =>
            rw [hlines] at ih
            rcases List.mem_cons.mp h with rfl | hrest
            · intro hmem
              rcases List.mem_cons.mp hmem with hc | hmem
              · exact hline hc.symm
              · exact ih List.mem_cons_self hmem
            · exact ih (List.mem_cons_of_mem _ hrest)

theorem linesOf_flatMap {pairs : List (Text × Text)} (h : ∀ pair ∈ pairs, 10 ∉ Kitty.line pair) :
    linesOf (pairs.flatMap fun pair => Kitty.line pair ++ [10]) = pairs.map Kitty.line := by
  induction pairs with
  | nil => rfl
  | cons pair pairs ih =>
      rw [List.flatMap_cons, List.append_assoc, List.singleton_append,
        linesOf_append (h pair List.mem_cons_self),
        ih fun other hother => h other (List.mem_cons_of_mem _ hother), List.map_cons]

theorem linesOf_ne_nil (c : ℕ) (rest : Text) : linesOf (c :: rest) ≠ [] := by
  unfold linesOf
  split_ifs
  · simp
  · split <;> simp

/-- What stands before a line break and what follows it are read apart. -/
theorem linesOf_break (text rest : Text) :
    linesOf (text ++ 10 :: rest) = linesOf (text ++ [10]) ++ linesOf rest := by
  induction text with
  | nil => simp [linesOf]
  | cons c text ih =>
      rw [List.cons_append, List.cons_append, linesOf, linesOf, ih]
      split_ifs
      · rfl
      · cases hlines : linesOf (text ++ [10]) with
        | nil =>
            cases text with
            | nil => cases hlines
            | cons next text => exact absurd hlines (linesOf_ne_nil next _)
        | cons line lines => rfl

theorem linesOf_header (rest : Text) :
    linesOf (Kitty.HEADER ++ rest) = linesOf Kitty.HEADER ++ linesOf rest := by
  have hheader : Kitty.HEADER = Kitty.HEADER.dropLast ++ [10] := by decide +kernel
  rw [hheader, List.append_assoc, List.singleton_append, linesOf_break]

/-! ### The terminal's settings -/

theorem marks_hex (arithmetic : Arithmetic) {fills : List Text}
    (h : ∀ fill ∈ fills, isHexColor fill = true) :
    ∀ pair ∈ Kitty.marks arithmetic fills, isHexColor pair.2 = true := by
  intro pair hpair
  obtain ⟨fill, hfill, hpair⟩ := List.mem_flatMap.mp hpair
  have hmem : fill.1 ∈ fills := List.fst_mem_of_mem_zipIdx hfill
  rcases List.mem_cons.mp hpair with rfl | hpair
  · exact isHexColor_foregroundFor _ _
  · rw [List.mem_singleton.mp hpair]
    exact h fill.1 hmem

theorem hues_hex (mode : Mode) : (∀ hue ∈ (ANSI_HUES mode).1, isHexColor hue = true) ∧
    ∀ hue ∈ (ANSI_HUES mode).2, isHexColor hue = true := by
  cases mode <;> decide +kernel

section

variable {arithmetic : Arithmetic} {tokens : Tokens} {light : Bool}

theorem ansiPalette_hex (hmode : tokens.mode = .light ↔ light = true)
    (h : ∀ color ∈ embedded arithmetic tokens.colors light,
      isHexColor (tokens.colors color) = true) :
    ∀ color ∈ ansiPalette arithmetic tokens, isHexColor color = true := by
  have htext := h .text (by simp [embedded])
  have hmuted := h .textMuted (by simp [embedded])
  have hmix (start stop : Text) (amount : ℚ) := isHexColor_mix arithmetic start stop amount
  have hreadable {hues : List Text} (hhues : ∀ hue ∈ hues, isHexColor hue = true) :
      ∀ color ∈ hues.map (arithmetic.ensureContrast · (tokens.colors .background) (9 / 2)),
        isHexColor color = true := by
    intro color hcolor
    obtain ⟨hue, hhue, rfl⟩ := List.mem_map.mp hcolor
    exact isHexColor_ensureContrast arithmetic fun _ => hhues hue hhue
  have hnormal := hreadable (hues_hex tokens.mode).1
  have hbright := hreadable (hues_hex tokens.mode).2
  intro color hcolor
  unfold ansiPalette at hcolor
  dsimp only at hcolor
  split at hcolor
  · simp only [List.mem_append, List.mem_cons, List.not_mem_nil, or_false] at hcolor
    rcases hcolor with (((rfl | hcolor) | rfl | rfl) | hcolor) | rfl
    · exact hmix _ _ _
    · exact hnormal _ hcolor
    · exact hmuted
    · exact isHexColor_ensureContrast arithmetic fun _ => hmix _ _ _
    · exact hbright _ hcolor
    · exact htext
  · next hlight =>
      have hdim := h .textDim (by simp [embedded, hmode.mp hlight])
      simp only [List.mem_append, List.mem_cons, List.not_mem_nil, or_false] at hcolor
      rcases hcolor with (((rfl | hcolor) | rfl | rfl) | hcolor) | rfl
      · exact htext
      · exact hnormal _ hcolor
      · exact isHexColor_ensureContrast arithmetic fun _ => hmix _ _ _
      · exact hdim
      · exact hbright _ hcolor
      · exact hmix _ _ _

theorem settings_hex (hmode : tokens.mode = .light ↔ light = true)
    (h : ∀ color ∈ embedded arithmetic tokens.colors light,
      isHexColor (tokens.colors color) = true) :
    ∀ pair ∈ Kitty.settings arithmetic tokens, isHexColor pair.2 = true := by
  have haccentText : isHexColor (arithmetic.ensureContrast (tokens.colors .accentText)
      (tokens.colors .background) (9 / 2)) = true :=
    isHexColor_ensureContrast arithmetic fun hreads => h .accentText (by simp [embedded, hreads])
  have hplain (color : Color) (hmem : color ∈ [Color.text, .background, .accent, .accentContainer,
      .onAccent, .textMuted, .surface, .stroke, .amber, .red]) :
      isHexColor (tokens.colors color) = true := by
    refine h color ?_
    unfold embedded
    exact List.mem_append_left _ (List.mem_append_left _ hmem)
  have hinks : ∀ color ∈ [tokens.colors .accent, tokens.colors .amber, tokens.colors .red],
      isHexColor color = true := by
    simp [hplain .accent (by decide), hplain .amber (by decide), hplain .red (by decide)]
  have hpalette := ansiPalette_hex hmode h
  unfold Kitty.settings
  simp only [List.forall_mem_append, List.forall_mem_cons, List.forall_mem_map]
  refine ⟨⟨⟨hplain .text (by decide), hplain .background (by decide),
    isHexColor_foregroundFor _ _, hplain .accentContainer (by decide), haccentText,
    hplain .background (by decide), haccentText, hplain .onAccent (by decide),
    hplain .accent (by decide), hplain .textMuted (by decide), hplain .surface (by decide),
    hplain .background (by decide), haccentText, hplain .stroke (by decide),
    hplain .amber (by decide), by simp⟩, marks_hex arithmetic hinks⟩, ?_⟩
  intro color hcolor
  exact hpalette color.1 (List.fst_mem_of_mem_zipIdx hcolor)

/-- Every colour that is written as it is has a setting. -/
theorem embedded_settings (hmode : tokens.mode = .light ↔ light = true) {color : Color}
    (h : color ∈ embedded arithmetic tokens.colors light) :
    ∃ key, (key, tokens.colors color) ∈ Kitty.settings arithmetic tokens := by
  unfold embedded at h
  rcases List.mem_append.mp h with hplain | hdim
  · rcases List.mem_append.mp hplain with hplain | hreads
    · simp only [List.mem_cons, List.not_mem_nil, or_false] at hplain
      rcases hplain with rfl | rfl | rfl | rfl | rfl | rfl | rfl | rfl | rfl | rfl
      · exact ⟨ascii "foreground", by simp [Kitty.settings]⟩
      · exact ⟨ascii "background", by simp [Kitty.settings]⟩
      · exact ⟨ascii "active_tab_background", by simp [Kitty.settings]⟩
      · exact ⟨ascii "selection_background", by simp [Kitty.settings]⟩
      · exact ⟨ascii "active_tab_foreground", by simp [Kitty.settings]⟩
      · exact ⟨ascii "inactive_tab_foreground", by simp [Kitty.settings]⟩
      · exact ⟨ascii "inactive_tab_background", by simp [Kitty.settings]⟩
      · exact ⟨ascii "inactive_border_color", by simp [Kitty.settings]⟩
      · exact ⟨ascii "bell_border_color", by simp [Kitty.settings]⟩
      · exact ⟨ascii "mark" ++ digitsOf 3 ++ ascii "_background",
          by simp [Kitty.settings, Kitty.marks]⟩
    · split_ifs at hreads with hreads'
      · rw [List.mem_singleton.mp hreads]
        exact ⟨ascii "cursor", by simp [Kitty.settings, Arithmetic.ensureContrast, hreads']⟩
      · cases hreads
  · split_ifs at hdim with hlight
    · rw [List.mem_singleton.mp hdim]
      exact ⟨ascii "color" ++ digitsOf 8,
        by simp [Kitty.settings, ansiPalette, ANSI_HUES, hmode.mpr hlight]⟩
    · cases hdim

theorem settings_keys : ∀ pair ∈ Kitty.settings arithmetic tokens, 10 ∉ pair.1 := by
  have hdigits (n : ℕ) : 10 ∉ digitsOf n := by
    intro hmem
    have hdigit := List.all_eq_true.mp (digitsOf_all_isDigit n) 10 hmem
    simp [isDigit] at hdigit
  have hmarks (fills : List Text) : ∀ pair ∈ Kitty.marks arithmetic fills, 10 ∉ pair.1 := by
    have hmark : 10 ∉ ascii "mark" := by decide
    have hfore : 10 ∉ ascii "_foreground" := by decide
    have hback : 10 ∉ ascii "_background" := by decide
    intro pair hpair
    obtain ⟨fill, -, hpair⟩ := List.mem_flatMap.mp hpair
    rcases List.mem_cons.mp hpair with rfl | hpair
    · simp [hdigits, hmark, hfore]
    · rw [List.mem_singleton.mp hpair]
      simp [hdigits, hmark, hback]
  have hcolor : 10 ∉ ascii "color" := by decide
  unfold Kitty.settings
  simp only [List.forall_mem_append, List.forall_mem_map]
  refine ⟨⟨?_, hmarks _⟩, ?_⟩
  · simp only [List.forall_mem_cons]
    decide
  · intro color hmem
    simp [hdigits, hcolor]

end

/-! ### The compositor's table -/

theorem digits_plain {digits : Text} (h : digits.all isHexDigit = true) :
    digits.all LuaData.isPlain = true := by
  rw [List.all_eq_true] at h ⊢
  intro c hc
  have hbounds := isHexDigit_bounds (h c hc)
  simp only [LuaData.isPlain, Bool.and_eq_true, decide_eq_true_eq]
  omega

theorem isXDigit_of_hex {digits : Text} (h : digits.all isHexDigit = true) :
    digits.all Hyprland.isXDigit = true := by
  rw [List.all_eq_true] at h ⊢
  intro c hc
  rw [Hyprland.isXDigit, h c hc, Bool.true_or]

/-- A call of hexadecimal digits is what the compositor accepts. -/
theorem isCall_digits {name : String} {digits : Text} (h : digits.all isHexDigit = true) :
    Hyprland.isCall name digits.length (ascii name ++ 40 :: digits ++ [41]) = true := by
  have hx := isXDigit_of_hex h
  simp [Hyprland.isCall, hx]

/-- A string of the table: short, without escapes, and accepted. -/
structure Shown (text : Text) : Prop where
  plain : text.all LuaData.isPlain = true
  short : text.length ≤ 14
  call : Hyprland.isCall "rgb" 6 text = true ∨ Hyprland.isCall "rgba" 8 text = true

theorem shown_rgb {text : Text} (h : isHexColor text = true) : Shown (Hyprland.rgb text) := by
  obtain ⟨digits, rfl, hlength, hdigits⟩ := isHexColor_eq h
  have hname : (ascii "rgb(").all LuaData.isPlain = true := by decide
  have hclose : (ascii ")").all LuaData.isPlain = true := by decide
  refine ⟨?_, ?_, Or.inl ?_⟩
  · rw [Hyprland.rgb, List.tail_cons, List.all_append, List.all_append, hname, hclose,
      digits_plain hdigits]
    rfl
  · have hlength' : (ascii "rgb(").length = 4 ∧ (ascii ")").length = 1 := ⟨rfl, rfl⟩
    simp only [Hyprland.rgb, List.tail_cons, List.length_append]
    omega
  · have hcall := @isCall_digits "rgb" _ hdigits
    rwa [hlength] at hcall

theorem shown_rgba {text alpha : Text} (h : isHexColor text = true)
    (halpha : alpha.all isHexDigit = true) (htwo : alpha.length = 2) :
    Shown (Hyprland.rgba text alpha) := by
  obtain ⟨digits, rfl, hlength, hdigits⟩ := isHexColor_eq h
  have hall : (digits ++ alpha).all isHexDigit = true := by
    rw [List.all_append, hdigits, halpha]
    rfl
  have hname : (ascii "rgba(").all LuaData.isPlain = true := by decide
  have hclose : (ascii ")").all LuaData.isPlain = true := by decide
  refine ⟨?_, ?_, Or.inr ?_⟩
  · rw [Hyprland.rgba, List.tail_cons, List.all_append, List.all_append, List.all_append, hname,
      hclose, digits_plain hdigits, digits_plain halpha]
    rfl
  · have hlength' : (ascii "rgba(").length = 5 ∧ (ascii ")").length = 1 := ⟨rfl, rfl⟩
    simp only [Hyprland.rgba, List.tail_cons, List.length_append]
    omega
  · have hcall := @isCall_digits "rgba" _ hall
    rw [List.length_append, hlength, htwo] at hcall
    simpa [Hyprland.rgba, ascii] using hcall

/-- The colours of the compositor. -/
def inked : List Color := [.accent, .stroke, .red, .text, .textMuted, .background]

section

variable {tokens : Tokens} (h : ∀ color ∈ inked, isHexColor (tokens.colors color) = true)

include h

theorem shown_shadow : Shown (Hyprland.shadow tokens) := by
  unfold Hyprland.shadow
  cases tokens.mode with
  | dark => exact shown_rgba (h .background (by decide)) (by decide) rfl
  | light => exact shown_rgba (h .text (by decide)) (by decide) rfl

theorem isTame_config : LuaData.isTame (Hyprland.config tokens) = true := by
  have hink (color : Color) (hcolor : color ∈ inked) := (shown_rgb (h color hcolor)).plain
  have haccent := hink .accent (by decide)
  have hstroke := hink .stroke (by decide)
  have hred := hink .red (by decide)
  have htext := hink .text (by decide)
  have hmuted := hink .textMuted (by decide)
  have hshadow := (shown_shadow h).plain
  unfold Hyprland.config
  simp only [LuaData.isTame, LuaData.areTame, haccent, hstroke, hred, htext, hmuted, hshadow,
    Bool.and_true]
  decide +kernel

/-- Every key has a string that the compositor accepts. -/
theorem config_key {key : List Text} (hkey : key ∈ Hyprland.THEME_KEYS) :
    ∃ text, Hyprland.nodeAt (Hyprland.config tokens) key = some (.str text) ∧ Shown text := by
  have hink (color : Color) (hcolor : color ∈ inked) := shown_rgb (h color hcolor)
  have haccent := hink .accent (by decide)
  have hstroke := hink .stroke (by decide)
  have hred := hink .red (by decide)
  have htext := hink .text (by decide)
  have hmuted := hink .textMuted (by decide)
  revert key
  simp only [Hyprland.THEME_KEYS, List.map_cons, List.map_nil, List.forall_mem_cons]
  exact ⟨⟨_, rfl, haccent⟩, ⟨_, rfl, hstroke⟩, ⟨_, rfl, shown_shadow h⟩, ⟨_, rfl, haccent⟩,
    ⟨_, rfl, hstroke⟩, ⟨_, rfl, hred⟩, ⟨_, rfl, hstroke⟩, ⟨_, rfl, haccent⟩, ⟨_, rfl, hstroke⟩,
    ⟨_, rfl, hred⟩, ⟨_, rfl, hstroke⟩, ⟨_, rfl, htext⟩, ⟨_, rfl, hmuted⟩, ⟨_, rfl, htext⟩,
    ⟨_, rfl, hmuted⟩, by simp⟩

theorem length_config : LuaData.printedLength 0 (Hyprland.config tokens) ≤ 4096 := by
  have hink (color : Color) (hcolor : color ∈ inked) := (shown_rgb (h color hcolor)).short
  have haccent := hink .accent (by decide)
  have hstroke := hink .stroke (by decide)
  have hred := hink .red (by decide)
  have htext := hink .text (by decide)
  have hmuted := hink .textMuted (by decide)
  have hshadow := (shown_shadow h).short
  have hnames : (ascii "general").length = 7 ∧ (ascii "decoration").length = 10 ∧
      (ascii "group").length = 5 ∧ (ascii "col").length = 3 ∧ (ascii "shadow").length = 6 ∧
      (ascii "color").length = 5 ∧ (ascii "groupbar").length = 8 := by decide
  have hborders : (ascii "active_border").length = 13 ∧ (ascii "inactive_border").length = 15 ∧
      (ascii "border_active").length = 13 ∧ (ascii "border_inactive").length = 15 ∧
      (ascii "border_locked_active").length = 20 ∧
      (ascii "border_locked_inactive").length = 22 := by decide
  have hbar : (ascii "active").length = 6 ∧ (ascii "inactive").length = 8 ∧
      (ascii "locked_active").length = 13 ∧ (ascii "locked_inactive").length = 15 ∧
      (ascii "text_color").length = 10 ∧ (ascii "text_color_inactive").length = 19 ∧
      (ascii "text_color_locked_active").length = 24 ∧
      (ascii "text_color_locked_inactive").length = 26 := by decide
  unfold Hyprland.config
  simp only [LuaData.printedLength, LuaData.fieldsLength]
  omega

/-- What is read of the sorted table is what the table has. -/
theorem mapM_readKey {keys : List (List Text)} (hkeys : ∀ key ∈ keys, key ∈ Hyprland.THEME_KEYS) :
    ∃ values, keys.mapM (configValue tokens) = some values ∧
      (keys.mapM (Hyprland.readKey (Hyprland.sorted (Hyprland.config tokens)))).map List.flatten =
        some values := by
  induction keys with
  | nil => exact ⟨[], rfl, rfl⟩
  | cons key keys ih =>
      obtain ⟨values, hvalues, hread⟩ := ih fun other hother =>
        hkeys other (List.mem_cons_of_mem _ hother)
      obtain ⟨text, htext, hshown⟩ := config_key h (hkeys key List.mem_cons_self)
      have hvalue : configValue tokens key = some (key, text) := by rw [configValue, htext]
      have hnode : Hyprland.nodeAt (Hyprland.sorted (Hyprland.config tokens)) key =
          some (.str text) := by
        rw [Hyprland.nodeAt_sorted rfl, htext]
        rfl
      have hone : Hyprland.readKey (Hyprland.sorted (Hyprland.config tokens)) key =
          some [(key, text)] := by
        rw [Hyprland.readKey, hnode]
        exact if_pos hshown.call
      obtain ⟨lists, hlists, rfl⟩ := Option.map_eq_some_iff.mp hread
      refine ⟨(key, text) :: lists.flatten, ?_, ?_⟩
      · rw [List.mapM_cons, hvalue, hvalues]
        rfl
      · rw [List.mapM_cons, hone, hlists]
        rfl

/-- The compositor reads what the table holds. -/
theorem readSystemTheme_render : ∃ values,
    Hyprland.THEME_KEYS.mapM (configValue tokens) = some values ∧
      (Utf8.encode (Hyprland.render tokens)).bind Hyprland.readSystemTheme = some values := by
  have htame := Hyprland.isTame_sorted (isTame_config h)
  have hheader : ∀ c ∈ Hyprland.HEADER ++ ascii "return ", c < 128 := by decide +kernel
  have hascii : ∀ c ∈ Hyprland.render tokens, c < 128 := by
    unfold Hyprland.render Hyprland.luaTable
    simp only [List.forall_mem_append] at hheader ⊢
    exact ⟨⟨hheader, LuaData.print_ascii htame 0⟩, by decide⟩
  have hlength : (Hyprland.render tokens).length ≤ Hyprland.THEME_MAX_BYTES := by
    have hhead : (Hyprland.HEADER ++ ascii "return ").length ≤ 1024 := by decide +kernel
    have hbody := length_config h
    rw [List.length_append] at hhead
    unfold Hyprland.render Hyprland.luaTable Hyprland.THEME_MAX_BYTES
    rw [List.length_append, List.length_append, List.length_append, LuaData.length_print,
      Hyprland.printedLength_sorted, List.length_singleton]
    omega
  have hscan : LuaData.scan .between Hyprland.HEADER = some (.between, []) := by decide +kernel
  have hload : LuaData.load (Hyprland.render tokens) =
      some (Hyprland.sorted (Hyprland.config tokens)) := LuaData.load_print hscan htame 0
  obtain ⟨values, hvalues, hread⟩ := mapM_readKey h fun key hkey => hkey
  refine ⟨values, hvalues, ?_⟩
  have hne : Hyprland.render tokens ≠ [] := by simp [Hyprland.render]
  obtain ⟨fields, hfields⟩ : ∃ fields, Hyprland.sorted (Hyprland.config tokens) = .table fields :=
    ⟨_, rfl⟩
  rw [hfields] at hload hread
  rw [Utf8.encode_ascii hascii, Option.bind_some, Hyprland.readSystemTheme,
    List.take_of_length_le (Nat.le_succ_of_le hlength)]
  rw [if_neg (not_or.mpr ⟨hne, Nat.not_lt.mpr hlength⟩), hload]
  exact hread

end

/-! ### Embedding -/

section

variable {lower : Text → Text} {arithmetic : Arithmetic} {raw : PyValue} {tokens : Tokens}

/-- What the embedded colours are, of the export and of the tokens alike. -/
theorem clean_iff (h : validate lower raw = .ok tokens) : Clean lower arithmetic raw ↔
    ∀ color ∈ embedded arithmetic tokens.colors
        (isStr (memberOf (some raw) (ascii "mode")) "light"),
      isHexColor (tokens.colors color) = true := by
  obtain ⟨hcolors, hhex, -⟩ := validate_ok h
  unfold Clean
  rw [← hcolors]
  constructor
  · intro hclean color hcolor
    exact isHexColor_of_isHex (hhex color) (hclean color hcolor)
  · intro hwhole color hcolor hlast
    exact isHexColor_notMem (hwhole color hcolor) (List.mem_of_getLast? hlast)

/-- An accepted export is embedded in both files exactly when no colour that the
terminal's file shows as it is ends with a line break. -/
theorem validated_embeds_iff (lower : Text → Text) (arithmetic : Arithmetic) (raw : PyValue)
    (tokens : Tokens) (h : validate lower raw = .ok tokens) :
    Embeds arithmetic tokens ↔ Clean lower arithmetic raw := by
  obtain ⟨hcolors, hhex, hmode⟩ := validate_ok h
  rw [clean_iff h]
  constructor
  · intro hembeds color hcolor
    refine isHexColor_of_isHex (hhex color) fun hlast => ?_
    obtain ⟨key, hkey⟩ := embedded_settings hmode hcolor
    have hline : Kitty.line (key, tokens.colors color) ∈
        linesOf (Kitty.render arithmetic tokens) := by
      rw [hembeds.2]
      exact List.mem_append_right _ (List.mem_map_of_mem hkey)
    refine linesOf_notMem hline ?_
    exact List.mem_append_right _ (List.mem_cons_of_mem _ (List.mem_of_getLast? hlast))
  · intro hwhole
    have hinked : ∀ color ∈ inked, isHexColor (tokens.colors color) = true := by
      intro color hcolor
      refine hwhole color ?_
      unfold embedded
      refine List.mem_append_left _ (List.mem_append_left _ ?_)
      revert color
      decide
    have hlines : ∀ pair ∈ Kitty.settings arithmetic tokens, 10 ∉ Kitty.line pair := by
      intro pair hpair
      have hkey := settings_keys pair hpair
      have hvalue := isHexColor_notMem (settings_hex hmode hwhole pair hpair)
      simp [Kitty.line, hkey, hvalue]
    refine ⟨readSystemTheme_render hinked, ?_⟩
    rw [Kitty.render, linesOf_header, linesOf_flatMap hlines]

/-- The greys of surfaces and inks. -/
def greyColor (accent : Text) : Color → Text
  | .accent => accent
  | .background | .surface | .surfaceRaised | .bar | .accentContainer | .stroke => ascii "#101010"
  | _ => ascii "#f0f0f0"

def greyColors (accent : Text) : List (Text × PyValue) :=
  Color.all.map fun color => (color.key, .str (greyColor accent color))

/-- A dark export with this accent. -/
def greyExport (accent : Text) : PyValue :=
  .obj [(ascii "v", .num (.int 1)), (ascii "mode", .str (ascii "dark")),
    (ascii "source", .str (ascii "fixed")),
    (ascii "colors", .obj (greyColors accent)),
    (ascii "font", .obj [(ascii "ui", .str (ascii "Inter")), (ascii "mono", .str (ascii "Hack"))]),
    (ascii "radius", .num (.int 12)), (ascii "glass", .bool true)]

/-- What the arithmetic comes to for these greys. -/
def greyArithmetic : Arithmetic where
  reads := fun _ _ _ => true
  inksWhite := fun background => background == ascii "#101010"
  channels := fun _ _ amount => if amount = 1 / 10 then (38, 38, 38) else (106, 106, 106)
  least := fun _ _ _ => 0

def greyTokens (accent : Text) : Tokens where
  mode := .dark
  source := .fixed
  colors := greyColor accent
  ui := ascii "Inter"
  mono := ascii "Hack"
  radius := 12
  glass := true
  wallpaper := []

theorem lookup_greyColors (accent : Text) (color : Color) :
    (greyColors accent).lookup color.key = some (.str (greyColor accent color)) := by
  have hkeys : (Color.all.map Color.key).Nodup := by decide +kernel
  refine Dict.lookup_of_mem ?_ (List.mem_map.mpr ⟨color, by cases color <;> decide, rfl⟩)
  rw [Dict.keys, greyColors, List.map_map]
  exact hkeys

theorem validate_greyExport {accent : Text} (h : isHex accent = true) :
    validate id (greyExport accent) = .ok (greyTokens accent) := by
  have hgreys : isHex (ascii "#101010") = true ∧ isHex (ascii "#f0f0f0") = true := by decide
  have hhex (color : Color) : isHex (greyColor accent color) = true := by
    have hcolor : greyColor accent color = accent ∨ greyColor accent color = ascii "#101010" ∨
        greyColor accent color = ascii "#f0f0f0" := by
      cases color <;> simp [greyColor]
    rcases hcolor with hcolor | hcolor | hcolor <;> rw [hcolor]
    · exact h
    · exact hgreys.1
    · exact hgreys.2
  have hchecked := @colorsOf_all id _ _ (lookup_greyColors accent) hhex Color.all
  have hlookup : (fun color => ((Color.all.map fun color =>
      (color, id (greyColor accent color))).lookup color).getD []) = greyColor accent := by
    funext color
    cases color <;> rfl
  have hui : isFont [73, 110, 116, 101, 114] = true := by decide
  have hmono : isFont [72, 97, 99, 107] = true := by decide
  simp only [validate, greyExport, membersOf, List.lookup_cons, ascii, bind, Except.bind, demand]
  simp [isVersion, modeOf, isStr, sourceOf, radiusOf, glassOf, hchecked, ascii, fontOf,
    List.lookup_cons,    hui, hmono, pathOf, pure, Except.pure]
  exact congrArg (fun colors =>
    (⟨.dark, .fixed, colors, ascii "Inter", ascii "Hack", 12, true, []⟩ : Tokens)) hlookup

/-- The desktop's own accent is embedded. -/
theorem validated_embeds_grey : Embeds greyArithmetic (greyTokens (ascii "#9ecbeb")) :=
  (validated_embeds_iff id greyArithmetic (greyExport (ascii "#9ecbeb")) _
    (validate_greyExport (by decide))).mpr (by decide +kernel)

/-- An accent with a line break is accepted, and its setting takes two lines. -/
theorem accentLine_breaks : ∃ tokens,
    validate id (greyExport (ascii "#aabbcc\n")) = .ok tokens ∧
      ¬ Embeds greyArithmetic tokens := by
  refine ⟨_, validate_greyExport (by decide), fun hembeds => ?_⟩
  have hsetting : (ascii "active_tab_background", ascii "#aabbcc\n") ∈
      Kitty.settings greyArithmetic (greyTokens (ascii "#aabbcc\n")) := by
    decide +kernel
  have hline : Kitty.line (ascii "active_tab_background", ascii "#aabbcc\n") ∈
      linesOf (Kitty.render greyArithmetic (greyTokens (ascii "#aabbcc\n"))) := by
    rw [hembeds.2]
    exact List.mem_append_right _ (List.mem_map_of_mem hsetting)
  exact linesOf_notMem hline (by decide)

end

end Theme

end CybexOS
