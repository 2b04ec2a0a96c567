/-
Which texts `M.decode` takes beyond RFC 8259: those whose strings are not
UTF-8.
-/
import CybexOS.Displays.LuaExact

namespace CybexOS

namespace Displays

open Json

namespace Lua

/-! ### ASCII around strings -/

theorem hexValue_ascii {c value : ℕ} (h : hexValue c = some value) : c < 128 := by
  unfold hexValue at h
  split_ifs at h <;> omega

theorem hexValue4_ascii {a b c d code : ℕ} (h : hexValue4 a b c d = some code) :
    a < 128 ∧ b < 128 ∧ c < 128 ∧ d < 128 := by
  unfold hexValue4 at h
  split at h
  · next hw hx hy hz =>
    exact ⟨hexValue_ascii hw, hexValue_ascii hx, hexValue_ascii hy, hexValue_ascii hz⟩
  · cases h

theorem shortEscape_ascii {e unit : ℕ} (h : shortEscape e = some unit) : e < 128 := by
  unfold shortEscape at h
  split at h <;> first | decide | cases h

theorem space_ascii {s : Text} (h : Space s) : ∀ c ∈ s, c < 128 := by
  intro c hc
  have hspace := List.all_eq_true.mp h c hc
  simp only [Json.isSpace, Bool.or_eq_true, beq_iff_eq] at hspace
  omega

theorem digits_ascii {s : Text} (h : s.all isDigit = true) : ∀ c ∈ s, c < 128 := by
  intro c hc
  have hdigit := List.all_eq_true.mp h c hc
  simp only [isDigit, Bool.and_eq_true, decide_eq_true_eq] at hdigit
  omega

theorem numeral_ascii {body : Text} {numeral : Numeral} (h : IsNumeral body numeral) :
    ∀ c ∈ body, c < 128 := by
  cases h with
  | @mk neg whole fracText frac expText exp hwhole hfrac hexp =>
      intro c hc
      simp only [List.mem_append] at hc
      rcases hc with ((hc | hc) | hc) | hc
      · cases neg <;> simp at hc
        omega
      · exact digits_ascii hwhole.1.2 c hc
      · cases hfrac with
        | none => cases hc
        | digits h =>
            rcases List.mem_cons.mp hc with rfl | hc
            · decide
            · exact digits_ascii h.2 c hc
      · cases hexp with
        | none => cases hc
        | digits hmark hsign h =>
            rw [List.cons_append, List.mem_cons, List.mem_append] at hc
            rcases hc with rfl | hc | hc
            · omega
            · cases hsign <;> simp at hc <;> omega
            · exact digits_ascii h.2 c hc

/-! ### Strings that are UTF-8 -/

theorem isUnescaped_high {b : ℕ} (h : 128 ≤ b) : isUnescaped b = true := by
  simp only [isUnescaped, Bool.and_eq_true, decide_eq_true_eq, bne_iff_ne]
  omega

theorem encodeChar_unescaped {c : ℕ} (h : isUnescaped c = true) :
    ∀ b ∈ Utf8.encodeChar c, isUnescaped b = true := by
  intro b hb
  by_cases hc : c < 128
  · rw [Utf8.encodeChar, if_pos hc, List.mem_singleton] at hb
    exact hb ▸ h
  · exact isUnescaped_high (Utf8.encodeChar_high (by omega) b hb)

theorem ByteString.append_bytes {chunk : Text} (h : ∀ b ∈ chunk, isUnescaped b = true)
    {s out : Text} (hrest : ByteString s out) : ByteString (chunk ++ s) (chunk ++ out) :=
  ByteString.append (fun b hb => (isUnescaped_iff.mp (h b hb)).1)
    (fun hzero => (isUnescaped_iff.mp (h 0 hzero)).2 rfl) hrest

/-- A string of the grammar is taken, and read as the UTF-8 of its text. -/
theorem byteString_of_denotes {s text : Text} (h : DenotesText s text) :
    ByteString s (text.flatMap Utf8.encodeChar) := by
  induction h with
  | nil => exact .nil
  | plain hchar hrest ih =>
      obtain ⟨c, hc, -, rfl, rfl⟩ := hchar
      rw [List.flatMap_append, List.flatMap_singleton]
      exact ByteString.append_bytes (encodeChar_unescaped hc) ih
  | short h hrest ih =>
      rw [List.flatMap_append, List.flatMap_singleton]
      exact .short h ih
  | unit h hscalar hrest ih =>
      rw [List.flatMap_append, List.flatMap_singleton]
      exact .unit h hscalar ih
  | pair hhigh hh hlow hl hrest ih =>
      rw [List.flatMap_append, List.flatMap_singleton]
      exact .pair hhigh hh hlow hl ih

theorem isUtf8_of_denotes {s text : Text} (h : DenotesText s text) : Utf8.IsUtf8 s := by
  induction h with
  | nil => exact ⟨[], rfl, rfl⟩
  | plain hchar hrest ih =>
      obtain ⟨c, -, hscalar, rfl, -⟩ := hchar
      exact (Utf8.isUtf8_char hscalar).append ih
  | @short e unit s text h hrest ih =>
      have hascii : ∀ b ∈ [92, e], b < 128 := by simpa using shortEscape_ascii h
      exact (Utf8.isUtf8_ascii hascii).append ih
  | @unit a b c d code s text h hscalar hrest ih =>
      have hascii : ∀ x ∈ [92, 117, a, b, c, d], x < 128 := by simpa using hexValue4_ascii h
      exact (Utf8.isUtf8_ascii hascii).append ih
  | @pair a b c d high a' b' c' d' low s text hhigh hh hlow hl hrest ih =>
      have hascii : ∀ x ∈ [92, 117, a, b, c, d], x < 128 := by simpa using hexValue4_ascii hhigh
      have hascii' : ∀ x ∈ [92, 117, a', b', c', d'], x < 128 := by
        simpa using hexValue4_ascii hlow
      exact (Utf8.isUtf8_ascii hascii).append ((Utf8.isUtf8_ascii hascii').append ih)

theorem ByteString.of_cons {b : ℕ} (hb : b ≠ 92) {s out : Text} (h : ByteString (b :: s) out) :
    ∃ rest, out = b :: rest ∧ ByteString s rest := by
  generalize hs : b :: s = bytes at h
  cases h with
  | nil => cases hs
  | plain hchar hrest =>
      obtain ⟨c, -, rfl, rfl⟩ := hchar
      obtain ⟨rfl, rfl⟩ := List.cons.inj hs
      exact ⟨_, rfl, hrest⟩
  | short | unit | pair => exact absurd (List.cons.inj hs).1 hb

theorem ByteString.of_append {chunk : Text} (hchunk : 92 ∉ chunk) {s out : Text}
    (h : ByteString (chunk ++ s) out) : ∃ rest, out = chunk ++ rest ∧ ByteString s rest := by
  induction chunk generalizing out with
  | nil => exact ⟨out, rfl, h⟩
  | cons b chunk ih =>
      rw [List.mem_cons, not_or] at hchunk
      obtain ⟨rest, rfl, hrest⟩ := ByteString.of_cons (fun heq => hchunk.1 heq.symm) h
      obtain ⟨last, rfl, hlast⟩ := ih hchunk.2 hrest
      exact ⟨last, rfl, hlast⟩

/-- A string that is taken and is UTF-8 is one of the grammar. -/
theorem denotes_of_byteString {s out : Text} (h : ByteString s out) (hutf8 : Utf8.IsUtf8 s) :
    IsString s out := by
  induction hlen : s.length using Nat.strong_induction_on generalizing s out with
  | _ n ih =>
      subst hlen
      cases h with
      | nil => exact ⟨[], .nil, rfl⟩
      | @plain char out' s' out'' hchar hrest =>
          obtain ⟨b, hb, rfl, rfl⟩ := hchar
          obtain ⟨text, htext, hbytes⟩ := hutf8
          cases text with
          | nil => cases hbytes
          | cons c text =>
              rw [List.all_cons, Bool.and_eq_true] at htext
              rw [List.flatMap_cons] at hbytes
              obtain ⟨first, tail, hchar⟩ := List.exists_cons_of_ne_nil (Utf8.encodeChar_ne_nil c)
              rw [hchar] at hbytes
              obtain ⟨rfl, rfl⟩ := List.cons.inj hbytes
              have hshape : isUnescaped c = true ∧ 92 ∉ tail := by
                by_cases hc : c < 128
                · rw [Utf8.encodeChar, if_pos hc] at hchar
                  obtain ⟨rfl, rfl⟩ := List.cons.inj hchar
                  exact ⟨hb, List.not_mem_nil⟩
                · refine ⟨isUnescaped_high (by omega), fun hmem => ?_⟩
                  have hhigh := Utf8.encodeChar_high (not_lt.mp hc) 92
                    (hchar ▸ List.mem_cons_of_mem _ hmem)
                  omega
              obtain ⟨rest, rfl, hlast⟩ := ByteString.of_append hshape.2 hrest
              obtain ⟨denoted, hdenoted, rfl⟩ := ih _ (by simp) hlast
                ⟨text, htext.2, rfl⟩ rfl
              have hplain : Unescaped (b :: tail) [c] :=
                ⟨c, hshape.1, htext.1, hchar.symm, rfl⟩
              refine ⟨c :: denoted, .plain hplain hdenoted, ?_⟩
              rw [List.flatMap_cons, hchar]
              rfl
      | @short e unit s' out' h hrest =>
          have hascii : ∀ x ∈ [92, e], x < 128 := by simpa using shortEscape_ascii h
          obtain ⟨text, htext, rfl⟩ := ih s'.length (by simp) hrest
            (Utf8.IsUtf8.of_ascii_append hascii hutf8) rfl
          exact ⟨unit :: text, .short h htext, rfl⟩
      | @unit a b c d code s' out' h hscalar hrest =>
          have hascii : ∀ x ∈ [92, 117, a, b, c, d], x < 128 := by simpa using hexValue4_ascii h
          obtain ⟨text, htext, rfl⟩ := ih s'.length (by simp; omega) hrest
            (Utf8.IsUtf8.of_ascii_append hascii hutf8) rfl
          exact ⟨code :: text, .unit h hscalar htext, rfl⟩
      | @pair a b c d high a' b' c' d' low s' out' hhigh hh hlow hl hrest =>
          have hascii : ∀ x ∈ [92, 117, a, b, c, d], x < 128 := by
            simpa using hexValue4_ascii hhigh
          have hascii' : ∀ x ∈ [92, 117, a', b', c', d'], x < 128 := by
            simpa using hexValue4_ascii hlow
          obtain ⟨text, htext, rfl⟩ := ih s'.length (by simp; omega) hrest
            (Utf8.IsUtf8.of_ascii_append hascii' (Utf8.IsUtf8.of_ascii_append hascii hutf8)) rfl
          exact ⟨_ :: text, .pair hhigh hh hlow hl htext, rfl⟩

/-! ### Values that are UTF-8 -/

theorem isUtf8_word (word : String) (h : ∀ c ∈ ascii word, c < 128) :
    Utf8.IsUtf8 (ascii word) := Utf8.isUtf8_ascii h

theorem isUtf8_cons {c : ℕ} (hc : c < 128) {s : Text} (h : Utf8.IsUtf8 s) :
    Utf8.IsUtf8 (c :: s) :=
  Utf8.IsUtf8.append (Utf8.isUtf8_ascii (by simpa using hc : ∀ b ∈ [c], b < 128)) h

theorem isUtf8_of_cons {c : ℕ} (hc : c < 128) {s : Text} (h : Utf8.IsUtf8 (c :: s)) :
    Utf8.IsUtf8 s := (@Utf8.IsUtf8.split [] s c hc h).2

theorem isUtf8_commas {texts : List Text} (h : ∀ text ∈ texts, Utf8.IsUtf8 text) :
    Utf8.IsUtf8 (commas texts) := by
  induction texts with
  | nil => exact ⟨[], rfl, rfl⟩
  | cons text texts ih =>
      rw [List.forall_mem_cons] at h
      by_cases hlast : texts = []
      · subst hlast
        exact h.1
      · rw [commas_cons _ hlast]
        exact h.1.append (isUtf8_cons (by decide) (ih h.2))

theorem isUtf8_of_commas {texts : List Text} (h : Utf8.IsUtf8 (commas texts)) :
    ∀ text ∈ texts, Utf8.IsUtf8 text := by
  induction texts with
  | nil => simp
  | cons text texts ih =>
      by_cases hlast : texts = []
      · subst hlast
        intro only honly
        rw [List.mem_singleton.mp honly]
        exact h
      · rw [commas_cons _ hlast] at h
        obtain ⟨htext, htexts⟩ := h.split (by decide)
        exact List.forall_mem_cons.mpr ⟨htext, ih htexts⟩

theorem isUtf8_slot_iff {slot : Slot Double} (hspaced : slot.Spaced) :
    Utf8.IsUtf8 slot.text ↔ Utf8.IsUtf8 slot.body := by
  have hbefore := space_ascii hspaced.1
  have hafter := space_ascii hspaced.2
  rw [Slot.text]
  constructor
  · exact fun h => (h.of_append_ascii hafter).of_ascii_append hbefore
  · exact fun h => ((Utf8.isUtf8_ascii hbefore).append h).append (Utf8.isUtf8_ascii hafter)

theorem isUtf8_member_iff {m : Member Double} (hspaced : m.Spaced) :
    Utf8.IsUtf8 m.text ↔ Utf8.IsUtf8 m.key ∧ Utf8.IsUtf8 m.slot.body := by
  obtain ⟨hbefore, hafter, hslot⟩ := hspaced
  have hshape : m.text = m.before ++ 34 :: (m.key ++ 34 :: (m.after ++ 58 :: m.slot.text)) := by
    simp [Member.text]
  rw [hshape, ← isUtf8_slot_iff hslot]
  constructor
  · intro h
    obtain ⟨hkey, hrest⟩ := (h.split (by decide)).2.split (by decide)
    exact ⟨hkey, (hrest.split (by decide)).2⟩
  · rintro ⟨hkey, hvalue⟩
    exact (Utf8.isUtf8_ascii (space_ascii hbefore)).append (isUtf8_cons (by decide)
      (hkey.append (isUtf8_cons (by decide) ((Utf8.isUtf8_ascii (space_ascii hafter)).append
        (isUtf8_cons (by decide) hvalue)))))

theorem isUtf8_enclosed_iff {left right : ℕ} (hleft : left < 128) (hright : right < 128)
    {inside : Text} :
    Utf8.IsUtf8 (left :: inside ++ [right]) ↔ Utf8.IsUtf8 inside := by
  have hend : ∀ b ∈ [right], b < 128 := by simpa using hright
  constructor
  · exact fun h => isUtf8_of_cons hleft (h.of_append_ascii hend)
  · exact fun h => (isUtf8_cons hleft h).append (Utf8.isUtf8_ascii hend)

/-- The texts of the grammar are UTF-8. -/
theorem isUtf8_of_grammar {left : ℕ} {body : Text} {v : LuaValue}
    (h : Denotes IsString toDouble left body v) : Utf8.IsUtf8 body := by
  induction h with
  | null => exact isUtf8_word "null" (by decide)
  | bool depth value => cases value <;> exact isUtf8_word _ (by decide)
  | num depth h => exact Utf8.isUtf8_ascii (numeral_ascii h)
  | str depth h =>
      obtain ⟨text, htext, -⟩ := h
      exact (isUtf8_enclosed_iff (by decide) (by decide)).mpr (isUtf8_of_denotes htext)
  | emptyArr depth h =>
      exact (isUtf8_enclosed_iff (by decide) (by decide)).mpr (Utf8.isUtf8_ascii (space_ascii h))
  | arr hne hspaced _ ih =>
      refine (isUtf8_enclosed_iff (by decide) (by decide)).mpr (isUtf8_commas ?_)
      intro text htext
      obtain ⟨slot, hslot, rfl⟩ := List.mem_map.mp htext
      exact (isUtf8_slot_iff (hspaced slot hslot)).mpr (ih slot hslot)
  | emptyObj depth h =>
      exact (isUtf8_enclosed_iff (by decide) (by decide)).mpr (Utf8.isUtf8_ascii (space_ascii h))
  | obj hne hspaced hkeys _ _ ih =>
      refine (isUtf8_enclosed_iff (by decide) (by decide)).mpr (isUtf8_commas ?_)
      intro text htext
      obtain ⟨m, hm, rfl⟩ := List.mem_map.mp htext
      obtain ⟨text, hkey, -⟩ := hkeys m hm
      exact (isUtf8_member_iff (hspaced m hm)).mpr ⟨isUtf8_of_denotes hkey, ih m hm⟩

/-- A text that is taken and is UTF-8 is one of the grammar. -/
theorem grammar_of_reads {left : ℕ} {body : Text} {v : LuaValue} (h : Reads left body v)
    (hutf8 : Utf8.IsUtf8 body) : Denotes IsString toDouble left body v := by
  induction h with
  | null left => exact .null left
  | bool left value => exact .bool left value
  | num left h hworth => exact .num left h hworth
  | str left h =>
      rw [isUtf8_enclosed_iff (by decide) (by decide)] at hutf8
      exact .str left (denotes_of_byteString h hutf8)
  | emptyArr left h => exact .emptyArr left h
  | arr hne hspaced _ ih =>
      rw [isUtf8_enclosed_iff (by decide) (by decide)] at hutf8
      refine .arr hne hspaced fun slot hslot => ih slot hslot ?_
      rw [← isUtf8_slot_iff (hspaced slot hslot)]
      exact isUtf8_of_commas hutf8 _ (List.mem_map_of_mem hslot)
  | emptyObj left h => exact .emptyObj left h
  | obj hne hspaced hkeys hdistinct _ ih =>
      rw [isUtf8_enclosed_iff (by decide) (by decide)] at hutf8
      have hmembers := fun m hm => (isUtf8_member_iff (hspaced m hm)).mp
        (isUtf8_of_commas hutf8 _ (List.mem_map_of_mem hm))
      exact .obj hne hspaced
        (fun m hm => denotes_of_byteString (hkeys m hm) (hmembers m hm).1) hdistinct
        fun m hm => ih m hm (hmembers m hm).2

theorem reads_of_grammar {left : ℕ} {body : Text} {v : LuaValue}
    (h : Denotes IsString toDouble left body v) : Reads left body v :=
  h.mono fun _ _ ⟨_, htext, hout⟩ => hout ▸ byteString_of_denotes htext

/-! ### The documented language -/

/-- One value of RFC 8259 with space around it, its keys distinct, its
containers nested at most sixteen deep and its numbers finite. -/
abbrev InLanguage (text : Text) (v : LuaValue) : Prop :=
  DenotesWhole IsString toDouble MAX_DEPTH text v

theorem isUtf8_of_inLanguage {text : Text} {v : LuaValue} (h : InLanguage text v) :
    Utf8.IsUtf8 text := by
  obtain ⟨slot, rfl, hspaced, hgrammar, -⟩ := h
  exact (isUtf8_slot_iff hspaced).mpr (isUtf8_of_grammar hgrammar)

theorem readsWhole_of_inLanguage {text : Text} {v : LuaValue} (h : InLanguage text v) :
    ReadsWhole text v := by
  obtain ⟨slot, htext, hspaced, hgrammar, hv⟩ := h
  exact ⟨slot, htext, hspaced, reads_of_grammar hgrammar, hv⟩

theorem inLanguage_of_readsWhole {text : Text} {v : LuaValue} (h : ReadsWhole text v)
    (hutf8 : Utf8.IsUtf8 text) : InLanguage text v := by
  obtain ⟨slot, rfl, hspaced, hreads, hv⟩ := h
  rw [isUtf8_slot_iff hspaced] at hutf8
  exact ⟨slot, rfl, hspaced, grammar_of_reads hreads hutf8, hv⟩

/-- `M.decode` comes to an end, and returns a value exactly where the text
denotes it. -/
def DecodesExactly (text : Text) : Prop :=
  (∃ result, decode text = some result) ∧
    ∀ v, decode text = some (.ok v) ↔ InLanguage text v

/-- The language is kept on every text of valid UTF-8 and every one that no
bytes of strings would make part of it, and on no other. -/
theorem decode_exactly_iff {text : Text} (hsize : text.length ≤ MAX_BYTES) :
    DecodesExactly text ↔ Utf8.IsUtf8 text ∨ ¬ ∃ v, ReadsWhole text v := by
  constructor
  · rintro ⟨-, hexact⟩
    by_cases htaken : ∃ v, ReadsWhole text v
    · obtain ⟨v, hv⟩ := htaken
      have hlanguage := (hexact v).mp ((decode_eq_ok_iff hsize).mpr hv)
      exact Or.inl (isUtf8_of_inLanguage hlanguage)
    · exact Or.inr htaken
  · intro hcase
    refine ⟨decode_ends text, fun v => ?_⟩
    rw [decode_eq_ok_iff hsize]
    constructor
    · intro hv
      rcases hcase with hutf8 | hnone
      · exact inLanguage_of_readsWhole hv hutf8
      · exact absurd ⟨v, hv⟩ hnone
    · exact readsWhole_of_inLanguage

/-- A string of one character of two bytes. -/
theorem decode_exactly_two_bytes : DecodesExactly [34, 0xc3, 0xa9, 34] :=
  (decode_exactly_iff (by decide)).mpr
    (Or.inl (Utf8.isUtf8_iff.mpr (by decide)))

/-- A string of the byte that no UTF-8 has is returned as it is. -/
theorem invalid_utf8_decoded :
    decode [34, 0xff, 34] = some (.ok (.str [0xff])) ∧
      ¬ ∃ v, InLanguage [34, 0xff, 34] v := by
  refine ⟨rfl, fun ⟨v, hv⟩ => ?_⟩
  have hutf8 := Utf8.isUtf8_iff.mp (isUtf8_of_inLanguage hv)
  revert hutf8
  decide

end Lua

end Displays

end CybexOS
