/-
`M.decode` reads every text of its language and always comes to an end.
-/
import CybexOS.Displays.LuaLanguage

namespace CybexOS

namespace Displays

open Json

namespace Lua

/-! ### Every text of the language is read -/

theorem IsNumeral.head {body : Text} {numeral : Numeral} (h : IsNumeral body numeral) :
    ∃ c tail, body = c :: tail ∧ (c = 45 ∨ isDigit c = true) := by
  cases h with
  | @mk neg whole fracText frac expText exp hwhole _ _ =>
      cases neg with
      | true => exact ⟨45, _, rfl, Or.inl rfl⟩
      | false =>
          obtain ⟨c, tail, hcons, hc⟩ := hwhole.1.head (fracText ++ expText)
          refine ⟨c, tail, ?_, Or.inr hc⟩
          simpa using hcons

theorem numberHead {c : ℕ} (h : c = 45 ∨ isDigit c = true) :
    Json.isSpace c = false ∧ c ≠ 93 ∧ c ≠ 125 ∧ c ≠ 34 ∧ c ≠ 91 ∧ c ≠ 123 := by
  rcases h with rfl | h
  · decide
  · simp only [isDigit, Bool.and_eq_true, decide_eq_true_eq] at h
    simp only [Json.isSpace, Bool.or_eq_false_iff, beq_eq_false_iff_ne]
    omega

/-- A value begins with neither space nor a closing bracket. -/
theorem Reads.head {left : ℕ} {body : Text} {v : LuaValue} (h : Reads left body v) :
    ∃ c tail, body = c :: tail ∧ Json.isSpace c = false ∧ c ≠ 93 ∧ c ≠ 125 := by
  cases h with
  | null => exact ⟨110, _, rfl, by decide⟩
  | bool depth value => cases value <;> exact ⟨_, _, rfl, by decide⟩
  | num depth h =>
      obtain ⟨c, tail, hcons, hc⟩ := IsNumeral.head h
      obtain ⟨hspace, hclose, hbrace, -⟩ := numberHead hc
      exact ⟨c, tail, hcons, hspace, hclose, hbrace⟩
  | str => exact ⟨34, _, rfl, by decide⟩
  | emptyArr | arr => exact ⟨91, _, rfl, by decide⟩
  | emptyObj | obj => exact ⟨123, _, rfl, by decide⟩

theorem Reads.skip {left : ℕ} {body : Text} {v : LuaValue} (h : Reads left body v)
    {before : Text} (hbefore : Space before) (rest : Text) :
    skipSpace (before ++ body ++ rest) = body ++ rest := by
  obtain ⟨c, tail, rfl, hc, -⟩ := h.head
  rw [List.append_assoc, hbefore.skip]
  exact skipSpace_cons hc _

theorem parseScalar_num {body rest : Text} {numeral : Numeral} {d : Double}
    (h : IsNumeral body numeral) (hd : toDouble numeral = some d) (hrest : EndsNumber rest) :
    parseScalar (body ++ rest) = .ok (.num d, rest) := by
  have hread := parseNumber_complete h hd hrest
  obtain ⟨c, tail, rfl, hc⟩ := IsNumeral.head h
  obtain ⟨-, -, -, hquote, -⟩ := numberHead hc
  rw [List.cons_append] at hread ⊢
  unfold parseScalar
  split
  · next inside heq => exact absurd (List.cons.inj heq).1 hquote
  · rw [if_pos ⟨c, rfl, hc⟩, hread]
    rfl

theorem parseScalar_str {body out : Text} (h : ByteString body out) (rest : Text) :
    parseScalar (34 :: body ++ [34] ++ rest) = .ok (.str out, rest) := by
  have hread := parseString_complete h rest
    (show body.length < (body ++ 34 :: rest).length + 1 by simp)
  have hcons : 34 :: body ++ [34] ++ rest = 34 :: (body ++ 34 :: rest) := by simp
  rw [hcons, parseScalar, hread]
  rfl

/-- A text for which so many containers may be open is read wherever it stands. -/
def ReadAnywhere (left : ℕ) (body : Text) (v : LuaValue) : Prop :=
  ∀ {depth fuel : ℕ} {before rest : Text}, depth + left = MAX_DEPTH → Space before →
    EndsNumber rest → 2 * body.length ≤ fuel →
      parseValue fuel depth (before ++ body ++ rest) = .ok (v, rest)

theorem parseItems_complete {left : ℕ} {slots : List (Slot Double)} (hne : slots ≠ [])
    (hspaced : ∀ slot ∈ slots, slot.Spaced)
    (hslots : ∀ slot ∈ slots, ReadAnywhere left slot.body slot.value) {depth : ℕ}
    (hdepth : depth + left = MAX_DEPTH) (rest : Text) {fuel : ℕ}
    (hfuel : 2 * (commas (slots.map Slot.text)).length + 1 ≤ fuel) :
    parseItems fuel depth (commas (slots.map Slot.text) ++ 93 :: rest) =
      .ok (slots.map Slot.value, rest) := by
  induction slots generalizing fuel with
  | nil => exact absurd rfl hne
  | cons slot slots ih =>
      obtain ⟨fuel, rfl⟩ : ∃ less, fuel = less + 1 := ⟨fuel - 1, by omega⟩
      rw [List.forall_mem_cons] at hspaced hslots
      obtain ⟨⟨hbefore, hafter⟩, hspaced⟩ := hspaced
      obtain ⟨hslot, hslots⟩ := hslots
      by_cases hlast : slots = []
      · subst hlast
        simp only [List.map_cons, List.map_nil, commas, Slot.text, List.length_append] at hfuel
        have hvalue := hslot hdepth hbefore (endsNumber_space hafter (Or.inr (Or.inl rfl)) rest)
          (show 2 * slot.body.length ≤ fuel by omega)
        have hshape : commas ([slot].map Slot.text) ++ 93 :: rest =
            slot.before ++ slot.body ++ (slot.after ++ 93 :: rest) := by
          simp [commas, Slot.text]
        rw [hshape, parseItems, hvalue, bind_eq_ok]
        refine ⟨_, rfl, ?_⟩
        dsimp only
        rw [hafter.skip, skipSpace_cons (by decide)]
        rfl
      · have hmore : slots.map Slot.text ≠ [] := by simpa using hlast
        rw [List.map_cons, commas_cons _ hmore, Slot.text] at hfuel ⊢
        simp only [List.length_append, List.length_cons] at hfuel
        have hvalue := hslot hdepth hbefore
          (endsNumber_space hafter (Or.inl rfl) (commas (slots.map Slot.text) ++ 93 :: rest))
          (show 2 * slot.body.length ≤ fuel by omega)
        have hrest := ih hlast hspaced hslots (show 2 * (commas (slots.map Slot.text)).length + 1 ≤
          fuel by omega)
        have hshape : slot.before ++ slot.body ++ slot.after ++
            44 :: commas (slots.map Slot.text) ++ 93 :: rest =
            slot.before ++ slot.body ++
              (slot.after ++ 44 :: (commas (slots.map Slot.text) ++ 93 :: rest)) := by
          simp
        rw [hshape, parseItems, hvalue, bind_eq_ok]
        refine ⟨_, rfl, ?_⟩
        dsimp only
        rw [hafter.skip, skipSpace_cons (by decide)]
        exact bind_eq_ok.mpr ⟨_, hrest, rfl⟩

theorem parseKey_complete {result : List (Text × LuaValue)} {before raw name after : Text}
    (hbefore : Space before) (hafter : Space after) (hstring : ByteString raw name)
    (hnew : name ∉ result.map Prod.fst) (rest : Text) :
    parseKey result (before ++ 34 :: raw ++ 34 :: after ++ 58 :: rest) = .ok (name, rest) := by
  have hread := parseString_complete hstring (after ++ 58 :: rest)
    (show raw.length < (raw ++ 34 :: (after ++ 58 :: rest)).length + 1 by
      rw [List.length_append]
      omega)
  have hshape : before ++ 34 :: raw ++ 34 :: after ++ 58 :: rest =
      before ++ 34 :: (raw ++ 34 :: (after ++ 58 :: rest)) := by simp
  rw [hshape, parseKey, hbefore.skip, skipSpace_cons (by decide)]
  split
  · next inside heq =>
    obtain rfl := (List.cons.inj heq).2
    rw [hread, bind_eq_ok]
    refine ⟨_, rfl, ?_⟩
    dsimp only
    rw [if_neg hnew, hafter.skip, skipSpace_cons (by decide)]
    rfl
  · next hother => exact absurd rfl (hother _)

theorem parseMembers_complete {left : ℕ} {members : List (Member Double)} (hne : members ≠ [])
    (hspaced : ∀ m ∈ members, m.Spaced) (hkeys : ∀ m ∈ members, ByteString m.key m.name)
    (hmembers : ∀ m ∈ members, ReadAnywhere left m.slot.body m.slot.value) {depth : ℕ}
    (hdepth : depth + left = MAX_DEPTH) {result : List (Text × LuaValue)}
    (hdistinct : (result.map Prod.fst ++ members.map Member.name).Nodup) (rest : Text)
    {fuel : ℕ} (hfuel : 2 * (commas (members.map Member.text)).length + 1 ≤ fuel) :
    parseMembers fuel depth result (commas (members.map Member.text) ++ 125 :: rest) =
      .ok (result ++ members.map (fun m => (m.name, m.slot.value)), rest) := by
  induction members generalizing fuel result with
  | nil => exact absurd rfl hne
  | cons m members ih =>
      obtain ⟨fuel, rfl⟩ : ∃ less, fuel = less + 1 := ⟨fuel - 1, by omega⟩
      rw [List.forall_mem_cons] at hspaced hmembers hkeys
      obtain ⟨⟨hbefore, hafter, hslotBefore, hslotAfter⟩, hspaced⟩ := hspaced
      obtain ⟨hm, hmembers⟩ := hmembers
      have hnew : m.name ∉ result.map Prod.fst := fun hmem => by
        rw [List.nodup_append] at hdistinct
        exact hdistinct.2.2 _ hmem _ (by simp) rfl
      have hdistinct' : ((result ++ [(m.name, m.slot.value)]).map Prod.fst ++
          members.map Member.name).Nodup := by
        simpa using hdistinct
      by_cases hlast : members = []
      · subst hlast
        have hshape : commas ([m].map Member.text) ++ 125 :: rest =
            m.before ++ 34 :: m.key ++ 34 :: m.after ++ 58 ::
              (m.slot.before ++ m.slot.body ++ (m.slot.after ++ 125 :: rest)) := by
          simp [commas, Member.text, Slot.text]
        have hlength := congrArg List.length hshape
        simp only [List.map_cons, List.map_nil, List.length_append, List.length_cons]
          at hlength hfuel
        have hvalue := hm hdepth hslotBefore
          (endsNumber_space hslotAfter (Or.inr (Or.inr rfl)) rest)
          (show 2 * m.slot.body.length ≤ fuel by omega)
        rw [hshape, parseMembers, parseKey_complete hbefore hafter hkeys.1 hnew, bind_eq_ok]
        refine ⟨_, rfl, ?_⟩
        dsimp only
        rw [hvalue, bind_eq_ok]
        refine ⟨_, rfl, ?_⟩
        dsimp only
        rw [hslotAfter.skip, skipSpace_cons (by decide)]
        rfl
      · have hmore : members.map Member.text ≠ [] := by simpa using hlast
        have hshape : commas ((m :: members).map Member.text) ++ 125 :: rest =
            m.before ++ 34 :: m.key ++ 34 :: m.after ++ 58 ::
              (m.slot.before ++ m.slot.body ++ (m.slot.after ++
                44 :: (commas (members.map Member.text) ++ 125 :: rest))) := by
          rw [List.map_cons, commas_cons _ hmore]
          simp [Member.text, Slot.text]
        have hlength := congrArg List.length hshape
        simp only [List.length_append, List.length_cons] at hlength
        have hvalue := hm hdepth hslotBefore
          (endsNumber_space hslotAfter (Or.inl rfl)
            (commas (members.map Member.text) ++ 125 :: rest))
          (show 2 * m.slot.body.length ≤ fuel by omega)
        have hrest := ih hlast hspaced hkeys.2 hmembers hdistinct'
          (show 2 * (commas (members.map Member.text)).length + 1 ≤ fuel by omega)
        rw [hshape, parseMembers, parseKey_complete hbefore hafter hkeys.1 hnew, bind_eq_ok]
        refine ⟨_, rfl, ?_⟩
        dsimp only
        rw [hvalue, bind_eq_ok]
        refine ⟨_, rfl, ?_⟩
        dsimp only
        rw [hslotAfter.skip, skipSpace_cons (by decide)]
        exact hrest.trans (by simp)

theorem parseValue_scalar {fuel depth : ℕ} {s scalar : Text} (h : skipSpace s = scalar)
    (hhead : ∀ c ∈ scalar.head?, c ≠ 91 ∧ c ≠ 123) :
    parseValue (fuel + 1) depth s = parseScalar scalar := by
  rw [parseValue, h]
  split
  · exact absurd rfl (hhead _ rfl).2
  · exact absurd rfl (hhead _ rfl).1
  · rfl

theorem parseValue_arr {fuel depth left : ℕ} {s rest : Text} (h : skipSpace s = 91 :: rest)
    (hdepth : depth + (left + 1) = MAX_DEPTH) :
    parseValue (fuel + 1) depth s = parseArray (parseItems fuel (depth + 1)) rest := by
  rw [parseValue, h]
  exact if_neg (by omega)

theorem parseValue_obj {fuel depth left : ℕ} {s rest : Text} (h : skipSpace s = 123 :: rest)
    (hdepth : depth + (left + 1) = MAX_DEPTH) :
    parseValue (fuel + 1) depth s = parseObject (parseMembers fuel (depth + 1) []) rest := by
  rw [parseValue, h]
  exact if_neg (by omega)

theorem parseArray_open {items : Text → Except Stop (List LuaValue × Text)} {s rest : Text}
    {values : List LuaValue} (hopen : ∀ after, skipSpace s ≠ 93 :: after)
    (h : items (skipSpace s) = .ok (values, rest)) :
    parseArray items s = .ok (.arr values, rest) := by
  unfold parseArray
  split
  · next after heq => exact absurd heq (hopen after)
  · exact bind_eq_ok.mpr ⟨_, h, rfl⟩

theorem parseObject_open {members : Text → Except Stop (List (Text × LuaValue) × Text)}
    {s rest : Text} {fields : List (Text × LuaValue)}
    (hopen : ∀ after, skipSpace s ≠ 125 :: after)
    (h : members (skipSpace s) = .ok (fields, rest)) :
    parseObject members s = .ok (.obj fields, rest) := by
  unfold parseObject
  split
  · next after heq => exact absurd heq (hopen after)
  · exact bind_eq_ok.mpr ⟨_, h, rfl⟩

theorem commas_head {text : Text} (texts : List Text) (rest : Text) :
    ∃ more, commas (text :: texts) ++ rest = text ++ more := by
  cases texts with
  | nil => exact ⟨rest, rfl⟩
  | cons next texts =>
      exact ⟨44 :: commas (next :: texts) ++ rest, by
        rw [commas_cons _ (List.cons_ne_nil _ _), List.append_assoc]⟩

theorem skipSpace_slots {left : ℕ} {slots : List (Slot Double)} (hne : slots ≠ [])
    (hspaced : ∀ slot ∈ slots, slot.Spaced)
    (hreads : ∀ slot ∈ slots, Reads left slot.body slot.value) (rest : Text) :
    ∀ after, skipSpace (commas (slots.map Slot.text) ++ rest) ≠ 93 :: after := by
  obtain ⟨slot, slots, rfl⟩ := List.exists_cons_of_ne_nil hne
  obtain ⟨hbefore, -⟩ := hspaced slot List.mem_cons_self
  obtain ⟨more, hmore⟩ := @commas_head slot.text (slots.map Slot.text) rest
  have hslot := hreads slot List.mem_cons_self
  obtain ⟨c, tail, hbody, -, hclose, -⟩ := hslot.head
  intro after heq
  rw [List.map_cons, hmore, Slot.text, List.append_assoc, hslot.skip hbefore, hbody] at heq
  exact hclose (List.cons.inj heq).1

theorem skipSpace_members {members : List (Member Double)} (hne : members ≠ [])
    (hspaced : ∀ m ∈ members, m.Spaced) (rest : Text) :
    ∀ after, skipSpace (commas (members.map Member.text) ++ rest) ≠ 125 :: after := by
  obtain ⟨m, members, rfl⟩ := List.exists_cons_of_ne_nil hne
  obtain ⟨hbefore, -⟩ := hspaced m List.mem_cons_self
  obtain ⟨more, hmore⟩ := @commas_head m.text (members.map Member.text) rest
  intro after heq
  rw [List.map_cons, hmore, Member.text] at heq
  simp only [List.append_assoc, List.cons_append] at heq
  rw [hbefore.skip, skipSpace_cons (by decide)] at heq
  cases (List.cons.inj heq).1

/-- Every text of the language is read, wherever it stands. -/
theorem Reads.readAnywhere {left : ℕ} {body : Text} {v : LuaValue} (h : Reads left body v) :
    ReadAnywhere left body v := by
  induction h with
  | null left =>
      intro depth fuel before rest _ hbefore _ hfuel
      obtain ⟨fuel, rfl⟩ : ∃ less, fuel = less + 1 := ⟨fuel - 1, by simp [ascii] at hfuel; omega⟩
      rw [parseValue_scalar (Reads.skip (.null left) hbefore rest) (by simp [ascii])]
      rfl
  | bool left value =>
      intro depth fuel before rest _ hbefore _ hfuel
      obtain ⟨fuel, rfl⟩ : ∃ less, fuel = less + 1 :=
        ⟨fuel - 1, by cases value <;> simp [ascii] at hfuel <;> omega⟩
      rw [parseValue_scalar (Reads.skip (.bool left value) hbefore rest)
        (by cases value <;> simp [ascii])]
      cases value <;> rfl
  | @num left body numeral d hnumeral hworth =>
      intro depth fuel before rest _ hbefore hrest hfuel
      obtain ⟨c, tail, hcons, hc⟩ := IsNumeral.head hnumeral
      obtain ⟨-, -, -, -, hbracket, hbrace⟩ := numberHead hc
      obtain ⟨fuel, rfl⟩ : ∃ less, fuel = less + 1 :=
        ⟨fuel - 1, by rw [hcons, List.length_cons] at hfuel; omega⟩
      rw [parseValue_scalar (Reads.skip (.num left hnumeral hworth) hbefore rest)]
      · exact parseScalar_num hnumeral hworth hrest
      · intro first hfirst
        rw [hcons, List.cons_append, List.head?_cons, Option.mem_some_iff] at hfirst
        exact hfirst ▸ ⟨hbracket, hbrace⟩
  | @str left body text hstring =>
      intro depth fuel before rest _ hbefore _ hfuel
      obtain ⟨fuel, rfl⟩ : ∃ less, fuel = less + 1 :=
        ⟨fuel - 1, by simp only [List.cons_append, List.length_cons] at hfuel; omega⟩
      rw [parseValue_scalar (Reads.skip (.str left hstring) hbefore rest) (by simp)]
      exact parseScalar_str hstring rest
  | @emptyArr left space hspace =>
      intro depth fuel before rest hdepth hbefore _ hfuel
      obtain ⟨fuel, rfl⟩ : ∃ less, fuel = less + 1 :=
        ⟨fuel - 1, by simp only [List.cons_append, List.length_cons] at hfuel; omega⟩
      have hskip := Reads.skip (.emptyArr left hspace) hbefore rest
      simp only [List.cons_append, List.append_assoc, List.nil_append] at hskip ⊢
      rw [parseValue_arr hskip hdepth, parseArray, hspace.skip, skipSpace_cons (by decide)]
      rfl
  | @arr left slots hne hspaced hreads ih =>
      intro depth fuel before rest hdepth hbefore _ hfuel
      have hskip := Reads.skip (.arr hne hspaced hreads) hbefore rest
      simp only [List.cons_append, List.length_cons, List.length_append, List.length_nil] at hfuel
      obtain ⟨fuel, rfl⟩ : ∃ less, fuel = less + 1 := ⟨fuel - 1, by omega⟩
      simp only [List.cons_append, List.append_assoc, List.nil_append] at hskip ⊢
      rw [parseValue_arr hskip hdepth]
      refine parseArray_open (skipSpace_slots hne hspaced hreads _) ?_
      rw [parseItems_skip]
      exact parseItems_complete hne hspaced ih (by omega) rest (by omega)
  | @emptyObj left space hspace =>
      intro depth fuel before rest hdepth hbefore _ hfuel
      obtain ⟨fuel, rfl⟩ : ∃ less, fuel = less + 1 :=
        ⟨fuel - 1, by simp only [List.cons_append, List.length_cons] at hfuel; omega⟩
      have hskip := Reads.skip (.emptyObj left hspace) hbefore rest
      simp only [List.cons_append, List.append_assoc, List.nil_append] at hskip ⊢
      rw [parseValue_obj hskip hdepth, parseObject, hspace.skip, skipSpace_cons (by decide)]
      rfl
  | @obj left members hne hspaced hkeys hdistinct hreads ih =>
      intro depth fuel before rest hdepth hbefore _ hfuel
      have hskip := Reads.skip (.obj hne hspaced hkeys hdistinct hreads) hbefore rest
      simp only [List.cons_append, List.length_cons, List.length_append, List.length_nil] at hfuel
      obtain ⟨fuel, rfl⟩ : ∃ less, fuel = less + 1 := ⟨fuel - 1, by omega⟩
      simp only [List.cons_append, List.append_assoc, List.nil_append] at hskip ⊢
      rw [parseValue_obj hskip hdepth]
      refine parseObject_open (skipSpace_members hne hspaced _) ?_
      rw [parseMembers_skip]
      exact parseMembers_complete hne hspaced hkeys ih (by omega)
        (show (([] : List (Text × LuaValue)).map Prod.fst ++ members.map Member.name).Nodup from
          hdistinct) rest (by omega)

/-! ### Reading comes to an end -/

theorem parseScalar_ends (s : Text) : parseScalar s ≠ .error .exhausted := by
  intro h
  unfold parseScalar at h
  split at h
  · rw [bind_eq_error] at h
    rcases h with h | ⟨_, _, h⟩
    · exact parseString_ends (Nat.lt_succ_self _) h
    · cases h
  · split at h
    · rw [bind_eq_error] at h
      rcases h with h | ⟨_, _, h⟩
      · exact parseNumber_ends _ h
      · cases h
    · split at h
      · cases h
      · split at h
        · cases h
        · split at h <;> cases h

theorem parseKey_ends (result : List (Text × LuaValue)) (s : Text) :
    parseKey result s ≠ .error .exhausted := by
  intro h
  unfold parseKey at h
  split at h
  · rw [bind_eq_error] at h
    rcases h with h | ⟨⟨name, rest⟩, _, h⟩
    · exact parseString_ends (Nat.lt_succ_self _) h
    · dsimp only at h
      split at h
      · cases h
      · split at h <;> cases h
  · cases h

theorem parseArray_ends {items : Text → Except Stop (List LuaValue × Text)} {s : Text}
    (h : items (skipSpace s) ≠ .error .exhausted) : parseArray items s ≠ .error .exhausted := by
  intro hread
  unfold parseArray at hread
  split at hread
  · cases hread
  · rw [bind_eq_error] at hread
    rcases hread with hread | ⟨_, _, hread⟩
    · exact h hread
    · cases hread

theorem parseObject_ends {members : Text → Except Stop (List (Text × LuaValue) × Text)}
    {s : Text} (h : members (skipSpace s) ≠ .error .exhausted) :
    parseObject members s ≠ .error .exhausted := by
  intro hread
  unfold parseObject at hread
  split at hread
  · cases hread
  · rw [bind_eq_error] at hread
    rcases hread with hread | ⟨_, _, hread⟩
    · exact h hread
    · cases hread

theorem parseValue_consumes {fuel depth : ℕ} {s rest : Text} {v : LuaValue}
    (hdepth : depth ≤ MAX_DEPTH) (h : parseValue fuel depth s = .ok (v, rest)) :
    rest.length < s.length := by
  obtain ⟨before, body, -, rfl, hbody⟩ :=
    (sound fuel).value (Nat.add_sub_of_le hdepth) h
  obtain ⟨c, tail, rfl, -⟩ := hbody.head
  simp only [List.length_append, List.length_cons]
  omega

/-- Twice the bytes that are left, and a little, is rounds enough. -/
structure Ends (fuel : ℕ) : Prop where
  value : ∀ {depth : ℕ} {s : Text}, depth ≤ MAX_DEPTH → 2 * s.length + 1 ≤ fuel →
    parseValue fuel depth s ≠ .error .exhausted
  items : ∀ {depth : ℕ} {s : Text}, depth ≤ MAX_DEPTH → 2 * s.length + 2 ≤ fuel →
    parseItems fuel depth s ≠ .error .exhausted
  members : ∀ {depth : ℕ} {result : List (Text × LuaValue)} {s : Text}, depth ≤ MAX_DEPTH →
    2 * s.length + 2 ≤ fuel → parseMembers fuel depth result s ≠ .error .exhausted

theorem Ends.succ_value {fuel : ℕ} (h : Ends fuel) {depth : ℕ} {s : Text}
    (_ : depth ≤ MAX_DEPTH) (hfuel : 2 * s.length + 1 ≤ fuel + 1) :
    parseValue (fuel + 1) depth s ≠ .error .exhausted := by
  have hskip := skipSpace_length_le s
  rw [parseValue]
  split
  · next rest hopen =>
    rw [hopen, List.length_cons] at hskip
    have hinner := skipSpace_length_le rest
    split
    · simp [fail]
    · exact parseObject_ends (h.members (by omega) (by omega))
  · next rest hopen =>
    rw [hopen, List.length_cons] at hskip
    have hinner := skipSpace_length_le rest
    split
    · simp [fail]
    · exact parseArray_ends (h.items (by omega) (by omega))
  · exact parseScalar_ends _

theorem Ends.succ_items {fuel : ℕ} (h : Ends fuel) {depth : ℕ} {s : Text}
    (hdepth : depth ≤ MAX_DEPTH) (hfuel : 2 * s.length + 2 ≤ fuel + 1) :
    parseItems (fuel + 1) depth s ≠ .error .exhausted := by
  intro hread
  rw [parseItems, bind_eq_error] at hread
  rcases hread with hread | ⟨⟨value, rest⟩, hvalue, hread⟩
  · exact h.value hdepth (by omega) hread
  · have hconsumes := parseValue_consumes hdepth hvalue
    have hskip := skipSpace_length_le rest
    dsimp only at hread
    split at hread
    · cases hread
    · next after hcomma =>
      rw [hcomma, List.length_cons] at hskip
      rw [bind_eq_error] at hread
      rcases hread with hread | ⟨_, _, hread⟩
      · exact h.items hdepth (by omega) hread
      · cases hread
    · cases hread

theorem Ends.succ_members {fuel : ℕ} (h : Ends fuel) {depth : ℕ}
    {result : List (Text × LuaValue)} {s : Text} (hdepth : depth ≤ MAX_DEPTH)
    (hfuel : 2 * s.length + 2 ≤ fuel + 1) :
    parseMembers (fuel + 1) depth result s ≠ .error .exhausted := by
  intro hread
  rw [parseMembers, bind_eq_error] at hread
  rcases hread with hread | ⟨⟨name, start⟩, hkey, hread⟩
  · exact parseKey_ends result s hread
  · obtain ⟨before, key, after, -, -, -, -, rfl⟩ := parseKey_sound hkey
    simp only [List.length_append, List.length_cons] at hfuel
    rw [bind_eq_error] at hread
    rcases hread with hread | ⟨⟨value, rest⟩, hvalue, hread⟩
    · exact h.value hdepth (by omega) hread
    · have hconsumes := parseValue_consumes hdepth hvalue
      have hskip := skipSpace_length_le rest
      dsimp only at hread hconsumes
      split at hread
      · cases hread
      · next more hcomma =>
        rw [hcomma, List.length_cons] at hskip
        exact h.members hdepth (by omega) hread
      · cases hread

theorem ends (fuel : ℕ) : Ends fuel := by
  induction fuel with
  | zero => exact ⟨fun _ h => by omega, fun _ h => by omega, fun _ h => by omega⟩
  | succ fuel ih => exact ⟨ih.succ_value, ih.succ_items, ih.succ_members⟩

/-! ### Documents -/

/-- The texts that are taken: the strings of the language may hold any bytes. -/
abbrev ReadsWhole (text : Text) (v : LuaValue) : Prop :=
  DenotesWhole ByteString toDouble MAX_DEPTH text v

theorem parseDocument_sound {fuel : ℕ} {text : Text} {v : LuaValue}
    (h : parseDocument fuel text = .ok v) : ReadsWhole text v := by
  rw [parseDocument, bind_eq_ok] at h
  obtain ⟨⟨value, rest⟩, hvalue, h⟩ := h
  obtain ⟨slot, hspaced, hreads, hslot, htext⟩ := (sound fuel).slot (Nat.zero_add _) hvalue
  dsimp only at h
  split at h
  · next hend =>
    rw [pure_eq_ok] at h
    rw [hend, List.append_nil] at htext
    exact ⟨slot, htext, hspaced, hreads, hslot.trans h⟩
  · cases h

theorem parseDocument_complete {text : Text} {v : LuaValue} (h : ReadsWhole text v) {fuel : ℕ}
    (hfuel : 2 * text.length ≤ fuel) : parseDocument fuel text = .ok v := by
  obtain ⟨slot, rfl, ⟨hbefore, hafter⟩, hreads, rfl⟩ := h
  rw [Slot.text, List.length_append, List.length_append] at hfuel
  have hread := @Reads.readAnywhere _ _ _ hreads 0 fuel _ _ (Nat.zero_add _) hbefore
    (endsNumber_end hafter) (by omega)
  rw [parseDocument, Slot.text, hread, bind_eq_ok]
  refine ⟨_, rfl, ?_⟩
  dsimp only
  rw [skipSpace_space hafter]
  rfl

theorem parseDocument_ends {fuel : ℕ} {text : Text} (hfuel : 2 * text.length + 1 ≤ fuel) :
    parseDocument fuel text ≠ .error .exhausted := by
  intro h
  rw [parseDocument, bind_eq_error] at h
  rcases h with h | ⟨⟨value, rest⟩, _, h⟩
  · exact (ends fuel).value (Nat.zero_le _) hfuel h
  · dsimp only at h
    split at h <;> cases h

/-- Within the size limit, a value is returned for exactly these texts. -/
theorem decode_eq_ok_iff {text : Text} (hsize : text.length ≤ MAX_BYTES) {v : LuaValue} :
    decode text = some (.ok v) ↔ ReadsWhole text v := by
  rw [decode, if_neg (Nat.not_lt.mpr hsize)]
  constructor
  · intro h
    split at h
    · next value hread =>
      rw [Option.some.injEq, Except.ok.injEq] at h
      exact h ▸ parseDocument_sound hread
    · cases h
    · cases h
  · intro h
    rw [parseDocument_complete h (show 2 * text.length ≤ fuelFor text by
      unfold fuelFor
      omega)]

theorem decode_ends (text : Text) : ∃ result, decode text = some result := by
  rw [decode]
  split
  · exact ⟨_, rfl⟩
  · split
    · exact ⟨_, rfl⟩
    · exact ⟨_, rfl⟩
    · next h =>
      exact absurd h (parseDocument_ends (show 2 * text.length + 1 ≤ fuelFor text by
        unfold fuelFor
        omega))

end Lua

end Displays

end CybexOS
