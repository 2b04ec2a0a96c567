/-
Which of the saved rules decides for a connected output: the Displays page
stores its choice under one key, `displays.lua` emits every matching entry in
key order, and Hyprland applies the last.
-/
import CybexOS.Displays.SavedDocument
import CybexOS.Utf8

namespace CybexOS

namespace Displays

open Json

/-! ### The rules as Lua sees them -/

/-- The bytes of a text in the file. -/
def utf8 (s : Text) : Text := s.flatMap Utf8.encodeChar

def Monitor.utf8 (monitor : Monitor) : Monitor :=
  ⟨Displays.utf8 monitor.name, Displays.utf8 monitor.description⟩

/-- The keys of a document in the order `M.validate` returns its entries. -/
def ruleKeys (document : JsValue) : List Text :=
  ((keysOf (storedMonitors document)).map utf8).insertionSort (· ≤ ·)

/-- The key of the rule that Hyprland applies. -/
def lastRule (document : JsValue) (monitor : Monitor) : Option Text :=
  ((ruleKeys document).filter fun key => Lua.monitorMatches key monitor.utf8).getLast?

theorem getLast?_filter_sorted {keys : List Text} {p : Text → Bool} {key : Text} :
    ((keys.insertionSort (· ≤ ·)).filter p).getLast? = some key ↔
      (key ∈ keys ∧ p key = true) ∧ ∀ other ∈ keys, p other = true → other ≤ key := by
  have hmem : ∀ other, other ∈ (keys.insertionSort (· ≤ ·)).filter p ↔
      other ∈ keys ∧ p other = true := by
    intro other
    rw [List.mem_filter, List.mem_insertionSort]
  have hsorted : ((keys.insertionSort (· ≤ ·)).filter p).Pairwise (· ≤ ·) :=
    (List.pairwise_insertionSort (· ≤ ·) keys).filter p
  have hle : ∀ {last}, ((keys.insertionSort (· ≤ ·)).filter p).getLast? = some last →
      ∀ other ∈ keys, p other = true → other ≤ last := by
    intro last hlast other hother hp
    have hne := List.ne_nil_of_mem ((hmem other).mpr ⟨hother, hp⟩)
    rw [List.getLast?_eq_getLast_of_ne_nil hne, Option.some.injEq] at hlast
    rw [← hlast]
    exact hsorted.rel_getLast ((hmem other).mpr ⟨hother, hp⟩)
  constructor
  · intro hlast
    exact ⟨(hmem key).mp (List.mem_of_getLast? hlast), hle hlast⟩
  · rintro ⟨hkey, hmax⟩
    have hne := List.ne_nil_of_mem ((hmem key).mpr hkey)
    have hlast := List.getLast?_eq_getLast_of_ne_nil hne
    rw [hlast, Option.some.injEq]
    obtain ⟨hin, hp⟩ := (hmem _).mp (List.mem_of_getLast? hlast)
    exact le_antisymm (hmax _ hin hp) (hle hlast key hkey.1 hkey.2)

/-! ### Drafts of a snapshot -/

/-- Drafts made from these outputs, whatever the page has edited since: keys,
names and descriptions stay. -/
def Identified (monitors : List Monitor) (drafts : List Draft) : Prop :=
  drafts.map (fun draft => (draft.key, draft.name, draft.description)) =
    monitors.map fun monitor =>
      (monitorKey monitor monitors, monitor.name, monitor.description)

theorem Identified.monitor {monitors : List Monitor} {drafts : List Draft}
    (h : Identified monitors drafts) {draft : Draft} (hdraft : draft ∈ drafts) :
    ∃ monitor ∈ monitors, draft.key = monitorKey monitor monitors ∧
      draft.name = monitor.name ∧ draft.description = monitor.description := by
  have hmem := List.mem_map_of_mem
    (f := fun draft => (draft.key, draft.name, draft.description)) hdraft
  rw [h] at hmem
  obtain ⟨monitor, hmonitor, heq⟩ := List.mem_map.mp hmem
  simp only [Prod.mk.injEq] at heq
  exact ⟨monitor, hmonitor, heq.1.symm, heq.2.1.symm, heq.2.2.symm⟩

theorem Identified.draft {monitors : List Monitor} {drafts : List Draft}
    (h : Identified monitors drafts) {monitor : Monitor} (hmonitor : monitor ∈ monitors) :
    ∃ draft ∈ drafts, draft.key = monitorKey monitor monitors ∧
      draft.name = monitor.name ∧ draft.description = monitor.description := by
  have hmem := List.mem_map_of_mem (f := fun monitor =>
    (monitorKey monitor monitors, monitor.name, monitor.description)) hmonitor
  rw [← h] at hmem
  obtain ⟨draft, hdraft, heq⟩ := List.mem_map.mp hmem
  simp only [Prod.mk.injEq] at heq
  exact ⟨draft, hdraft, heq⟩

theorem Identified.names {monitors : List Monitor} {drafts : List Draft}
    (h : Identified monitors drafts) :
    drafts.map Draft.name = monitors.map Monitor.name := by
  have hmap := congrArg (List.map fun triple : Text × Text × Text => triple.2.1) h
  rwa [List.map_map, List.map_map] at hmap

theorem startsWith_self (text : Text) : startsWith text text = true :=
  List.isPrefixOf_iff_prefix.mpr (List.prefix_refl _)

/-- An output keyed by its description shares that with no other output. -/
theorem not_clashes_of_keyed {monitor : Monitor} {monitors : List Monitor}
    (h : monitorKey monitor monitors ≠ monitor.name) :
    clashes monitor monitors = false ∧ jsTrim monitor.description ≠ [] := by
  unfold monitorKey at h
  dsimp only at h
  split at h
  · next hkeyed => exact ⟨by simpa using hkeyed.2.2.2, hkeyed.1⟩
  · exact absurd rfl h

theorem monitorKey_cases (monitor : Monitor) (monitors : List Monitor) :
    monitorKey monitor monitors = monitor.name ∨
      monitorKey monitor monitors = ascii "desc:" ++ jsTrim monitor.description := by
  unfold monitorKey
  dsimp only
  split
  · exact Or.inr rfl
  · exact Or.inl rfl

theorem isDesc_append (description : Text) :
    Lua.isDesc (ascii "desc:" ++ description) = true := by
  simp [Lua.isDesc, Lua.descPrefix, ascii]

theorem Identified.unambiguous {monitors : List Monitor} {drafts : List Draft}
    (h : Identified monitors drafts) (hdistinct : (monitors.map Monitor.name).Nodup) :
    Unambiguous drafts := by
  refine ⟨by rw [h.names]; exact hdistinct, fun draft hdraft => ?_, ?_⟩
  · obtain ⟨monitor, -, hkey, hname, -⟩ := h.monitor hdraft
    rw [hkey, hname]
    rcases monitorKey_cases monitor monitors with hcase | hcase
    · exact Or.inl hcase
    · rw [hcase]
      exact Or.inr (isDesc_append _)
  · intro draft hdraft other hother hnames hkeyed hmoves
    obtain ⟨monitor, -, hkey, hname, hdescription⟩ := h.monitor hdraft
    obtain ⟨source, hsource, hkey', hname', hdescription'⟩ := h.monitor hother
    have hdesc : monitorKey source monitors ≠ source.name := by
      rw [← hkey', hkeyed, ← hname']
      exact hnames.symm
    have hown := (not_clashes_of_keyed hdesc).2
    rw [hkey, hname] at hmoves
    have hclash := (not_clashes_of_keyed hmoves).1
    rw [hdescription, hdescription']
    constructor
    · intro hnil
      rw [hnil] at hown
      exact hown rfl
    · intro hsame
      have : clashes monitor monitors = true := by
        refine List.any_eq_true.mpr ⟨source, hsource, ?_⟩
        rw [hsame, startsWith_self, Bool.and_true, bne_iff_ne, ← hname, ← hname']
        exact hnames
      rw [hclash] at this
      cases this

/-! ### The saved document -/

theorem storable_fields {fields : Fields} (h : Storable (.obj fields)) :
    (keysOf fields).Nodup ∧ ∀ field ∈ fields, Storable field.2 := by
  cases h with
  | obj fields hordered hall => exact ⟨hordered.1, hall⟩

theorem storedMonitors_nodup {document : JsValue} (h : Storable document) :
    (keysOf (storedMonitors document)).Nodup := by
  unfold storedMonitors
  cases hfield : document.field? (ascii "monitors") with
  | none => exact List.nodup_nil
  | some value =>
      cases document with
      | obj fields =>
          obtain ⟨hnodup, hall⟩ := storable_fields h
          have hvalue := hall _ ((lookup_eq_some_iff_mem hnodup).mp hfield)
          cases value with
          | obj inner => exact (storable_fields hvalue).1
          | _ => exact List.nodup_nil
      | _ => cases hfield

theorem clone_storable {value : JsValue} (h : Storable value) : clone value = value := by
  have hread := jsonParse_jsonStringify h (show ([] : Text).all isSpace = true from rfl)
  rw [List.append_nil] at hread
  rw [clone, hread]
  rfl

/-- The entries of the built document: the drafts stored over the previous
ones. -/
theorem storedMonitors_buildDocument {previous : JsValue} (h : Storable previous)
    (drafts : List Draft) :
    storedMonitors (buildDocument previous drafts) =
      drafts.foldl (storeDraft (enabledKeys drafts)) (storedMonitors previous) := by
  have hassign : ∀ (fields : Fields) (key : String), ascii key ≠ PROTO →
      Assignable fields (ascii key) := fun fields key hne heq => absurd heq hne
  have hread : ∀ {fields : Fields} (hnodup : (keysOf fields).Nodup) (inner : Fields),
      storedMonitors (.obj (setOwn fields (ascii "monitors") (.obj inner))) = inner := by
    intro fields hnodup inner
    rw [storedMonitors, Value.field?,
      lookup_setOwn hnodup (hassign _ _ (by decide)), if_pos rfl]
    rfl
  have hversion : ∀ {fields : Fields} (hnodup : (keysOf fields).Nodup),
      storedMonitors (.obj (setOwn fields (ascii "v") (numberValue 1))) =
        storedMonitors (.obj fields) := by
    intro fields hnodup
    rw [storedMonitors, Value.field?, lookup_setOwn hnodup (hassign _ _ (by decide)),
      if_neg (by decide)]
    rfl
  cases previous with
  | obj fields =>
      have hnodup := (storable_fields h).1
      simp only [buildDocument, objectFields?, clone_storable h, Option.elim_some,
        Option.getD_some]
      rw [hread (setOwn_nodup hnodup _ _), hversion hnodup]
  | _ =>
      have hnodup : (keysOf []).Nodup := List.nodup_nil
      simp only [buildDocument, objectFields?, Option.elim_none]
      rw [hread (setOwn_nodup hnodup _ _), hversion hnodup]
      rfl

/-! ### The condition -/

/-- The previous entry under this key moves to the identity of an output. -/
def MovesTo (previous : Fields) (monitors : List Monitor) (key : Text) : Prop :=
  ∃ monitor ∈ monitors, monitor.name = key ∧ monitorKey monitor monitors ≠ key ∧
    (connectorEntry previous key monitor.description).isSome = true

/-- The rule under an output's own key matches it, and no other rule that does
sorts after it: neither a previous entry that stays nor another output's. -/
structure OwnRuleLast (previous : Fields) (monitors : List Monitor)
    (monitor : Monitor) : Prop where
  assignable : Assignable previous (monitorKey monitor monitors)
  own : Lua.monitorMatches (utf8 (monitorKey monitor monitors)) monitor.utf8 = true
  earlier : ∀ key ∈ keysOf previous, ¬ MovesTo previous monitors key →
    Lua.monitorMatches (utf8 key) monitor.utf8 = true →
      utf8 key ≤ utf8 (monitorKey monitor monitors)
  others : ∀ other ∈ monitors, Assignable previous (monitorKey other monitors) →
    Lua.monitorMatches (utf8 (monitorKey other monitors)) monitor.utf8 = true →
      utf8 (monitorKey other monitors) ≤ utf8 (monitorKey monitor monitors)

theorem Identified.moved_iff {monitors : List Monitor} {drafts : List Draft}
    (h : Identified monitors drafts) (previous : Fields) (key : Text) :
    Moved previous drafts key ↔ MovesTo previous monitors key := by
  constructor
  · rintro ⟨draft, hdraft, hname, hkey, hsome⟩
    obtain ⟨monitor, hmonitor, hkey', hname', hdescription⟩ := h.monitor hdraft
    rw [hkey'] at hkey
    rw [hdescription] at hsome
    exact ⟨monitor, hmonitor, hname'.symm.trans hname, hkey, hsome⟩
  · rintro ⟨monitor, hmonitor, hname, hkey, hsome⟩
    obtain ⟨draft, hdraft, hkey', hname', hdescription⟩ := h.draft hmonitor
    rw [← hkey'] at hkey
    rw [← hdescription] at hsome
    exact ⟨draft, hdraft, hname'.trans hname, hkey, hsome⟩

theorem Identified.stored_iff {monitors : List Monitor} {drafts : List Draft}
    (h : Identified monitors drafts) (previous : Fields) (key : Text) :
    StoredUnder previous drafts key ↔
      (∃ monitor ∈ monitors, monitorKey monitor monitors = key) ∧
        Assignable previous key := by
  refine and_congr_left' ⟨?_, ?_⟩
  · rintro ⟨draft, hdraft, hkey⟩
    obtain ⟨monitor, hmonitor, hkey', -⟩ := h.monitor hdraft
    exact ⟨monitor, hmonitor, hkey'.symm.trans hkey⟩
  · rintro ⟨monitor, hmonitor, hkey⟩
    obtain ⟨draft, hdraft, hkey', -⟩ := h.draft hmonitor
    exact ⟨draft, hdraft, hkey'.trans hkey⟩

/-- The bytes of ASCII text determine it. -/
theorem eq_of_utf8_eq {s t : Text} (ht : ∀ c ∈ t, c < 128)
    (h : utf8 s = utf8 t) : s = t := by
  have hascii : utf8 t = t := by
    clear h
    induction t with
    | nil => rfl
    | cons c t ih =>
        rw [List.forall_mem_cons] at ht
        rw [utf8, List.flatMap_cons, ← utf8, ih ht.2, Utf8.encodeChar, if_pos ht.1]
        rfl
  rw [hascii] at h
  clear hascii
  induction s generalizing t with
  | nil => exact h
  | cons c s ih =>
      rw [utf8, List.flatMap_cons, ← utf8] at h
      by_cases hc : c < 128
      · rw [Utf8.encodeChar, if_pos hc] at h
        obtain ⟨d, t, rfl⟩ : ∃ d rest, t = d :: rest := ⟨c, utf8 s, h.symm⟩
        rw [List.forall_mem_cons] at ht
        obtain ⟨rfl, htail⟩ := List.cons.inj h
        rw [ih ht.2 htail]
      · exfalso
        have hhead : ∃ b ∈ Utf8.encodeChar c, 128 ≤ b := by
          unfold Utf8.encodeChar
          rw [if_neg hc]
          split
          · exact ⟨0xc0 + c / 64, by simp, by omega⟩
          · split
            · exact ⟨0xe0 + c / 4096, by simp, by omega⟩
            · exact ⟨0xf0 + c / 262144, by simp, by omega⟩
        obtain ⟨b, hb, hle⟩ := hhead
        have hlt := ht b (h ▸ List.mem_append_left _ hb)
        omega

section

variable {monitors : List Monitor} (hdistinct : (monitors.map Monitor.name).Nodup)
  {previous : JsValue} (hprevious : Storable previous) {drafts : List Draft}
  (hdrafts : Identified monitors drafts)

include hdistinct hprevious hdrafts

theorem mem_ruleKeys_iff (key : Text) :
    key ∈ keysOf (storedMonitors (buildDocument previous drafts)) ↔
      ((∃ monitor ∈ monitors, monitorKey monitor monitors = key) ∧
        Assignable (storedMonitors previous) key) ∨
      key ∈ keysOf (storedMonitors previous) ∧
        ¬ MovesTo (storedMonitors previous) monitors key := by
  have hstores := stores_foldl (storedMonitors_nodup hprevious)
    (hdrafts.unambiguous hdistinct) (enabledKeys drafts)
  rw [storedMonitors_buildDocument hprevious, hstores.mem_keys_iff,
    hdrafts.stored_iff, hdrafts.moved_iff]

/-- For each output the rule under its own key is the last to match, exactly
when no other rule that stays or is stored sorts after it. -/
theorem lastRule_eq_own_iff :
    (∀ monitor ∈ monitors, lastRule (buildDocument previous drafts) monitor =
      some (utf8 (monitorKey monitor monitors))) ↔
    ∀ monitor ∈ monitors, OwnRuleLast (storedMonitors previous) monitors monitor := by
  have hkeys := mem_ruleKeys_iff hdistinct hprevious hdrafts
  refine forall₂_congr fun monitor hmonitor => ?_
  rw [lastRule, ruleKeys, getLast?_filter_sorted]
  constructor
  · rintro ⟨⟨hmem, hown⟩, hlast⟩
    have hle : ∀ key ∈ keysOf (storedMonitors (buildDocument previous drafts)),
        Lua.monitorMatches (utf8 key) monitor.utf8 = true →
          utf8 key ≤ utf8 (monitorKey monitor monitors) :=
      fun key hkey => hlast _ (List.mem_map_of_mem hkey)
    refine ⟨fun hproto => ?_, hown, fun key hkey hstays => ?_,
      fun other hother hassign => ?_⟩
    · -- the key is stored, and nothing but itself has its bytes
      rw [hproto] at hmem
      obtain ⟨key, hkey, hbytes⟩ := List.mem_map.mp hmem
      obtain rfl : key = PROTO := eq_of_utf8_eq (by decide) hbytes
      rcases (hkeys PROTO).mp hkey with ⟨-, hassign⟩ | ⟨hold, -⟩
      · exact hassign rfl
      · exact hold
    · exact hle key ((hkeys key).mpr (Or.inr ⟨hkey, hstays⟩))
    · exact hle _ ((hkeys _).mpr (Or.inl ⟨⟨other, hother, rfl⟩, hassign⟩))
  · intro h
    refine ⟨⟨List.mem_map_of_mem ((hkeys _).mpr
      (Or.inl ⟨⟨monitor, hmonitor, rfl⟩, h.assignable⟩)), h.own⟩, ?_⟩
    intro other hother hmatch
    obtain ⟨key, hkey, rfl⟩ := List.mem_map.mp hother
    rcases (hkeys key).mp hkey with ⟨⟨source, hsource, rfl⟩, hassign⟩ | ⟨hold, hstays⟩
    · exact h.others source hsource hassign hmatch
    · exact h.earlier key hold hstays hmatch

end

/-! ### A rule that is overridden -/

def builtIn : Monitor := ⟨ascii "eDP-1", ascii "LG Display 0x0658"⟩

def builtInDrafts : List Draft :=
  [{ key := monitorKey builtIn [builtIn], name := builtIn.name,
     description := builtIn.description }]

/-- A document whose only entry, under the connector's name, records this
description. -/
def recordedAs (description : Text) : JsValue :=
  .obj [(ascii "v", numberValue 1), (ascii "monitors", .obj
    [(builtIn.name, .obj [(ascii "description", .str description)])])]

theorem recordedAs_storable (description : Text) : Storable (recordedAs description) := by
  have hone : numberValue 1 = .num (.fin (Double.ofInt 1 (by norm_num))) :=
    congrArg Value.num (Number.ofRat_double (Double.ofInt 1 (by norm_num)))
  have hname : ∀ key ∈ [ascii "v", ascii "monitors", builtIn.name,
      ascii "description"], isArrayIndex key = false := by decide
  simp only [List.forall_mem_cons] at hname
  rw [recordedAs, hone]
  refine .obj _ (ownOrdered_of_names (by simp [ascii]) (by simp [hname]))
    fun field hfield => ?_
  simp only [List.mem_cons, List.not_mem_nil, or_false] at hfield
  rcases hfield with rfl | rfl
  · exact .num _
  · refine .obj _ (ownOrdered_of_names (by simp) (by simp [hname])) fun field hfield => ?_
    rw [List.mem_singleton.mp hfield]
    refine .obj _ (ownOrdered_of_names (by simp) (by simp [hname])) fun field hfield => ?_
    rw [List.mem_singleton.mp hfield]
    exact .str description

theorem builtIn_identified : Identified [builtIn] builtInDrafts := rfl

/-- An entry kept for other hardware on the built-in connector sorts last. -/
theorem lastRule_overridden : ¬ ∀ (monitors : List Monitor) (previous : JsValue)
    (drafts : List Draft), (monitors.map Monitor.name).Nodup → Storable previous →
      Identified monitors drafts → ∀ monitor ∈ monitors,
        lastRule (buildDocument previous drafts) monitor =
          some (utf8 (monitorKey monitor monitors)) := by
  intro h
  have hlast := h [builtIn] (recordedAs (ascii "Projector")) builtInDrafts
    (by simp) (recordedAs_storable _) builtIn_identified builtIn (by simp)
  revert hlast
  decide +kernel

/-- The same entry recorded for this output moves to its identity. -/
theorem lastRule_eq_own_moved :
    lastRule (buildDocument (recordedAs builtIn.description) builtInDrafts) builtIn =
      some (utf8 (monitorKey builtIn [builtIn])) := by
  refine (lastRule_eq_own_iff (by simp) (recordedAs_storable _) builtIn_identified).mpr ?_
    builtIn (List.mem_singleton_self builtIn)
  intro monitor hmonitor
  obtain rfl := List.mem_singleton.mp hmonitor
  refine ⟨fun hproto => absurd hproto (by decide +kernel), by decide +kernel,
    fun key hkey hstays => ?_, fun other hother _ _ => ?_⟩
  · have hmoves : ∀ key ∈ keysOf (storedMonitors (recordedAs builtIn.description)),
        builtIn.name = key ∧ monitorKey builtIn [builtIn] ≠ key ∧
          (connectorEntry (storedMonitors (recordedAs builtIn.description)) key
            builtIn.description).isSome = true := by
      decide +kernel
    exact absurd ⟨builtIn, by simp, hmoves key hkey⟩ hstays
  · rw [List.mem_singleton.mp hother]

end Displays

end CybexOS
