/-
The document the Displays page saves (`DisplayHelpers.js`): which identity a
connected output is stored under and how its entry is written.  JavaScript
strings are taken here by their code points, a surrogate that stands alone
being one.
-/
import CybexOS.Displays.Decide
import CybexOS.Displays.Draft
import CybexOS.Json.JsObject
import CybexOS.JsString

namespace CybexOS

namespace Displays

open Json

/-! ### Identities -/

/-- The UTF-16 code units of a text. -/
def unitsOf (s : Text) : Text :=
  s.flatMap fun c =>
    if c < 0x10000 then [c]
    else [0xd800 + (c - 0x10000) / 1024, 0xdc00 + (c - 0x10000) % 1024]

/-- `text.indexOf(start) === 0` -/
def startsWith (text start : Text) : Bool := (unitsOf start).isPrefixOf (unitsOf text)

/-- `/[\u0000-\u001f\u007f]/.test(text)` -/
def hasControl (text : Text) : Bool := text.any fun c => c ≤ 0x1f || c == 0x7f

/-- A description another output's begins with cannot tell the two apart. -/
def clashes (monitor : Monitor) (monitors : List Monitor) : Bool :=
  monitors.any fun other =>
    other.name != monitor.name &&
      startsWith (jsTrim other.description) (jsTrim monitor.description)

/-- `monitorKey` -/
def monitorKey (monitor : Monitor) (monitors : List Monitor) : Text :=
  let description := jsTrim monitor.description
  if description ≠ [] ∧ !hasControl description ∧
      (unitsOf description).length ≤ 256 ∧ !clashes monitor monitors then
    ascii "desc:" ++ description
  else monitor.name

/-- `!entry.description || entry.description === description` -/
def sameHardware (entry : JsValue) (description : Text) : Bool :=
  match entry.field? (ascii "description") with
  | some recorded =>
      !truthy recorded ||
        match recorded with
        | .str text => text == description
        | _ => false
  | none => true

/-- `connectorEntry`: the entry under the connector's name, unless it was
recorded for other hardware. -/
def connectorEntry (monitors : Fields) (name description : Text) : Option JsValue :=
  (monitors.lookup name).filter fun entry =>
    truthy entry && sameHardware entry description

/-- The members of `document.monitors`, if it is an object. -/
def storedMonitors (document : JsValue) : Fields :=
  ((document.field? (ascii "monitors")).bind objectFields?).getD []

/-! ### Building -/

/-- `JSON.parse(JSON.stringify(value))` -/
def clone (value : JsValue) : JsValue :=
  (jsonParse (jsonStringify value)).getD .null

def numberValue (q : ℚ) : JsValue := .num (Number.ofRat q)

/-- `Math.round(value * unit) / unit` -/
def roundTo (unit : ℚ) (value : ℚ) : ℚ :=
  Binary64.nearest (mathRound (Binary64.nearest (value * unit)) / unit)

/-- `roundRefresh` -/
def roundRefresh (value : ℚ) : ℚ := roundTo 1000 value

def savedMode : ModeChoice → JsValue
  | .preferred => .str (ascii "preferred")
  | .size mode => .obj
      [(ascii "width", numberValue mode.width),
        (ascii "height", numberValue mode.height),
        (ascii "refresh", numberValue (roundRefresh mode.refresh))]

def savedScale : ScaleChoice → JsValue
  | .auto => .str (ascii "auto")
  | .value scale => numberValue (roundTo 1000000 scale)

/-- What one entry is made of: a field is assigned, or deleted. -/
def Draft.entryChanges (draft : Draft) (enabledKeys : List Text) :
    List (Text × Option JsValue) :=
  [(ascii "description",
      if draft.description = [] then none else some (.str draft.description)),
    (ascii "connector", some (.str draft.name)),
    (ascii "enabled", some (.bool draft.enabled)),
    (ascii "disabledWith",
      if draft.enabled then none
      else some (.arr ((enabledKeys.take 16).map .str))),
    (ascii "mode", some (savedMode draft.mode)),
    (ascii "position", some (.obj
      [(ascii "x", numberValue draft.x), (ascii "y", numberValue draft.y)])),
    (ascii "scale", some (savedScale draft.scale)),
    (ascii "transform", some (numberValue draft.transform)),
    (ascii "vrr", if draft.vrr = -1 then none else some (numberValue draft.vrr)),
    (ascii "mirror",
      if draft.mirror = [] then none else some (.str draft.mirror))]

def changeOwn (fields : Fields) (change : Text × Option JsValue) : Fields :=
  match change.2 with
  | some value => setOwn fields change.1 value
  | none => deleteOwn fields change.1

/-- The entry of a draft over the fields it had, those under its own key
counting more than those under the connector's name. -/
def Draft.entry (draft : Draft) (monitors : Fields) (enabledKeys : List Text) : Fields :=
  let legacy := (connectorEntry monitors draft.name draft.description).getD (.obj [])
  let own := (monitors.lookup draft.key).getD (.obj [])
  (draft.entryChanges enabledKeys).foldl changeOwn
    (assignOwn (assignOwn [] legacy) own)

/-- Move the legacy entry of a draft, then store its entry. -/
def storeDraft (enabledKeys : List Text) (monitors : Fields) (draft : Draft) : Fields :=
  let moved :=
    if draft.key ≠ draft.name ∧
        (connectorEntry monitors draft.name draft.description).isSome then
      deleteOwn monitors draft.name
    else monitors
  setOwn moved draft.key (.obj (draft.entry monitors enabledKeys))

/-- The keys of the drafts that are on. -/
def enabledKeys (drafts : List Draft) : List Text :=
  (drafts.filter fun draft => draft.enabled).map fun draft => draft.key

/-- `buildDocument` -/
def buildDocument (previous : JsValue) (drafts : List Draft) : JsValue :=
  let document := (objectFields? previous).elim [] fun _ =>
    (objectFields? (clone previous)).getD []
  let versioned := setOwn document (ascii "v") (numberValue 1)
  let monitors := storedMonitors (.obj versioned)
  .obj (setOwn versioned (ascii "monitors")
    (.obj (drafts.foldl (storeDraft (enabledKeys drafts)) monitors)))

/-! ### Reading an entry back -/

theorem changeOwn_nodup {fields : Fields} (h : (keysOf fields).Nodup)
    (change : Text × Option JsValue) : (keysOf (changeOwn fields change)).Nodup := by
  unfold changeOwn
  cases change.2 with
  | none => exact deleteOwn_nodup h change.1
  | some value => exact setOwn_nodup h change.1 value

theorem foldl_changeOwn_nodup {fields : Fields} (h : (keysOf fields).Nodup)
    (changes : List (Text × Option JsValue)) :
    (keysOf (changes.foldl changeOwn fields)).Nodup := by
  induction changes generalizing fields with
  | nil => exact h
  | cons change changes ih => exact ih (changeOwn_nodup h change)

/-- After changes under distinct names, each name has what its change says. -/
theorem lookup_foldl_changeOwn {changes : List (Text × Option JsValue)}
    (hnames : (changes.map Prod.fst).Nodup) (hproto : PROTO ∉ changes.map Prod.fst)
    {fields : Fields} (h : (keysOf fields).Nodup) (name : Text) :
    (changes.foldl changeOwn fields).lookup name =
      (changes.lookup name).getD (fields.lookup name) := by
  induction changes generalizing fields with
  | nil => rfl
  | cons change changes ih =>
      obtain ⟨key, value⟩ := change
      rw [List.map_cons, List.nodup_cons] at hnames
      rw [List.map_cons, List.mem_cons, not_or] at hproto
      rw [List.foldl_cons, ih hnames.2 hproto.2 (changeOwn_nodup h _), lookup_cons_if]
      have hassign : Assignable fields key := fun hkey => absurd hkey.symm hproto.1
      by_cases hname : name = key
      · subst hname
        rw [lookup_eq_none_iff_keys.mpr hnames.1, if_pos rfl]
        cases value with
        | none => simp [changeOwn, lookup_deleteOwn]
        | some held => simp [changeOwn, lookup_setOwn h hassign]
      · rw [if_neg hname]
        cases value with
        | none => simp [changeOwn, lookup_deleteOwn, hname]
        | some held => simp [changeOwn, lookup_setOwn h hassign, hname]

/-- An object assigned from two values has distinct keys. -/
theorem assigned_nodup (first second : JsValue) :
    (keysOf (assignOwn (assignOwn [] first) second)).Nodup :=
  assignOwn_nodup (assignOwn_nodup (show (keysOf []).Nodup from List.nodup_nil) _) _

theorem entry_nodup (draft : Draft) (monitors : Fields) (enabledKeys : List Text) :
    (keysOf (draft.entry monitors enabledKeys)).Nodup :=
  foldl_changeOwn_nodup (assigned_nodup _ _) _

/-- The fields an entry is made of do not depend on the fields it had. -/
theorem lookup_entry (draft : Draft) (monitors : Fields) (enabledKeys : List Text)
    {name : Text} {held : Option JsValue}
    (h : (draft.entryChanges enabledKeys).lookup name = some held) :
    (draft.entry monitors enabledKeys).lookup name = held := by
  have hnames : ((draft.entryChanges enabledKeys).map Prod.fst).Nodup := by
    simp [Draft.entryChanges, ascii]
  have hproto : PROTO ∉ (draft.entryChanges enabledKeys).map Prod.fst := by
    simp [Draft.entryChanges, PROTO, ascii]
  rw [Draft.entry, lookup_foldl_changeOwn hnames hproto (assigned_nodup _ _), h]
  rfl

/-! ### The drafts of connected outputs -/

/-- Drafts whose names differ, stored under a name or a description; an output
whose name is another's key shares that one's description or none. -/
structure Unambiguous (drafts : List Draft) : Prop where
  distinct : (drafts.map Draft.name).Nodup
  keyed : ∀ draft ∈ drafts, draft.key = draft.name ∨ Lua.isDesc draft.key = true
  apart : ∀ draft ∈ drafts, ∀ other ∈ drafts, other.name ≠ draft.name →
    other.key = draft.name → draft.key ≠ draft.name →
      other.description ≠ [] ∧ other.description ≠ draft.description

/-- The previous entry under this key moves to the identity of a draft. -/
def Moved (previous : Fields) (drafts : List Draft) (key : Text) : Prop :=
  ∃ draft ∈ drafts, draft.name = key ∧ draft.key ≠ key ∧
    (connectorEntry previous key draft.description).isSome = true

/-- A draft is stored under this key. -/
def StoredUnder (previous : Fields) (drafts : List Draft) (key : Text) : Prop :=
  (∃ draft ∈ drafts, draft.key = key) ∧ Assignable previous key

/-- What storing the drafts leaves: their entries, and of the previous ones
those that neither moved nor were replaced. -/
structure Stores (previous : Fields) (drafts : List Draft) (enabledKeys : List Text)
    (result : Fields) : Prop where
  nodup : (keysOf result).Nodup
  stored : ∀ key, StoredUnder previous drafts key → ∃ draft ∈ drafts, draft.key = key ∧
    ∃ monitors, result.lookup key = some (.obj (draft.entry monitors enabledKeys))
  kept : ∀ key, ¬ StoredUnder previous drafts key →
    (Moved previous drafts key → result.lookup key = none) ∧
      (¬ Moved previous drafts key → result.lookup key = previous.lookup key)

theorem Stores.nil {previous : Fields} (h : (keysOf previous).Nodup)
    (enabledKeys : List Text) : Stores previous [] enabledKeys previous := by
  refine ⟨h, ?_, fun key _ => ⟨?_, fun _ => rfl⟩⟩
  · rintro key ⟨⟨draft, hdraft, -⟩, -⟩
    cases hdraft
  · rintro ⟨draft, hdraft, -⟩
    cases hdraft

theorem lookup_description (draft : Draft) (monitors : Fields)
    (enabledKeys : List Text) :
    (draft.entry monitors enabledKeys).lookup (ascii "description") =
      if draft.description = [] then none else some (.str draft.description) :=
  lookup_entry draft monitors enabledKeys (lookup_cons_if _ _ _ _)

/-- An entry written for one description is not that of another. -/
theorem connectorEntry_stored {monitors fields : Fields} {name : Text} {other : Draft}
    {enabledKeys : List Text}
    (hlookup : monitors.lookup name = some (.obj (other.entry fields enabledKeys)))
    {description : Text} (hsome : other.description ≠ [])
    (hne : other.description ≠ description) :
    connectorEntry monitors name description = none := by
  have hfield : (Value.obj (other.entry fields enabledKeys)).field?
      (ascii "description") = some (.str other.description) := by
    rw [Value.field?, lookup_description, if_neg hsome]
  rw [connectorEntry, hlookup, Option.filter_some, sameHardware, hfield]
  simp [truthy, hsome, hne]

/-- The two steps of `storeDraft`, read back. -/
theorem lookup_storeDraft {result : Fields} (hnodup : (keysOf result).Nodup)
    {draft : Draft} (hassign : Assignable result draft.key)
    (hproto : draft.key = PROTO → draft.key = draft.name) (enabledKeys : List Text)
    (key : Text) :
    (storeDraft enabledKeys result draft).lookup key =
      if key = draft.key then some (.obj (draft.entry result enabledKeys))
      else if key = draft.name ∧ draft.key ≠ draft.name ∧
          (connectorEntry result draft.name draft.description).isSome then none
      else result.lookup key := by
  unfold storeDraft
  dsimp only
  split
  · next hmoves =>
    have hassign' : Assignable (deleteOwn result draft.name) draft.key :=
      fun hkey => absurd (hproto hkey) hmoves.1
    rw [lookup_setOwn (deleteOwn_nodup hnodup _) hassign', lookup_deleteOwn]
    simp [hmoves]
  · next hstays =>
    rw [lookup_setOwn hnodup hassign]
    split
    · rfl
    · rw [if_neg (fun h => hstays h.2)]

theorem Unambiguous.proto {drafts : List Draft} (h : Unambiguous drafts)
    {draft : Draft} (hdraft : draft ∈ drafts) (hkey : draft.key = PROTO) :
    draft.key = draft.name := by
  rcases h.keyed draft hdraft with hname | hdesc
  · exact hname
  · rw [hkey] at hdesc
    exact absurd hdesc (by decide)

theorem Stores.snoc {previous : Fields} {drafts : List Draft} {draft : Draft}
    (hdrafts : Unambiguous (drafts ++ [draft])) {enabledKeys : List Text}
    {result : Fields} (h : Stores previous drafts enabledKeys result) :
    Stores previous (drafts ++ [draft]) enabledKeys
      (storeDraft enabledKeys result draft) := by
  have hdraft : draft ∈ drafts ++ [draft] := by simp
  have hothers : ∀ other ∈ drafts, other.name ≠ draft.name := by
    have hdistinct := hdrafts.distinct
    rw [List.map_append, List.nodup_append] at hdistinct
    exact fun other hother => hdistinct.2.2 _ (List.mem_map_of_mem hother) _ (by simp)
  have hproto := hdrafts.proto hdraft
  -- only the draft of that name could move what is under its name
  have hunmoved : ¬ Moved previous drafts draft.name := by
    rintro ⟨other, hother, hname, -⟩
    exact hothers other hother hname
  have hassign : Assignable result draft.key ↔ Assignable previous draft.key := by
    by_cases hkey : draft.key = PROTO
    · have hunstored : StoredUnder previous drafts PROTO → PROTO ∈ keysOf previous :=
        fun hstored => hstored.2 rfl
      have hname : draft.name = PROTO := (hproto hkey).symm.trans hkey
      rw [hname] at hunmoved
      simp only [Assignable, hkey, true_implies]
      by_cases hstored : StoredUnder previous drafts PROTO
      · obtain ⟨other, -, -, monitors, hlookup⟩ := h.stored PROTO hstored
        refine iff_of_true ?_ (hunstored hstored)
        by_contra hnot
        rw [lookup_eq_none_iff_keys.mpr hnot] at hlookup
        cases hlookup
      · have hlookup := (h.kept PROTO hstored).2 hunmoved
        rw [← not_iff_not, keysOf, keysOf, ← lookup_eq_none_iff_keys,
          ← lookup_eq_none_iff_keys, hlookup]
    · exact iff_of_true (fun heq => absurd heq hkey) fun heq => absurd heq hkey
  have hnodup : (keysOf (storeDraft enabledKeys result draft)).Nodup := by
    unfold storeDraft
    dsimp only
    split
    · exact setOwn_nodup (deleteOwn_nodup h.nodup _) _ _
    · exact setOwn_nodup h.nodup _ _
  have hmember : ∀ key, (∃ other ∈ drafts ++ [draft], other.key = key) ↔
      (∃ other ∈ drafts, other.key = key) ∨ draft.key = key := by
    intro key
    simp [or_and_right, exists_or]
  have hmoved : ∀ key, Moved previous (drafts ++ [draft]) key ↔
      Moved previous drafts key ∨ draft.name = key ∧ draft.key ≠ key ∧
        (connectorEntry previous key draft.description).isSome = true := by
    intro key
    simp [Moved, or_and_right, exists_or]
  by_cases hassigned : Assignable previous draft.key
  · have hlookup := lookup_storeDraft h.nodup (hassign.mpr hassigned) hproto
      enabledKeys
    refine ⟨hnodup, fun key hstored => ?_, fun key hunstored => ?_⟩
    · rw [hlookup]
      by_cases hkey : key = draft.key
      · exact ⟨draft, hdraft, hkey.symm, result, if_pos hkey⟩
      · rcases (hmember key).mp hstored.1 with hearlier | hsame
        · obtain ⟨other, hother, hkeyed, monitors, hfound⟩ :=
            h.stored key ⟨hearlier, hstored.2⟩
          refine ⟨other, List.mem_append_left _ hother, hkeyed, monitors, ?_⟩
          rw [if_neg hkey, if_neg, hfound]
          -- an entry stored for another output is not this one's to move
          rintro ⟨rfl, hmoves, hsome⟩
          obtain ⟨hdescription, hne⟩ := hdrafts.apart draft hdraft other
            (List.mem_append_left _ hother) (hothers other hother) hkeyed hmoves
          rw [connectorEntry_stored hfound hdescription hne] at hsome
          cases hsome
        · exact absurd hsame.symm hkey
    · have hkey : key ≠ draft.key := by
        rintro rfl
        exact hunstored ⟨(hmember _).mpr (Or.inr rfl), hassigned⟩
      have hearlier : ¬ StoredUnder previous drafts key := fun hstored =>
        hunstored ⟨(hmember key).mpr (Or.inl hstored.1), hstored.2⟩
      obtain ⟨hgone, hkept⟩ := h.kept key hearlier
      rw [hlookup, if_neg hkey, hmoved]
      by_cases hname : key = draft.name
      · subst hname
        have hsame : connectorEntry result draft.name draft.description =
            connectorEntry previous draft.name draft.description := by
          rw [connectorEntry, hkept hunmoved, ← connectorEntry]
        rw [hsame]
        by_cases hmoves : (connectorEntry previous draft.name
            draft.description).isSome = true
        · simp [hmoves, hkey.symm]
        · simp [hmoves, hunmoved, hkept hunmoved]
      · rw [if_neg (fun hand => hname hand.1)]
        refine ⟨fun hor => hgone (hor.resolve_right ?_), fun hnor => hkept ?_⟩
        · exact fun hand => hname hand.1.symm
        · exact fun hbefore => hnor (Or.inl hbefore)
  · -- nothing can be assigned under the prototype's name
    have hkey : draft.key = PROTO := by
      by_contra hne
      exact hassigned fun heq => absurd heq hne
    have hsame : storeDraft enabledKeys result draft = result := by
      unfold storeDraft
      dsimp only
      rw [if_neg (fun hand => hand.1 (hproto hkey)),
        setOwn_of_not_assignable (fun hresult => hassigned (hassign.mp hresult))]
    have hstored : ∀ key, StoredUnder previous (drafts ++ [draft]) key ↔
        StoredUnder previous drafts key := by
      intro key
      unfold StoredUnder
      rw [hmember]
      constructor
      · rintro ⟨hearlier | rfl, hassign⟩
        · exact ⟨hearlier, hassign⟩
        · exact absurd hassign hassigned
      · exact fun hstored => ⟨Or.inl hstored.1, hstored.2⟩
    have hmovedSame : ∀ key, Moved previous (drafts ++ [draft]) key ↔
        Moved previous drafts key := by
      intro key
      rw [hmoved, or_iff_left]
      rintro ⟨rfl, hne, -⟩
      exact hne (hproto hkey)
    rw [hsame]
    refine ⟨h.nodup, fun key hkeyed => ?_, fun key hunstored => ?_⟩
    · obtain ⟨other, hother, hrest⟩ := h.stored key ((hstored key).mp hkeyed)
      exact ⟨other, List.mem_append_left _ hother, hrest⟩
    · rw [hmovedSame]
      exact h.kept key (fun hbefore => hunstored ((hstored key).mpr hbefore))

theorem Unambiguous.init {drafts : List Draft} {draft : Draft}
    (h : Unambiguous (drafts ++ [draft])) : Unambiguous drafts where
  distinct := by
    have hdistinct := h.distinct
    rw [List.map_append] at hdistinct
    exact (List.nodup_append.mp hdistinct).1
  keyed := fun other hother => h.keyed other (List.mem_append_left _ hother)
  apart := fun first hfirst second hsecond =>
    h.apart first (List.mem_append_left _ hfirst) second
      (List.mem_append_left _ hsecond)

/-- Storing all drafts one after the other. -/
theorem stores_foldl {previous : Fields} (hprevious : (keysOf previous).Nodup)
    {drafts : List Draft} (hdrafts : Unambiguous drafts) (enabledKeys : List Text) :
    Stores previous drafts enabledKeys
      (drafts.foldl (storeDraft enabledKeys) previous) := by
  induction drafts using List.reverseRecOn with
  | nil => exact Stores.nil hprevious enabledKeys
  | append_singleton drafts draft ih =>
      rw [List.foldl_append]
      exact Stores.snoc hdrafts (ih hdrafts.init)

/-- The keys of the saved document. -/
theorem Stores.mem_keys_iff {previous result : Fields} {drafts : List Draft}
    {enabledKeys : List Text} (h : Stores previous drafts enabledKeys result)
    (key : Text) :
    key ∈ keysOf result ↔ StoredUnder previous drafts key ∨
      key ∈ keysOf previous ∧ ¬ Moved previous drafts key := by
  by_cases hstored : StoredUnder previous drafts key
  · obtain ⟨draft, -, -, monitors, hlookup⟩ := h.stored key hstored
    refine iff_of_true ?_ (Or.inl hstored)
    by_contra hnot
    rw [lookup_eq_none_iff_keys.mpr hnot] at hlookup
    cases hlookup
  · obtain ⟨hgone, hkept⟩ := h.kept key hstored
    rw [or_iff_right hstored, ← not_iff_not, keysOf, ← lookup_eq_none_iff_keys]
    by_cases hmoved : Moved previous drafts key
    · simp [hgone hmoved, hmoved]
    · rw [hkept hmoved, lookup_eq_none_iff_keys]
      simp [hmoved, keysOf]

end Displays

end CybexOS
