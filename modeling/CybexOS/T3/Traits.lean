/-
The traits of a model: the descriptors a provider advertises, the stored
selections, and the values a normalisation settles on.
-/
import CybexOS.Json.JsObject
import CybexOS.JsString
import CybexOS.T3.History

namespace CybexOS

namespace T3

open Json

/-! ### Descriptors -/

/-- A string that is not blank, trimmed. -/
def nonBlank : Option JsValue → Option { text : Text // text ≠ [] }
  | some (.str text) => if h : jsTrim text ≠ [] then some ⟨jsTrim text, h⟩ else none
  | _ => none

/-- `typeof value === "string" ? value.trim() : ""` -/
def trimmedOr : Option JsValue → Text
  | some (.str text) => jsTrim text
  | _ => []

structure Choice where
  id : Text
  label : Text
  description : Text
  isDefault : Bool
  named : id ≠ []
deriving DecidableEq

def sanitizeChoice (raw : JsValue) : Option Choice :=
  (nonBlank (property raw (ascii "id"))).bind fun id =>
    (nonBlank (property raw (ascii "label"))).map fun label =>
      { id := id.val
        label := label.val
        description := trimmedOr (property raw (ascii "description"))
        isDefault := isTrue (property raw (ascii "isDefault"))
        named := id.property }

structure Select where
  options : List Choice
  currentValue : Text
  promptInjectedValues : List Text
  offered : options ≠ []
deriving DecidableEq

inductive Setting where
  | boolean (currentValue : Bool)
  | select (select : Select)
deriving DecidableEq

structure Descriptor where
  id : Text
  label : Text
  description : Text
  setting : Setting
deriving DecidableEq

/-- What a descriptor of either type holds besides its names. -/
def sanitizeSetting (raw : JsValue) : Option Setting :=
  match property raw (ascii "type") with
  | some (.str type) =>
      if type = ascii "boolean" then
        some (.boolean (isTrue (property raw (ascii "currentValue"))))
      else
        match property raw (ascii "options") with
        | some (.arr options) =>
            if h : type = ascii "select" ∧ options.filterMap sanitizeChoice ≠ [] then
              some (.select
                { options := options.filterMap sanitizeChoice
                  currentValue := trimmedOr (property raw (ascii "currentValue"))
                  promptInjectedValues :=
                    (((property raw (ascii "promptInjectedValues")).map arrayOf).getD []).filterMap
                      fun value => (nonBlank (some value)).map Subtype.val
                  offered := h.2 })
            else none
        | _ => none
  | _ => none

def sanitizeDescriptor (raw : JsValue) : Option Descriptor :=
  (nonBlank (property raw (ascii "id"))).bind fun id =>
    (nonBlank (property raw (ascii "label"))).bind fun label =>
      (sanitizeSetting raw).map fun setting =>
        { id := id.val
          label := label.val
          description := trimmedOr (property raw (ascii "description"))
          setting := setting }

/-! ### Selections -/

/-- A value that a selection can hold. -/
def isSelectable : JsValue → Bool
  | .str _ => true
  | .bool _ => true
  | _ => false

/-- `values[id] = value` where both have the right type. -/
def putValue (values : Fields) (id : Option JsValue) (value : Option JsValue) : Fields :=
  match id, value with
  | some (.str id), some value => if isSelectable value then setOwn values id value else values
  | _, _ => values

def selectionValues : JsValue → Fields
  | .arr selections =>
      selections.foldl
        (fun values selection =>
          putValue values (property selection (ascii "id")) (property selection (ascii "value")))
        []
  | .obj fields =>
      fields.foldl (fun values field => putValue values (some (.str field.1)) (some field.2)) []
  | _ => []

/-! ### Normalising -/

namespace Select

def offers (select : Select) (value : Text) : Bool :=
  select.options.any fun option => option.id == value

def injects (select : Select) (value : Text) : Bool := select.promptInjectedValues.contains value

/-- The first default option, or else the first option. -/
def fallback (select : Select) : Choice :=
  (select.options.find? fun option => option.isDefault).getD (select.options.head select.offered)

/-- The value a select trait takes. -/
def choose (select : Select) (selected : Option JsValue) : Text :=
  let candidate := match selected with
    | some (.str text) => text
    | _ => select.currentValue
  let injected := select.injects candidate
  if !select.offers candidate || injected then
    let currentValid := select.offers select.currentValue && !select.injects select.currentValue
    if !injected && currentValid then select.currentValue else select.fallback.id
  else candidate

end Select

/-- The setting with the value it takes. -/
def Setting.settle (selected : Option JsValue) : Setting → Setting
  | .boolean currentValue =>
      match selected with
      | some (.bool value) => .boolean value
      | _ => .boolean currentValue
  | .select choices => .select { choices with currentValue := choices.choose selected }

def Descriptor.settle (descriptor : Descriptor) (selected : Option JsValue) : Descriptor :=
  { descriptor with setting := descriptor.setting.settle selected }

/-- The prototype's own properties are neither strings nor booleans, so only
the assigned ones are looked up. -/
def normalizeTraits (descriptors rawSelections : JsValue) : List Descriptor :=
  ((arrayOf descriptors).filterMap sanitizeDescriptor).map fun descriptor =>
    descriptor.settle ((selectionValues rawSelections).lookup descriptor.id)

def selection (id : Text) (value : JsValue) : JsValue :=
  .obj [(ascii "id", .str id), (ascii "value", value)]

def traitSelection (descriptor : Descriptor) : Option JsValue :=
  match descriptor.setting with
  | .boolean value => some (selection descriptor.id (.bool value))
  | .select choices =>
      if choices.currentValue ≠ [] then some (selection descriptor.id (.str choices.currentValue))
      else none

def traitSelections (descriptors : List Descriptor) : JsValue :=
  .arr (descriptors.filterMap traitSelection)

/-! ### What a select trait takes -/

namespace Select

variable {select : Select} {value : Text}

theorem offers_iff : select.offers value = true ↔ ∃ option ∈ select.options, option.id = value := by
  simp [offers]

theorem injects_iff : select.injects value = true ↔ value ∈ select.promptInjectedValues := by
  simp [injects]

theorem fallback_mem (select : Select) : select.fallback ∈ select.options := by
  unfold fallback
  cases hfind : select.options.find? fun option => option.isDefault with
  | none => exact List.head_mem select.offered
  | some option => exact List.mem_of_find?_eq_some hfind

theorem offers_fallback (select : Select) : select.offers select.fallback.id = true :=
  offers_iff.mpr ⟨_, select.fallback_mem, rfl⟩

/-- The value taken is an own option that is not injected, or the fallback. -/
theorem choose_cases (select : Select) (selected : Option JsValue) :
    select.choose selected = select.fallback.id ∨
      select.offers (select.choose selected) = true ∧
        select.injects (select.choose selected) = false := by
  simp only [choose]
  split_ifs with htaken hcurrent
  · simp only [Bool.and_eq_true, Bool.not_eq_true'] at hcurrent
    exact Or.inr hcurrent.2
  · exact Or.inl rfl
  · simp only [Bool.or_eq_true, Bool.not_eq_true', not_or, Bool.not_eq_false,
      Bool.not_eq_true] at htaken
    exact Or.inr htaken

theorem offers_choose (select : Select) (selected : Option JsValue) :
    select.offers (select.choose selected) = true := by
  rcases select.choose_cases selected with hfallback | hown
  · rw [hfallback]
    exact select.offers_fallback
  · exact hown.1

/-- A trait keeps the value it took. -/
theorem choose_choose (select : Select) (selected : Option JsValue) :
    select.choose (some (.str (select.choose selected))) = select.choose selected := by
  have hoffers := select.offers_choose selected
  generalize hvalue : select.choose selected = value at hoffers
  rcases hinjects : select.injects value with _ | _
  · simp [choose, hoffers, hinjects]
  · have hfallback : value = select.fallback.id := by
      rcases select.choose_cases selected with hfallback | hown
      · rw [← hvalue, hfallback]
      · rw [hvalue, hinjects] at hown
        exact absurd hown.2 (by simp)
    simp [choose, hinjects, ← hfallback]

theorem choose_ne_nil (select : Select) (selected : Option JsValue) :
    select.choose selected ≠ [] := by
  obtain ⟨option, -, hid⟩ := offers_iff.mp (select.offers_choose selected)
  exact hid ▸ option.named

end Select

/-! ### What the selections say -/

/-- The value of a trait, as a selection has it. -/
def Setting.value : Setting → JsValue
  | .boolean currentValue => .bool currentValue
  | .select choices => .str choices.currentValue

theorem Setting.settle_settle (setting : Setting) (selected : Option JsValue) :
    setting.settle (some (setting.settle selected).value) = setting.settle selected := by
  cases setting with
  | boolean currentValue =>
      unfold settle value
      cases selected with
      | none => rfl
      | some selected => cases selected <;> rfl
  | select choices => simp only [settle, value, Select.choose_choose]

theorem traitSelection_settle (descriptor : Descriptor) (selected : Option JsValue) :
    traitSelection (descriptor.settle selected) =
      some (selection descriptor.id (descriptor.setting.settle selected).value) := by
  obtain ⟨id, label, description, setting⟩ := descriptor
  cases setting with
  | boolean currentValue =>
      unfold traitSelection Descriptor.settle Setting.settle Setting.value
      cases selected with
      | none => rfl
      | some selected => cases selected <;> rfl
  | select choices =>
      have hvalue : choices.choose selected ≠ [] := choices.choose_ne_nil selected
      simp only [traitSelection, Descriptor.settle, Setting.settle, Setting.value]
      rw [if_pos hvalue]

/-- The descriptors that took their values. -/
def settleAll (values : Fields) (descriptors : List Descriptor) : List Descriptor :=
  descriptors.map fun descriptor => descriptor.settle (values.lookup descriptor.id)

theorem normalizeTraits_eq (descriptors rawSelections : JsValue) :
    normalizeTraits descriptors rawSelections = settleAll (selectionValues rawSelections)
      ((arrayOf descriptors).filterMap sanitizeDescriptor) := rfl

theorem traitSelections_settleAll (values : Fields) (descriptors : List Descriptor) :
    traitSelections (settleAll values descriptors) =
      .arr ((settleAll values descriptors).map fun trait =>
        selection trait.id trait.setting.value) := by
  have hsome :
      (traitSelection ∘ fun descriptor => descriptor.settle (values.lookup descriptor.id)) = some ∘ fun descriptor : Descriptor => selection descriptor.id
        (descriptor.setting.settle (values.lookup descriptor.id)).value :=
    funext fun descriptor => traitSelection_settle descriptor _
  rw [traitSelections, settleAll, List.filterMap_map, hsome, List.filterMap_eq_map, List.map_map]
  rfl

/-- The map of the selections, trait by trait. -/
def putTrait (values : Fields) (trait : Descriptor) : Fields :=
  setOwn values trait.id trait.setting.value

theorem putValue_selection (values : Fields) (trait : Descriptor) :
    putValue values (property (selection trait.id trait.setting.value) (ascii "id"))
      (property (selection trait.id trait.setting.value) (ascii "value")) =
        putTrait values trait := by
  have hid : property (selection trait.id trait.setting.value) (ascii "id") =
      some (.str trait.id) := rfl
  have hvalue : property (selection trait.id trait.setting.value) (ascii "value") =
      some trait.setting.value := rfl
  rw [hid, hvalue]
  unfold putTrait Setting.value
  cases trait.setting <;> rfl

theorem selectionValues_settled (values : Fields) (descriptors : List Descriptor) :
    selectionValues (traitSelections (settleAll values descriptors)) =
      (settleAll values descriptors).foldl putTrait [] := by
  rw [traitSelections_settleAll, selectionValues, List.foldl_map]
  congr 1
  funext values trait
  exact putValue_selection values trait

/-! ### Reading the map of the selections -/

theorem lookup_setOwn_ne {fields : Fields} (hnodup : (keysOf fields).Nodup) {key other : Text}
    (hne : other ≠ key) (value : JsValue) :
    (setOwn fields key value).lookup other = fields.lookup other := by
  by_cases h : Assignable fields key
  · rw [lookup_setOwn hnodup h, if_neg hne]
  · rw [setOwn_of_not_assignable h]

theorem putValue_plain {values : Fields} (h : Plain values) (id value : Option JsValue) :
    Plain (putValue values id value) := by
  unfold putValue
  split
  · split_ifs
    · exact h.setOwn _ _
    · exact h
  · exact h

/-- Folding steps that keep a property keeps it. -/
theorem foldl_keeps {α β : Type} (P : β → Prop) {step : β → α → β}
    (hstep : ∀ value item, P value → P (step value item)) {start : β} (h : P start)
    (items : List α) : P (items.foldl step start) := by
  induction items generalizing start with
  | nil => exact h
  | cons item items ih => exact ih (hstep start item h)

theorem selectionValues_plain (rawSelections : JsValue) :
    Plain (selectionValues rawSelections) := by
  unfold selectionValues
  cases rawSelections with
  | arr selections =>
      exact foldl_keeps Plain (fun _ _ h => putValue_plain h _ _) plain_nil selections
  | obj fields =>
      exact foldl_keeps Plain (fun _ _ h => putValue_plain h _ _) plain_nil fields
  | _ => exact plain_nil

theorem putTrait_plain {values : Fields} (h : Plain values) (trait : Descriptor) :
    Plain (putTrait values trait) := h.setOwn _ _

theorem putTraits_plain (traits : List Descriptor) : Plain (traits.foldl putTrait []) :=
  foldl_keeps Plain (fun _ trait h => putTrait_plain h trait) plain_nil traits

/-- A trait that no later one shares its id with is found in the map. -/
theorem lookup_putTraits (before : List Descriptor) {after : List Descriptor}
    {trait : Descriptor} (hproto : trait.id ≠ PROTO)
    (hlast : ∀ later ∈ after, later.id ≠ trait.id) :
    ((before ++ trait :: after).foldl putTrait []).lookup trait.id =
      some trait.setting.value := by
  have hplain : Plain (before.foldl putTrait []) := putTraits_plain before
  rw [List.foldl_append, List.foldl_cons]
  have hput : (putTrait (before.foldl putTrait []) trait).lookup trait.id =
      some trait.setting.value := by
    rw [putTrait, lookup_setOwn hplain.nodup (fun h => absurd h hproto), if_pos rfl]
  have hkept : ∀ (later : List Descriptor) (values : Fields), Plain values →
      (∀ other ∈ later, other.id ≠ trait.id) →
      (later.foldl putTrait values).lookup trait.id = values.lookup trait.id := by
    intro later
    induction later with
    | nil => exact fun _ _ _ => rfl
    | cons other later ih =>
        intro values hvalues hothers
        rw [List.foldl_cons, ih _ (putTrait_plain hvalues other)
          fun later hlater => hothers later (List.mem_cons_of_mem _ hlater), putTrait,
          lookup_setOwn_ne hvalues.nodup (Ne.symm (hothers other List.mem_cons_self))]
  rw [hkept after _ (putTrait_plain hplain trait) hlast, hput]

/-! ### Normalised traits -/

/-- The selection of a trait names one of its own options, an injected one
only where the fallback is injected. -/
def Selects (trait : Descriptor) (sent : JsValue) : Prop :=
  sent = selection trait.id trait.setting.value ∧
    ∀ choices, trait.setting = .select choices →
      choices.offers choices.currentValue = true ∧
        (choices.injects choices.currentValue = true →
          choices.currentValue = choices.fallback.id)

theorem selects_settle (descriptor : Descriptor) (selected : Option JsValue) :
    Selects (descriptor.settle selected)
      (selection (descriptor.settle selected).id (descriptor.settle selected).setting.value) := by
  refine ⟨rfl, fun choices hchoices => ?_⟩
  cases hsetting : descriptor.setting with
  | boolean currentValue =>
      rw [Descriptor.settle, hsetting] at hchoices
      cases selected with
      | none => cases hchoices
      | some selected => cases selected <;> cases hchoices
  | select advertised =>
      rw [Descriptor.settle, hsetting] at hchoices
      cases hchoices
      refine ⟨advertised.offers_choose selected, fun hinjects => ?_⟩
      rcases advertised.choose_cases selected with hfallback | hown
      · exact hfallback
      · exact absurd hinjects (by rw [Bool.not_eq_true]; exact hown.2)

/-- No later trait has the id of this one. -/
def LastOfId (traits : List Descriptor) (i : Nat) (trait : Descriptor) : Prop :=
  traits[i]? = some trait ∧
    ∀ j later, i < j → traits[j]? = some later → later.id ≠ trait.id

theorem settleAll_again {values : Fields} (hvalues : Plain values)
    {descriptors : List Descriptor} {i : Nat} {trait : Descriptor}
    (h : LastOfId (settleAll values descriptors) i trait) :
    (settleAll ((settleAll values descriptors).foldl putTrait []) descriptors)[i]? =
      some trait := by
  obtain ⟨hi, hlast⟩ := h
  obtain ⟨descriptor, hdescriptor, rfl⟩ :
      ∃ descriptor, descriptors[i]? = some descriptor ∧
        descriptor.settle (values.lookup descriptor.id) = trait := by
    rwa [settleAll, List.getElem?_map, Option.map_eq_some_iff] at hi
  rw [settleAll, List.getElem?_map, hdescriptor, Option.map_some]
  congr 1
  by_cases hproto : descriptor.id = PROTO
  · rw [hproto, (putTraits_plain (settleAll values descriptors)).lookup_proto,
      hvalues.lookup_proto]
  · have hsplit : settleAll values descriptors = (settleAll values descriptors).take i ++
        descriptor.settle (values.lookup descriptor.id) ::
          (settleAll values descriptors).drop (i + 1) := by
      have hlength : i < (settleAll values descriptors).length :=
        (List.getElem?_eq_some_iff.mp hi).1
      rw [← (List.getElem?_eq_some_iff.mp hi).2, List.cons_getElem_drop_succ,
        List.take_append_drop]
    have hlater : ∀ later ∈ (settleAll values descriptors).drop (i + 1),
        later.id ≠ (descriptor.settle (values.lookup descriptor.id)).id := by
      intro later hlater
      obtain ⟨j, hj⟩ := List.mem_iff_getElem?.mp hlater
      rw [List.getElem?_drop] at hj
      exact hlast (i + 1 + j) later (by omega) hj
    have hid : (descriptor.settle (values.lookup descriptor.id)).id = descriptor.id := rfl
    have hfound := lookup_putTraits ((settleAll values descriptors).take i) (hid ▸ hproto) hlater
    rw [← hsplit, hid] at hfound
    rw [hfound]
    simp only [Descriptor.settle, Setting.settle_settle]

/-- Every select trait takes one of its own options, an injected one only as
its fallback, the selections say so trait by trait, and normalising from them
changes no trait that is the last of its id. -/
theorem normalizeTraits_settles (descriptors stored : JsValue) :
    (∃ sent, traitSelections (normalizeTraits descriptors stored) = .arr sent ∧
      List.Forall₂ Selects (normalizeTraits descriptors stored) sent) ∧
    ∀ i trait, LastOfId (normalizeTraits descriptors stored) i trait →
      (normalizeTraits descriptors
        (traitSelections (normalizeTraits descriptors stored)))[i]? = some trait := by
  constructor
  · refine ⟨_, traitSelections_settleAll _ _, ?_⟩
    rw [← normalizeTraits_eq, List.forall₂_map_right_iff, List.forall₂_same]
    intro trait htrait
    obtain ⟨descriptor, -, rfl⟩ := List.mem_map.mp htrait
    exact selects_settle descriptor _
  · intro i trait hlast
    rw [normalizeTraits_eq descriptors stored, normalizeTraits_eq, selectionValues_settled]
    exact settleAll_again (selectionValues_plain stored) hlast

def choiceValue (id : String) (isDefault : Bool) : JsValue :=
  .obj [(ascii "id", .str (ascii id)), (ascii "label", .str (ascii id)),
    (ascii "isDefault", .bool isDefault)]

def selectValue (id : String) (options : List JsValue) (injected : List String) : JsValue :=
  .obj [(ascii "id", .str (ascii id)), (ascii "label", .str (ascii id)),
    (ascii "type", .str (ascii "select")), (ascii "options", .arr options),
    (ascii "promptInjectedValues", .arr (injected.map fun value => .str (ascii value)))]

/-- An effort trait whose default is prompt-injected, beside a plain option. -/
def ultrathinkDefault : JsValue :=
  .arr [selectValue "effort" [choiceValue "high" false, choiceValue "ultrathink" true]
    ["ultrathink"]]

/-- Two traits that share an id. -/
def sharedId : JsValue :=
  .arr [selectValue "mode" [choiceValue "a" true, choiceValue "c" false] [],
    selectValue "mode" [choiceValue "b" false] []]

theorem normalizeTraits_settles_effort :
    (normalizeTraits ultrathinkDefault (traitSelections
      (normalizeTraits ultrathinkDefault (.arr []))))[0]? =
        (normalizeTraits ultrathinkDefault (.arr []))[0]? := by
  have hfirst : ∃ trait, normalizeTraits ultrathinkDefault (.arr []) = [trait] := ⟨_, rfl⟩
  obtain ⟨trait, htraits⟩ := hfirst
  have hlast : LastOfId (normalizeTraits ultrathinkDefault (.arr [])) 0 trait := by
    rw [htraits]
    refine ⟨rfl, fun j later hj hlater => ?_⟩
    rw [List.getElem?_eq_none hj] at hlater
    cases hlater
  rw [(normalizeTraits_settles ultrathinkDefault (.arr [])).2 0 trait hlast, hlast.1]

/-- The plain option is passed over for the injected default, and the second
trait's value sends the first one back to its default. -/
theorem injected_and_shared :
    traitSelections (normalizeTraits ultrathinkDefault (.arr [])) =
        .arr [selection (ascii "effort") (.str (ascii "ultrathink"))] ∧
      (∃ trait ∈ normalizeTraits ultrathinkDefault (.arr []), ∃ choices,
        trait.setting = .select choices ∧
          choices.options.any (fun option => !choices.injects option.id) = true ∧
          choices.injects choices.currentValue = true) ∧
      normalizeTraits sharedId (traitSelections (normalizeTraits sharedId
          (.arr [selection (ascii "mode") (.str (ascii "c"))]))) ≠
        normalizeTraits sharedId (.arr [selection (ascii "mode") (.str (ascii "c"))]) := by
  refine ⟨rfl, ⟨_, List.mem_cons_self, _, rfl, by decide +kernel, by decide +kernel⟩, ?_⟩
  decide +kernel

end T3

end CybexOS
