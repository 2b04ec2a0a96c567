/-
Own properties of ECMAScript objects: reading, assigning, deleting and
`Object.assign`.
-/
import CybexOS.Json.Js

namespace CybexOS

namespace Json

abbrev Fields := List (Text × JsValue)

/-- Assigning this name to an object that does not own it sets the object's
prototype instead. -/
def PROTO : Text := ascii "__proto__"

/-- `object[key] = value` -/
def setOwn (fields : Fields) (key : Text) (value : JsValue) : Fields :=
  if key = PROTO ∧ PROTO ∉ fields.map Prod.fst then fields
  else ownOrder (setMember fields (key, value))

/-- `delete object[key]` -/
def deleteOwn (fields : Fields) (key : Text) : Fields :=
  fields.filter fun field => field.1 ≠ key

/-- The own enumerable properties of a value. -/
def ownProps : JsValue → Fields
  | .obj fields => fields
  | .arr items => items.zipIdx.map fun item => (digitsOf item.2, item.1)
  | .str text => text.zipIdx.map fun unit => (digitsOf unit.2, .str [unit.1])
  | _ => []

/-- `Object.assign(target, source)` -/
def assignOwn (target : Fields) (source : JsValue) : Fields :=
  (ownProps source).foldl (fun fields prop => setOwn fields prop.1 prop.2) target

/-- The members of an object that is no array. -/
def objectFields? : JsValue → Option Fields
  | .obj fields => some fields
  | _ => none

def keysOf (fields : Fields) : List Text := fields.map Prod.fst

/-! ### Keys stay distinct -/

theorem ownOrder_perm (fields : Fields) : (ownOrder fields).Perm fields := by
  unfold ownOrder
  refine List.Perm.trans ((List.perm_insertionSort _ _).append_right _) ?_
  exact List.filter_append_perm _ fields

theorem mem_setMember {fields : Fields} {key : Text} {value : JsValue}
    {field : Text × JsValue} :
    field ∈ setMember fields (key, value) ↔
      field = (key, value) ∨ field.1 ≠ key ∧ field ∈ fields := by
  unfold setMember
  split
  · next hmem =>
    obtain ⟨old, hold, hkey⟩ := List.mem_map.mp hmem
    constructor
    · intro h
      obtain ⟨source, hsource, rfl⟩ := List.mem_map.mp h
      split
      · exact Or.inl rfl
      · next hne => exact Or.inr ⟨hne, hsource⟩
    · rintro (rfl | ⟨hne, hfield⟩)
      · exact List.mem_map.mpr ⟨old, hold, if_pos hkey⟩
      · exact List.mem_map.mpr ⟨field, hfield, if_neg hne⟩
  · next hmem =>
    rw [List.mem_append, List.mem_singleton]
    constructor
    · rintro (hfield | rfl)
      · refine Or.inr ⟨?_, hfield⟩
        rintro rfl
        exact hmem (List.mem_map.mpr ⟨field, hfield, rfl⟩)
      · exact Or.inl rfl
    · rintro (rfl | ⟨-, hfield⟩)
      · exact Or.inr rfl
      · exact Or.inl hfield

theorem setMember_keys (fields : Fields) (key : Text) (value : JsValue) :
    keysOf (setMember fields (key, value)) =
      if key ∈ keysOf fields then keysOf fields else keysOf fields ++ [key] := by
  unfold setMember keysOf
  split
  · rw [List.map_map]
    refine List.map_congr_left fun field _ => ?_
    simp only [Function.comp_apply]
    split
    · next heq => exact heq.symm
    · rfl
  · simp

theorem setMember_nodup {fields : Fields} (h : (keysOf fields).Nodup) (key : Text)
    (value : JsValue) : (keysOf (setMember fields (key, value))).Nodup := by
  rw [setMember_keys]
  split
  · exact h
  · next hnew =>
    rw [List.nodup_append]
    refine ⟨h, List.nodup_singleton key, ?_⟩
    rintro other hother _ hkey rfl
    rw [List.mem_singleton.mp hkey] at hother
    exact hnew hother

/-- The property can be made by an assignment. -/
def Assignable (fields : Fields) (key : Text) : Prop :=
  key = PROTO → PROTO ∈ keysOf fields

theorem mem_setOwn {fields : Fields} {key : Text} (h : Assignable fields key)
    {value : JsValue} {field : Text × JsValue} :
    field ∈ setOwn fields key value ↔
      field = (key, value) ∨ field.1 ≠ key ∧ field ∈ fields := by
  rw [setOwn, if_neg (fun hproto => hproto.2 (h hproto.1)),
    (ownOrder_perm _).mem_iff, mem_setMember]

theorem setOwn_of_not_assignable {fields : Fields} {key : Text}
    (h : ¬ Assignable fields key) (value : JsValue) :
    setOwn fields key value = fields := by
  rw [Assignable, Classical.not_imp] at h
  exact if_pos h

theorem setOwn_nodup {fields : Fields} (h : (keysOf fields).Nodup) (key : Text)
    (value : JsValue) : (keysOf (setOwn fields key value)).Nodup := by
  unfold setOwn
  split
  · exact h
  · exact ((ownOrder_perm _).map Prod.fst).nodup_iff.mpr (setMember_nodup h key value)

theorem mem_deleteOwn {fields : Fields} {key : Text} {field : Text × JsValue} :
    field ∈ deleteOwn fields key ↔ field.1 ≠ key ∧ field ∈ fields := by
  simp [deleteOwn, and_comm]

theorem deleteOwn_nodup {fields : Fields} (h : (keysOf fields).Nodup) (key : Text) :
    (keysOf (deleteOwn fields key)).Nodup :=
  h.sublist (List.filter_sublist.map Prod.fst)

theorem assignOwn_nodup {target : Fields} (h : (keysOf target).Nodup)
    (source : JsValue) : (keysOf (assignOwn target source)).Nodup := by
  unfold assignOwn
  induction ownProps source generalizing target with
  | nil => exact h
  | cons prop props ih => exact ih (setOwn_nodup h prop.1 prop.2)

/-! ### Reading -/

theorem lookup_cons_if {β : Type} (name key : Text) (held : β)
    (fields : List (Text × β)) :
    ((name, held) :: fields).lookup key =
      if key = name then some held else fields.lookup key := by
  rw [List.lookup_cons]
  by_cases hname : key = name
  · simp [hname]
  · rw [beq_eq_false_iff_ne.mpr hname, if_neg hname]

/-- With distinct keys, the property read is the one listed. -/
theorem lookup_eq_some_iff_mem {fields : Fields} (h : (keysOf fields).Nodup)
    {key : Text} {value : JsValue} :
    fields.lookup key = some value ↔ (key, value) ∈ fields := by
  induction fields with
  | nil => simp
  | cons field fields ih =>
      obtain ⟨name, held⟩ := field
      rw [keysOf, List.map_cons, List.nodup_cons] at h
      rw [lookup_cons_if, List.mem_cons, Prod.mk.injEq]
      by_cases hname : key = name
      · subst hname
        have hnot : (key, value) ∉ fields := fun hmem =>
          h.1 (List.mem_map.mpr ⟨(key, value), hmem, rfl⟩)
        simp [hnot, eq_comm]
      · simpa [hname] using ih h.2

theorem lookup_eq_none_iff_keys {β : Type} {fields : List (Text × β)} {key : Text} :
    fields.lookup key = none ↔ key ∉ fields.map Prod.fst := by
  induction fields with
  | nil => simp
  | cons field fields ih =>
      obtain ⟨name, held⟩ := field
      rw [lookup_cons_if, List.map_cons, List.mem_cons, not_or]
      by_cases hname : key = name
      · simp [hname]
      · rw [if_neg hname, ih]
        exact (and_iff_right hname).symm

theorem lookup_setOwn {fields : Fields} (hnodup : (keysOf fields).Nodup)
    {key : Text} (h : Assignable fields key) (value : JsValue) (other : Text) :
    (setOwn fields key value).lookup other =
      if other = key then some value else fields.lookup other := by
  ext held
  rw [lookup_eq_some_iff_mem (setOwn_nodup hnodup key value), mem_setOwn h]
  split
  · next heq => simp [heq, eq_comm]
  · next hne =>
    rw [lookup_eq_some_iff_mem hnodup]
    simp [hne]

theorem lookup_deleteOwn (fields : Fields) (key other : Text) :
    (deleteOwn fields key).lookup other =
      if other = key then none else fields.lookup other := by
  induction fields with
  | nil => simp [deleteOwn]
  | cons field fields ih =>
      obtain ⟨name, held⟩ := field
      rw [deleteOwn] at ih
      rw [deleteOwn, List.filter_cons, lookup_cons_if]
      by_cases hname : name = key
      · subst hname
        rw [if_neg (by simp), ih]
        split <;> rfl
      · rw [if_pos (by simpa using hname), lookup_cons_if, ih]
        by_cases hother : other = name
        · subst hother
          simp [hname]
        · simp [hother]

/-! ### Copies -/

/-- The order of own properties, pair by pair. -/
def OwnBefore (left right : Text × JsValue) : Prop :=
  isArrayIndex right.1 = true →
    isArrayIndex left.1 = true ∧ decimal left.1 ≤ decimal right.1

theorem pairwise_ownOrder (fields : Fields) : (ownOrder fields).Pairwise OwnBefore := by
  unfold ownOrder
  rw [List.pairwise_append]
  refine ⟨?_, ?_, ?_⟩
  · refine (List.pairwise_insertionSort _ _).imp_of_mem ?_
    intro left right hleft _ hle _
    rw [List.mem_insertionSort, List.mem_filter] at hleft
    exact ⟨hleft.2, hle⟩
  · refine List.pairwise_of_forall_mem_list fun left _ right hright hindex => ?_
    rw [List.mem_filter] at hright
    simp [hindex] at hright
  · intro left _ right hright hindex
    rw [List.mem_filter] at hright
    simp [hindex] at hright

theorem filter_append_of_pairwise {fields : Fields} (h : fields.Pairwise OwnBefore) :
    fields.filter (isArrayIndex ·.1) ++ fields.filter (!isArrayIndex ·.1) = fields := by
  induction fields with
  | nil => rfl
  | cons field fields ih =>
      rw [List.pairwise_cons] at h
      by_cases hindex : isArrayIndex field.1 = true
      · rw [List.filter_cons_of_pos (by simpa using hindex),
          List.filter_cons_of_neg (by simp [hindex]), List.cons_append, ih h.2]
      · have hnames : ∀ later ∈ fields, isArrayIndex later.1 = false := by
          intro later hlater
          by_contra hlaterIndex
          rw [Bool.not_eq_false] at hlaterIndex
          exact hindex (h.1 later hlater hlaterIndex).1
        rw [List.filter_cons_of_neg (by simpa using hindex),
          List.filter_cons_of_pos (by simpa using hindex),
          List.filter_eq_nil_iff.mpr fun later hlater => by simp [hnames later hlater],
          List.filter_eq_self.mpr fun later hlater => by simp [hnames later hlater],
          List.nil_append]

theorem ownOrder_eq_self_iff {fields : Fields} :
    ownOrder fields = fields ↔ fields.Pairwise OwnBefore := by
  constructor
  · intro h
    exact h ▸ pairwise_ownOrder fields
  · intro h
    have hsorted : (fields.filter (isArrayIndex ·.1)).Pairwise
        fun left right => decimal left.1 ≤ decimal right.1 := by
      refine (h.sublist List.filter_sublist).imp_of_mem fun _ hright hbefore => ?_
      exact (hbefore (List.mem_filter.mp hright).2).2
    rw [ownOrder, hsorted.insertionSort_eq, filter_append_of_pairwise h]

/-- The members an object built by assignments can have. -/
structure Plain (fields : Fields) : Prop where
  nodup : (keysOf fields).Nodup
  ordered : fields.Pairwise OwnBefore
  proto : PROTO ∉ keysOf fields

theorem plain_nil : Plain [] := ⟨List.nodup_nil, List.Pairwise.nil, List.not_mem_nil⟩

theorem Plain.sublist {fields part : Fields} (h : Plain fields) (hsub : part.Sublist fields) :
    Plain part :=
  ⟨h.nodup.sublist (hsub.map Prod.fst), h.ordered.sublist hsub,
    fun hmem => h.proto ((hsub.map Prod.fst).subset hmem)⟩

theorem Plain.setOwn {fields : Fields} (h : Plain fields) (key : Text) (value : JsValue) :
    Plain (setOwn fields key value) := by
  by_cases hkey : key = PROTO
  · rw [setOwn_of_not_assignable fun hassignable => h.proto (hassignable hkey)]
    exact h
  · have hset : Json.setOwn fields key value = ownOrder (setMember fields (key, value)) :=
      if_neg fun hproto => hkey hproto.1
    refine ⟨setOwn_nodup h.nodup key value, hset ▸ pairwise_ownOrder _, fun hmem => ?_⟩
    obtain ⟨field, hfield, hname⟩ := List.mem_map.mp hmem
    rw [mem_setOwn fun hproto => absurd hproto hkey] at hfield
    rcases hfield with rfl | ⟨-, hfield⟩
    · exact hkey hname
    · exact h.proto (List.mem_map.mpr ⟨field, hfield, hname⟩)

theorem Plain.deleteOwn {fields : Fields} (h : Plain fields) (key : Text) :
    Plain (deleteOwn fields key) := h.sublist List.filter_sublist

theorem Plain.assignOwn {target : Fields} (h : Plain target) (source : JsValue) :
    Plain (assignOwn target source) := by
  unfold Json.assignOwn
  induction ownProps source generalizing target with
  | nil => exact h
  | cons prop props ih => exact ih (h.setOwn prop.1 prop.2)

theorem Plain.lookup_proto {fields : Fields} (h : Plain fields) : fields.lookup PROTO = none :=
  lookup_eq_none_iff_keys.mpr h.proto

/-- A copy has the same members in the same order. -/
theorem Plain.copy {fields : Fields} (h : Plain fields) :
    Json.assignOwn [] (.obj fields) = fields := by
  have hloop : ∀ later done : Fields, Plain (done ++ later) →
      later.foldl (fun fields prop => Json.setOwn fields prop.1 prop.2) done = done ++ later := by
    intro later
    induction later with
    | nil => simp
    | cons field later ih =>
        intro done hplain
        have hadded : Plain (done ++ [field]) := hplain.sublist (by simp)
        have hnew : field.1 ∉ done.map Prod.fst := by
          have hnodup := hadded.nodup
          rw [keysOf, List.map_append, List.nodup_append] at hnodup
          exact fun hmem => hnodup.2.2 _ hmem _ (by simp) rfl
        have hkey : field.1 ≠ PROTO := fun heq => hadded.proto (by simp [keysOf, ← heq])
        have hset : Json.setOwn done field.1 field.2 = done ++ [field] := by
          rw [Json.setOwn, if_neg fun hproto => hkey hproto.1, setMember_new hnew,
            ownOrder_eq_self_iff.mpr hadded.ordered]
        rw [List.foldl_cons, hset, ih _ (by simpa using hplain), List.append_assoc,
          List.singleton_append]
  exact hloop fields [] h

/-! ### Assigning what is there -/

theorem OwnOrdered.setOwn {fields : Fields} (h : OwnOrdered fields) (key : Text)
    (value : JsValue) : OwnOrdered (setOwn fields key value) := by
  refine ⟨setOwn_nodup h.1 key value, ?_⟩
  unfold Json.setOwn
  split
  · exact h.2
  · exact ownOrder_eq_self_iff.mpr (pairwise_ownOrder _)

theorem OwnOrdered.deleteOwn {fields : Fields} (h : OwnOrdered fields) (key : Text) :
    OwnOrdered (deleteOwn fields key) :=
  ⟨deleteOwn_nodup h.1 key, ownOrder_eq_self_iff.mpr
    ((ownOrder_eq_self_iff.mp h.2).sublist List.filter_sublist)⟩

theorem Plain.ownOrdered {fields : Fields} (h : Plain fields) : OwnOrdered fields :=
  ⟨h.nodup, ownOrder_eq_self_iff.mpr h.ordered⟩

/-- Assigning a property the value it has changes nothing. -/
theorem setOwn_self {fields : Fields} (h : OwnOrdered fields) {key : Text} {value : JsValue}
    (hvalue : fields.lookup key = some value) : setOwn fields key value = fields := by
  have hmem := (lookup_eq_some_iff_mem h.1).mp hvalue
  have hkey : key ∈ fields.map Prod.fst := List.mem_map.mpr ⟨_, hmem, rfl⟩
  have hsame : setMember fields (key, value) = fields := by
    rw [setMember, if_pos hkey]
    refine (List.map_congr_left fun field hfield => ?_).trans (List.map_id fields)
    split
    · next heq =>
      have hheld := (lookup_eq_some_iff_mem h.1).mpr hfield
      rw [heq, hvalue, Option.some.injEq] at hheld
      exact Prod.ext heq.symm hheld
    · rfl
  rw [setOwn, hsame, h.2, ite_self]

theorem deleteOwn_self {fields : Fields} {key : Text} (h : fields.lookup key = none) :
    deleteOwn fields key = fields := by
  rw [lookup_eq_none_iff_keys] at h
  refine List.filter_eq_self.mpr fun field hfield => decide_eq_true ?_
  exact fun heq => h (List.mem_map.mpr ⟨field, hfield, heq⟩)

theorem Plain.assignOwn_self {fields : Fields} (h : Plain fields) :
    Json.assignOwn fields (.obj fields) = fields := by
  have hloop : ∀ later : Fields, later ⊆ fields →
      later.foldl (fun fields prop => Json.setOwn fields prop.1 prop.2) fields = fields := by
    intro later
    induction later with
    | nil => exact fun _ => rfl
    | cons field later ih =>
        intro hsub
        rw [List.cons_subset] at hsub
        rw [List.foldl_cons, setOwn_self h.ownOrdered
          ((lookup_eq_some_iff_mem h.nodup).mpr hsub.1), ih hsub.2]
  exact hloop fields (List.Subset.refl fields)

theorem ownProps_nodup {value : JsValue} (h : Storable value) :
    (keysOf (ownProps value)).Nodup := by
  have hindices : ∀ {α : Type} (items : List α) (held : α → JsValue),
      (keysOf (items.zipIdx.map fun item => (digitsOf item.2, held item.1))).Nodup := by
    intro α items held
    have hkeys : keysOf (items.zipIdx.map fun item => (digitsOf item.2, held item.1)) =
        (items.zipIdx.map Prod.snd).map digitsOf := by
      rw [keysOf, List.map_map, List.map_map]
      rfl
    rw [hkeys, List.zipIdx_map_snd]
    refine List.Nodup.map (fun first second heq => ?_) (List.nodup_range' ..)
    rw [← decimal_digitsOf first, heq, decimal_digitsOf]
  cases h with
  | obj fields hordered _ => exact hordered.1
  | arr items _ => exact hindices items id
  | str text => exact hindices text fun unit => .str [unit]
  | _ => exact List.nodup_nil

/-- Of the assigned values and those that were there, the assigned ones are read. -/
theorem lookup_assignOwn {target : Fields} (htarget : (keysOf target).Nodup)
    {source : JsValue} (hsource : (keysOf (ownProps source)).Nodup) {name : Text}
    (hname : name ≠ PROTO) :
    (assignOwn target source).lookup name =
      ((ownProps source).lookup name).or (target.lookup name) := by
  unfold assignOwn
  generalize ownProps source = props at hsource
  induction props generalizing target with
  | nil => rfl
  | cons prop props ih =>
      rw [keysOf, List.map_cons, List.nodup_cons] at hsource
      rw [List.foldl_cons, ih (setOwn_nodup htarget _ _) hsource.2, lookup_cons_if]
      by_cases hprop : name = prop.1
      · subst hprop
        rw [lookup_setOwn htarget (fun hproto => absurd hproto hname), if_pos rfl, if_pos rfl,
          lookup_eq_none_iff_keys.mpr hsource.1]
        rfl
      · rw [if_neg hprop]
        by_cases hassignable : Assignable target prop.1
        · rw [lookup_setOwn htarget hassignable, if_neg hprop]
        · rw [setOwn_of_not_assignable hassignable]

/-! ### Storable objects -/

theorem storable_obj_iff {fields : Fields} :
    Storable (.obj fields) ↔ OwnOrdered fields ∧ ∀ field ∈ fields, Storable field.2 := by
  constructor
  · intro h
    cases h with
    | obj fields hordered hall => exact ⟨hordered, hall⟩
  · exact fun h => .obj fields h.1 h.2

theorem Storable.setOwn {fields : Fields} (h : Storable (.obj fields)) (key : Text)
    {value : JsValue} (hvalue : Storable value) : Storable (.obj (setOwn fields key value)) := by
  rw [storable_obj_iff] at h ⊢
  refine ⟨h.1.setOwn key value, fun field hfield => ?_⟩
  by_cases hassignable : Assignable fields key
  · rcases (mem_setOwn hassignable).mp hfield with rfl | ⟨-, hold⟩
    · exact hvalue
    · exact h.2 field hold
  · rw [setOwn_of_not_assignable hassignable] at hfield
    exact h.2 field hfield

theorem Storable.deleteOwn {fields : Fields} (h : Storable (.obj fields)) (key : Text) :
    Storable (.obj (deleteOwn fields key)) := by
  rw [storable_obj_iff] at h ⊢
  exact ⟨h.1.deleteOwn key, fun field hfield => h.2 field (mem_deleteOwn.mp hfield).2⟩

theorem Storable.of_mem_ownProps {value : JsValue} (h : Storable value)
    {prop : Text × JsValue} (hprop : prop ∈ ownProps value) : Storable prop.2 := by
  cases h with
  | obj fields _ hall => exact hall prop hprop
  | arr items hall =>
      obtain ⟨item, hitem, rfl⟩ := List.mem_map.mp hprop
      exact hall item.1 (List.fst_mem_of_mem_zipIdx hitem)
  | str text =>
      obtain ⟨unit, -, rfl⟩ := List.mem_map.mp hprop
      exact .str [unit.1]
  | _ => cases hprop

theorem Storable.assignOwn {target : Fields} (h : Storable (.obj target)) {source : JsValue}
    (hsource : Storable source) : Storable (.obj (assignOwn target source)) := by
  have hprops : ∀ prop ∈ ownProps source, Storable prop.2 :=
    fun prop hprop => hsource.of_mem_ownProps hprop
  unfold Json.assignOwn
  generalize ownProps source = props at hprops
  induction props generalizing target with
  | nil => exact h
  | cons prop props ih =>
      rw [List.forall_mem_cons] at hprops
      exact ih (h.setOwn prop.1 hprops.1) hprops.2

theorem storable_empty : Storable (.obj []) := .obj [] plain_nil.ownOrdered (by simp)

theorem Storable.of_lookup {fields : Fields} (h : Storable (.obj fields)) {key : Text}
    {value : JsValue} (hvalue : fields.lookup key = some value) : Storable value := by
  rw [storable_obj_iff] at h
  exact h.2 _ ((lookup_eq_some_iff_mem h.1.1).mp hvalue)

end Json

end CybexOS
