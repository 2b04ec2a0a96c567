/-
Programs that change a state by effects and may be stopped between any two of
them: the states they pass, how they end, and rules for reasoning about both.
-/
import Mathlib.Data.List.Chain

namespace CybexOS

/-- What a program does from a state: the states after each of its effects and
the way it ends. -/
structure Outcome (σ ε α : Type) where
  moments : List σ
  result : Except ε α

/-- A program over states `σ` that fails with an `ε` or returns an `α`. -/
def Program (σ ε α : Type) : Type := σ → Outcome σ ε α

namespace Program

variable {σ ε α β : Type}

/-- The states after each effect. -/
def moments (program : Program σ ε α) (s : σ) : List σ := (program s).moments

def result (program : Program σ ε α) (s : σ) : Except ε α := (program s).result

/-- The state a program leaves when nothing stops it. -/
def last (program : Program σ ε α) (s : σ) : σ := (program.moments s).getLastD s

/-- The state a program leaves when it is killed after some effects, or never. -/
def leaves (program : Program σ ε α) (killed : Option ℕ) (s : σ) : σ :=
  match killed with
  | none => program.last s
  | some effects => ((program.moments s).take effects).getLastD s

/-- Change the state at one stroke. -/
def effect (change : σ → σ) : Program σ ε Unit := fun s => ⟨[change s], .ok ()⟩

/-- Look at the state. -/
def look (see : σ → α) : Program σ ε α := fun s => ⟨[], .ok (see s)⟩

def fail (error : ε) : Program σ ε α := fun _ => ⟨[], .error error⟩

/-- A computation that touches no state. -/
def ofExcept (outcome : Except ε α) : Program σ ε α := fun _ => ⟨[], outcome⟩

/-- Go on with the state a program left, by the way it ended. -/
def andThen (program : Program σ ε α) (next : Except ε α → Program σ ε β) :
    Program σ ε β := fun s =>
  let rest := next (program s).result ((program s).moments.getLastD s)
  ⟨(program s).moments ++ rest.moments, rest.result⟩

instance : Monad (Program σ ε) where
  pure value := fun _ => ⟨[], .ok value⟩
  bind program next := program.andThen fun
    | .ok value => next value
    | .error error => fail error

theorem bind_apply (program : Program σ ε α) (next : α → Program σ ε β) (s : σ) :
    (program >>= next) s =
      match (program s).result with
      | .ok value =>
          ⟨(program s).moments ++ (next value ((program s).moments.getLastD s)).moments,
            (next value ((program s).moments.getLastD s)).result⟩
      | .error error => ⟨(program s).moments, .error error⟩ := by
  change program.andThen _ s = _
  unfold andThen
  cases (program s).result with
  | ok value => rfl
  | error error => simp [fail]

/-- Handle a failure. -/
def catching (program : Program σ ε α) (handler : ε → Program σ ε α) : Program σ ε α :=
  program.andThen fun
    | .ok value => pure value
    | .error error => handler error

/-- Go through a list in order. -/
def forEach {ι : Type} (items : List ι) (body : ι → Program σ ε Unit) : Program σ ε Unit :=
  match items with
  | [] => pure ()
  | item :: items => do
      body item
      forEach items body

/-! ### Where a program leads -/

/-- From this state, consecutive moments are related and the end is as
described. -/
def Leads (step : σ → σ → Prop) (post : Except ε α → σ → Prop) (program : Program σ ε α)
    (s : σ) : Prop :=
  List.IsChain step (s :: program.moments s) ∧ post (program.result s) (program.last s)

theorem isChain_append_iff {step : σ → σ → Prop} {s : σ} {before after : List σ} :
    List.IsChain step (s :: (before ++ after)) ↔
      List.IsChain step (s :: before) ∧ List.IsChain step (before.getLastD s :: after) := by
  induction before generalizing s with
  | nil => simp
  | cons head tail ih =>
      rw [List.cons_append, List.isChain_cons_cons, ih, List.isChain_cons_cons,
        List.getLastD_cons, and_assoc]

theorem getLastD_append (s : σ) (before after : List σ) :
    (before ++ after).getLastD s = after.getLastD (before.getLastD s) := by
  induction before generalizing s with
  | nil => rfl
  | cons head tail ih => rw [List.cons_append, List.getLastD_cons, ih, List.getLastD_cons]

instance : LawfulMonad (Program σ ε) :=
  LawfulMonad.mk' (Program σ ε)
    (by
      intro α program
      funext s
      change (program >>= pure) s = program s
      rw [bind_apply]
      cases hend : (program s).result <;> simp [pure, ← hend])
    (by
      intro α β value next
      funext s
      rw [bind_apply]
      rfl)
    (by
      intro α β γ program next rest
      funext s
      simp only [bind_apply]
      cases (program s).result with
      | error error => rfl
      | ok value =>
          dsimp only
          cases (next value ((program s).moments.getLastD s)).result with
          | error error => rfl
          | ok value' => simp only [getLastD_append, List.append_assoc])

section

variable {step : σ → σ → Prop} {post : Except ε β → σ → Prop} {s : σ}

theorem leads_andThen {program : Program σ ε α} {next : Except ε α → Program σ ε β} :
    (program.andThen next).Leads step post s ↔
      program.Leads step (fun result t => (next result).Leads step post t) s := by
  simp only [Leads, moments, result, last, andThen, isChain_append_iff, getLastD_append,
    and_assoc]

@[simp]
theorem leads_pure {value : β} :
    (pure value : Program σ ε β).Leads step post s ↔ post (.ok value) s := by
  simp [Leads, moments, result, last, pure]

@[simp]
theorem leads_fail {error : ε} :
    (fail error : Program σ ε β).Leads step post s ↔ post (.error error) s := by
  simp [Leads, moments, result, last, fail]

@[simp]
theorem leads_ofExcept {outcome : Except ε β} :
    (ofExcept outcome : Program σ ε β).Leads step post s ↔ post outcome s := by
  simp [Leads, moments, result, last, ofExcept]

@[simp]
theorem leads_look {see : σ → β} :
    (look see : Program σ ε β).Leads step post s ↔ post (.ok (see s)) s := by
  simp [Leads, moments, result, last, look]

@[simp]
theorem leads_effect {change : σ → σ} {post : Except ε Unit → σ → Prop} :
    (effect change : Program σ ε Unit).Leads step post s ↔
      step s (change s) ∧ post (.ok ()) (change s) := by
  simp [Leads, moments, result, last, effect]

@[simp]
theorem leads_bind {program : Program σ ε α} {next : α → Program σ ε β} :
    (program >>= next).Leads step post s ↔
      program.Leads step (fun
        | .ok value, t => (next value).Leads step post t
        | .error error, t => post (.error error) t) s := by
  change (program.andThen _).Leads step post s ↔ _
  rw [leads_andThen]
  refine and_congr_right fun _ => ?_
  cases program.result s <;> simp

theorem leads_look_bind {see : σ → α} {next : α → Program σ ε β} :
    (look see >>= next).Leads step post s ↔ (next (see s)).Leads step post s := by
  rw [leads_bind, leads_look]

theorem leads_effect_bind {change : σ → σ} {next : Unit → Program σ ε β} :
    (effect change >>= next).Leads step post s ↔
      step s (change s) ∧ (next ()).Leads step post (change s) := by
  rw [leads_bind, leads_effect]

/-- An end of the first program leads to the second or is the end. -/
theorem Leads.bind {program : Program σ ε α} {next : α → Program σ ε β}
    {mid : Except ε α → σ → Prop} (h : program.Leads step mid s)
    (hnext : ∀ value t, mid (.ok value) t → (next value).Leads step post t)
    (herror : ∀ error t, mid (.error error) t → post (.error error) t) :
    (program >>= next).Leads step post s := by
  refine leads_bind.mpr ⟨h.1, ?_⟩
  have hmid := h.2
  revert hmid
  cases program.result s with
  | ok value => exact hnext value _
  | error error => exact herror error _

@[simp]
theorem leads_catching {program : Program σ ε β} {handler : ε → Program σ ε β} :
    (program.catching handler).Leads step post s ↔
      program.Leads step (fun
        | .ok value, t => post (.ok value) t
        | .error error, t => (handler error).Leads step post t) s := by
  rw [catching, leads_andThen]
  refine and_congr_right fun _ => ?_
  cases program.result s <;> simp

@[simp]
theorem leads_ite {condition : Prop} [Decidable condition] {yes no : Program σ ε β} :
    (if condition then yes else no).Leads step post s ↔
      if condition then yes.Leads step post s else no.Leads step post s := by
  split_ifs <;> rfl

theorem Leads.mono {program : Program σ ε β} (h : program.Leads step post s)
    {step' : σ → σ → Prop} {post' : Except ε β → σ → Prop} (hstep : ∀ s t, step s t → step' s t)
    (hpost : ∀ result t, post result t → post' result t) : program.Leads step' post' s :=
  ⟨h.1.imp hstep, hpost _ _ h.2⟩

theorem Leads.imp {program : Program σ ε β} (h : program.Leads step post s)
    {post' : Except ε β → σ → Prop} (hpost : ∀ result t, post result t → post' result t) :
    program.Leads step post' s :=
  h.mono (fun _ _ => id) hpost

/-- An invariant of the body is one of the loop. -/
theorem leads_forEach {ι : Type} (invariant : σ → Prop) {items : List ι}
    {body : ι → Program σ ε Unit} (h : invariant s)
    (hbody : ∀ item ∈ items, ∀ t, invariant t →
      (body item).Leads step (fun _ u => invariant u) t) :
    (forEach items body).Leads step (fun _ t => invariant t) s := by
  induction items generalizing s with
  | nil => exact leads_pure.mpr h
  | cons item items ih =>
      refine leads_bind.mpr (Leads.imp (hbody item List.mem_cons_self s h) ?_)
      intro result t ht
      cases result with
      | ok value => exact ih ht fun other hother => hbody other (List.mem_cons_of_mem _ hother)
      | error error => exact ht

/-- A fold of programs, by an invariant of the value and the state. -/
theorem leads_foldlM {ι : Type} (invariant : β → σ → Prop) {items : List ι}
    {body : β → ι → Program σ ε β} {value : β} (h : invariant value s)
    (hbody : ∀ item ∈ items, ∀ value t, invariant value t → (body value item).Leads step
      (fun result u => ∀ value', result = .ok value' → invariant value' u) t) :
    (items.foldlM body value).Leads step
      (fun result t => ∀ value', result = .ok value' → invariant value' t) s := by
  induction items generalizing value s with
  | nil =>
      rw [List.foldlM_nil, leads_pure]
      intro value' hvalue
      rw [← Except.ok.inj hvalue]
      exact h
  | cons item items ih =>
      rw [List.foldlM_cons]
      refine Leads.bind (hbody item List.mem_cons_self value s h) (fun value' t ht => ?_)
        fun error t _ value' hvalue => (by cases hvalue)
      exact ih (ht value' rfl) fun other hother => hbody other (List.mem_cons_of_mem _ hother)

/-- Where each item changes what is seen in its way, the loop folds the changes. -/
theorem leads_forEach_foldl {ι κ : Type} (see : σ → κ) (change : κ → ι → κ) {items : List ι}
    {body : ι → Program σ ε Unit}
    (hbody : ∀ item ∈ items, ∀ t, (body item).Leads step
      (fun result u => result = .ok () ∧ see u = change (see t) item) t) :
    (forEach items body).Leads step
      (fun result t => result = .ok () ∧ see t = items.foldl change (see s)) s := by
  induction items generalizing s with
  | nil => exact leads_pure.mpr ⟨rfl, rfl⟩
  | cons item items ih =>
      refine leads_bind.mpr (Leads.imp (hbody item List.mem_cons_self s) ?_)
      rintro (error | value) t ⟨hresult, ht⟩
      · cases hresult
      · rw [List.foldl_cons, ← ht]
        exact ih fun other hother => hbody other (List.mem_cons_of_mem _ hother)

/-- A loop that brings each item about and spoils no other brings all about. -/
theorem leads_forEach_all {ι : Type} (invariant : σ → Prop) (done : ι → σ → Prop)
    {items : List ι} {body : ι → Program σ ε Unit} (h : invariant s)
    (hbody : ∀ item ∈ items, ∀ t, invariant t →
      (body item).Leads step (fun result u => invariant u ∧
        (∀ value, result = .ok value → done item u) ∧
        ∀ other, other ≠ item → done other t → done other u) t) :
    (forEach items body).Leads step (fun result t => invariant t ∧
      ∀ value, result = .ok value → ∀ item, item ∈ items ∨ done item s → done item t) s := by
  induction items generalizing s with
  | nil => exact leads_pure.mpr ⟨h, fun _ _ item hitem => by simpa using hitem⟩
  | cons item items ih =>
      refine leads_bind.mpr (Leads.imp (hbody item List.mem_cons_self s h) ?_)
      rintro (error | value) t ⟨ht, hdone, hothers⟩
      · exact ⟨ht, fun _ hresult => by cases hresult⟩
      · refine Leads.imp (ih ht fun other hother =>
          hbody other (List.mem_cons_of_mem _ hother)) ?_
        rintro result u ⟨hu, hall⟩
        refine ⟨hu, fun value' hresult other hother => hall value' hresult other ?_⟩
        rcases eq_or_ne other item with rfl | hne
        · exact Or.inr (hdone value rfl)
        · rcases hother with hmem | hheld
          · exact Or.inl ((List.mem_cons.mp hmem).resolve_left hne)
          · exact Or.inr (hothers other hne hheld)

/-- A list read item by item, without a change; only good items can be read. -/
theorem leads_mapM {ι : Type} (see : ι → β) (good : ι → Prop) {items : List ι}
    {body : ι → Program σ ε β}
    (hbody : ∀ item ∈ items, (body item).Leads step (fun result t => t = s ∧
      ∀ value, result = .ok value → value = see item ∧ good item) s) :
    (items.mapM body).Leads step (fun result t => t = s ∧
      ∀ values, result = .ok values → values = items.map see ∧ ∀ item ∈ items, good item) s := by
  induction items with
  | nil => simp
  | cons item items ih =>
      rw [List.mapM_cons]
      refine Leads.bind (hbody item List.mem_cons_self) ?_ ?_
      · rintro value t ⟨rfl, hvalue⟩
        obtain ⟨hsee, hgood⟩ := hvalue value rfl
        refine Leads.bind (ih fun other hother => hbody other (List.mem_cons_of_mem _ hother)) ?_ ?_
        · rintro values t ⟨rfl, hvalues⟩
          obtain ⟨hsees, hgoods⟩ := hvalues values rfl
          rw [leads_pure]
          refine ⟨rfl, fun all hall => ⟨?_, List.forall_mem_cons.mpr ⟨hgood, hgoods⟩⟩⟩
          rw [← Except.ok.inj hall, hsee, hsees, List.map_cons]
        · rintro error t ⟨rfl, -⟩
          exact ⟨rfl, fun _ h => by cases h⟩
      · rintro error t ⟨rfl, -⟩
        exact ⟨rfl, fun _ h => by cases h⟩

/-- What the steps keep holds at the end. -/
theorem Leads.and_last {program : Program σ ε β} (h : program.Leads step post s)
    (invariant : σ → Prop) (hstep : ∀ s t, step s t → invariant s → invariant t)
    (hs : invariant s) :
    program.Leads step (fun result t => post result t ∧ invariant t) s := by
  obtain ⟨hchain, hpost⟩ := h
  refine ⟨hchain, hpost, ?_⟩
  unfold last
  clear hpost
  generalize program.moments s = passed at hchain ⊢
  induction passed generalizing s with
  | nil => exact hs
  | cons head tail ih =>
      rw [List.isChain_cons_cons] at hchain
      rw [List.getLastD_cons]
      exact ih (hstep s head hchain.1 hs) hchain.2

/-- Every step is one from and to states of an invariant that the steps keep. -/
theorem Leads.along {program : Program σ ε β} (h : program.Leads step post s)
    (invariant : σ → Prop) (hstep : ∀ s t, step s t → invariant s → invariant t)
    (hs : invariant s) :
    program.Leads (fun s t => step s t ∧ invariant s ∧ invariant t)
      (fun result t => post result t ∧ invariant t) s := by
  have hchain : ∀ (passed : List σ) (s : σ), invariant s → List.IsChain step (s :: passed) →
      List.IsChain (fun s t => step s t ∧ invariant s ∧ invariant t) (s :: passed) := by
    intro passed
    induction passed with
    | nil => exact fun s _ _ => List.IsChain.singleton s
    | cons head tail ih =>
        intro s hs hsteps
        rw [List.isChain_cons_cons] at hsteps
        have hhead := hstep s head hsteps.1 hs
        exact List.isChain_cons_cons.mpr ⟨⟨hsteps.1, hs, hhead⟩, ih head hhead hsteps.2⟩
  exact ⟨hchain _ s hs h.1, (h.and_last invariant hstep hs).2⟩

/-- What the steps keep holds at every moment. -/
theorem Leads.moments {program : Program σ ε β} (h : program.Leads step post s)
    (invariant : σ → Prop) (hstep : ∀ s t, step s t → invariant s → invariant t)
    (hs : invariant s) : ∀ t ∈ program.moments s, invariant t := by
  obtain ⟨hchain, -⟩ := h
  generalize program.moments s = passed at hchain ⊢
  induction passed generalizing s with
  | nil => simp
  | cons head tail ih =>
      rw [List.isChain_cons_cons] at hchain
      have hhead := hstep s head hchain.1 hs
      exact List.forall_mem_cons.mpr ⟨hhead, ih hhead hchain.2⟩

/-- The states left by stopping a chain at one effect and at the next. -/
theorem isChain_take {step : σ → σ → Prop} {s : σ} {passed : List σ}
    (h : List.IsChain step (s :: passed)) {count : ℕ} (hcount : count < passed.length) :
    step ((passed.take count).getLastD s) ((passed.take (count + 1)).getLastD s) := by
  induction passed generalizing s count with
  | nil => cases hcount
  | cons head tail ih =>
      rw [List.isChain_cons_cons] at h
      cases count with
      | zero => simpa using h.1
      | succ count =>
          rw [List.take_succ_cons, List.take_succ_cons, List.getLastD_cons, List.getLastD_cons]
          exact ih h.2 (Nat.lt_of_succ_lt_succ hcount)

theorem getLastD_mem (s : σ) (passed : List σ) : passed.getLastD s ∈ s :: passed := by
  induction passed generalizing s with
  | nil => exact List.mem_cons_self
  | cons head tail ih =>
      rw [List.getLastD_cons]
      exact List.mem_cons_of_mem _ (ih head)

theorem Leads.moments_of {program : Program σ ε β} {invariant : σ → Prop}
    (h : program.Leads (fun _ t => invariant t) post s) :
    ∀ t ∈ program.moments s, invariant t := by
  obtain ⟨hchain, -⟩ := h
  generalize program.moments s = passed at hchain ⊢
  induction passed generalizing s with
  | nil => simp
  | cons head tail ih =>
      rw [List.isChain_cons_cons] at hchain
      exact List.forall_mem_cons.mpr ⟨hchain.1, ih hchain.2⟩

/-- What holds at every moment holds of what a killed program leaves. -/
theorem leaves_of_moments {program : Program σ ε β} {invariant : σ → Prop} (hs : invariant s)
    (h : ∀ t ∈ program.moments s, invariant t) (killed : Option ℕ) :
    invariant (program.leaves killed s) := by
  have hall : ∀ passed : List σ, passed ⊆ program.moments s → invariant (passed.getLastD s) := by
    intro passed hpassed
    rcases List.mem_cons.mp (getLastD_mem s passed) with hsame | hmember
    · rw [hsame]
      exact hs
    · exact h _ (hpassed hmember)
  cases killed with
  | none => exact hall _ (List.Subset.refl _)
  | some effects => exact hall _ (List.take_subset _ _)

/-- What the steps keep holds at every moment, and the end is as it was. -/
theorem Leads.always {program : Program σ ε β} (h : program.Leads step post s)
    {invariant : σ → Prop} (hstep : ∀ s t, step s t → invariant s → invariant t)
    (hs : invariant s) : program.Leads (fun _ t => invariant t) post s := by
  have hchain : ∀ passed : List σ, ∀ t, (∀ u ∈ passed, invariant u) →
      List.IsChain (fun _ u => invariant u) (t :: passed) := by
    intro passed
    induction passed with
    | nil => exact fun t _ => List.IsChain.singleton t
    | cons head tail ih =>
        intro t hall
        obtain ⟨hhead, htail⟩ := List.forall_mem_cons.mp hall
        exact List.isChain_cons_cons.mpr ⟨hhead, ih head htail⟩
  exact ⟨hchain _ _ (h.moments invariant hstep hs), h.2⟩

theorem look_bind_apply {see : σ → α} {next : α → Program σ ε β} :
    (look see >>= next) s = next (see s) s := by
  rw [bind_apply]
  rfl

theorem effect_bind_apply {change : σ → σ} {next : Unit → Program σ ε β} :
    (effect change >>= next) s =
      ⟨change s :: (next () (change s)).moments, (next () (change s)).result⟩ := by
  rw [bind_apply]
  rfl

theorem catching_effect_bind {change : σ → σ} {next : Unit → Program σ ε β}
    {handler : ε → Program σ ε β} :
    (effect change >>= next).catching handler =
      effect change >>= fun _ => (next ()).catching handler := by
  funext s
  rw [effect_bind_apply]
  unfold catching andThen
  rw [effect_bind_apply]
  dsimp only
  rw [List.getLastD_cons, List.cons_append]

/-- What a program leaves that passes two moments of its own and others after. -/
theorem leaves_of_two {program : Program σ ε β} {invariant : σ → Prop} {first second : σ}
    {rest : List σ} (hmoments : program.moments s = first :: second :: rest) (hs : invariant s)
    (hrest : ∀ t ∈ rest, invariant t) (hne : rest ≠ []) {killed : Option ℕ}
    (hfirst : killed ≠ some 1) (hsecond : killed ≠ some 2) :
    invariant (program.leaves killed s) := by
  obtain ⟨third, others, rfl⟩ := List.exists_cons_of_ne_nil hne
  unfold leaves last
  rw [hmoments]
  rcases killed with _ | _ | _ | _ | effects
  · refine hrest _ ?_
    simp only [List.getLastD_cons]
    exact getLastD_mem third others
  · exact hs
  · exact absurd rfl hfirst
  · exact absurd rfl hsecond
  · refine hrest _ ?_
    simp only [List.take_succ_cons, List.getLastD_cons]
    rcases List.mem_cons.mp (getLastD_mem third (others.take effects)) with hsame | hmember
    · rw [hsame]
      exact List.mem_cons_self
    · exact List.mem_cons_of_mem _ (List.mem_of_mem_take hmember)

theorem leaves_one {change : σ → σ} {next : Unit → Program σ ε β} :
    (effect change >>= next).leaves (some 1) s = change s := by
  unfold leaves moments
  rw [effect_bind_apply]
  rfl

end

/-! ### What every effect keeps -/

section

variable {kept : σ → σ → Prop}

/-- Whatever the state, each effect and the whole of them keep something. -/
def Keeps (kept : σ → σ → Prop) (program : Program σ ε α) : Prop :=
  ∀ s, program.Leads kept (fun _ t => kept s t) s

theorem keeps_effect {change : σ → σ} (h : ∀ s, kept s (change s)) :
    (effect change : Program σ ε Unit).Keeps kept :=
  fun s => leads_effect.mpr ⟨h s, h s⟩

variable (hrefl : ∀ s, kept s s)

include hrefl

theorem keeps_pure {value : α} : (pure value : Program σ ε α).Keeps kept :=
  fun s => leads_pure.mpr (hrefl s)

theorem keeps_fail {error : ε} : (fail error : Program σ ε α).Keeps kept :=
  fun s => leads_fail.mpr (hrefl s)

theorem keeps_look {see : σ → α} : (look see : Program σ ε α).Keeps kept :=
  fun s => leads_look.mpr (hrefl s)

theorem keeps_ofExcept {outcome : Except ε α} : (ofExcept outcome : Program σ ε α).Keeps kept :=
  fun s => leads_ofExcept.mpr (hrefl s)

omit hrefl

theorem Keeps.bind (htrans : ∀ s t u, kept s t → kept t u → kept s u) {program : Program σ ε α}
    {next : α → Program σ ε β} (h : program.Keeps kept) (hnext : ∀ value, (next value).Keeps kept) :
    (program >>= next).Keeps kept := by
  intro s
  refine Leads.bind (h s) (fun value t ht => ?_) (fun _ _ => id)
  exact (hnext value t).imp fun _ u hu => htrans s t u ht hu

end

end Program

end CybexOS
