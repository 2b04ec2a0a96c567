/-
A conversation whose prompts Hermes may have accepted keeps its stored session,
as long as its mark is not taken back, replaced or lost while they are under way.
-/
import CybexOS.Hermes.Sessions

namespace CybexOS

namespace Hermes

namespace Bridge

/-- The mark must tell of the prompt: it was or may have been accepted, or is in
flight to the local gateway. -/
def Counts (b : Bridge) (prompt : Prompt) : Prop :=
  match prompt.delivery with
  | .inFlight => b.remote = false
  | .rejected => False
  | _ => True

def NoneCount (b : Bridge) : Prop := ∀ prompt ∈ b.prompts, ¬ b.Counts prompt

/-- The registry's row is marked, in memory and on disk, when a prompt counts. -/
def Kept (b : Bridge) : Prop :=
  ¬ b.NoneCount → (b.rows b.row).hasMessages = true ∧ b.disk.hasMessages = true

/-- The event does not lose the mark of a prompt that may have been accepted. -/
def Guarded (b : Bridge) : Happening → Prop
  -- a missing session is not reported to a row that was left behind, nor while
  -- the WebUI has not answered a prompt
  | .resumeFails missing => ∀ row, b.ensuring = some (row, .asking) → missing = true →
      (b.rows row).hasMessages = true ∨
        (row = b.row ∧ (b.remote = true → ∀ sent ∈ b.prompts, sent.delivery ≠ .inFlight))
  -- the answer to a prompt finds its row in the registry
  | .accepted prompt | .ambiguous prompt => b.remote = true →
      ∀ sent, b.prompts[prompt]? = some sent →
        sent.row = b.row ∨ (b.rows b.row).hasMessages = true
  | .nameless _ => (b.rows b.row).hasMessages = true ∧ b.disk.hasMessages = true
  -- no other prompt counts when a rejection takes the mark back
  | .rejected prompt activeStream took => ∀ sent, b.prompts[prompt]? = some sent →
      took = false ∧ (sent.previous = true ∨ (b.remote = true ∧ activeStream = true) ∨
        sent.row ≠ b.row ∨ ∀ other sent', other ≠ prompt → b.prompts[other]? = some sent' →
          ¬ b.Counts sent')
  | .refreshed hasMessages _ => hasMessages = true ∨ b.NoneCount
  | .restarts => b.remote = true → b.disk.hasMessages = true ∨
      ∀ sent ∈ b.prompts, sent.delivery ≠ .inFlight
  | _ => True

/-! ### What marks a row -/

@[simp]
theorem save_rows (b : Bridge) : b.save.rows = b.rows := rfl

@[simp]
theorem save_row (b : Bridge) : b.save.row = b.row := rfl

@[simp]
theorem save_disk (b : Bridge) : b.save.disk = b.rows b.row := rfl

theorem put_hasMessages (b : Bridge) {row : Nat} {value : Row}
    (h : value.hasMessages = (b.rows row).hasMessages) (other : Nat) :
    ((b.put row value).rows other).hasMessages = (b.rows other).hasMessages := by
  unfold put
  dsimp only
  by_cases hsame : other = row
  · rw [hsame, Function.update_self, h]
  · rw [Function.update_of_ne hsame]

theorem mark_true (b : Bridge) (row : Nat) {other : Nat}
    (h : row = other ∨ (b.rows other).hasMessages = true) :
    ((b.mark row true).rows other).hasMessages = true := by
  unfold mark put
  dsimp only
  by_cases hsame : other = row
  · rw [hsame, Function.update_self]
  · rw [Function.update_of_ne hsame]
    exact h.resolve_left (Ne.symm hsame)

theorem mark_of_ne (b : Bridge) {row other : Nat} (h : row ≠ other) (value : Bool) :
    (b.mark row value).rows other = b.rows other :=
  Function.update_of_ne h.symm _ _

/-- Saving a marked row keeps the mark. -/
theorem Kept.of_marked {b : Bridge} (h : (b.rows b.row).hasMessages = true)
    (hdisk : b.disk.hasMessages = true) : b.Kept :=
  fun _ => ⟨h, hdisk⟩

theorem Kept.of_save {b : Bridge} (h : ¬ b.NoneCount → (b.rows b.row).hasMessages = true) :
    b.save.Kept :=
  fun hcount => ⟨h hcount, h hcount⟩

/-! ### What counts -/

theorem mem_modify {α : Type} {items : List α} {index : Nat} {change : α → α} {item : α}
    (h : item ∈ items.modify index change) :
    (∃ old, items[index]? = some old ∧ item = change old) ∨
      ∃ other, other ≠ index ∧ items[other]? = some item := by
  obtain ⟨at_, hat⟩ := List.mem_iff_getElem?.mp h
  rw [List.getElem?_modify] at hat
  by_cases hsame : index = at_
  · subst hsame
    obtain ⟨old, hold, hchanged⟩ := Option.map_eq_some_iff.mp hat
    rw [if_pos rfl] at hchanged
    exact Or.inl ⟨old, hold, hchanged.symm⟩
  · obtain ⟨old, hold, hchanged⟩ := Option.map_eq_some_iff.mp hat
    rw [if_neg hsame] at hchanged
    exact Or.inr ⟨at_, Ne.symm hsame, hchanged ▸ hold⟩

theorem counts_inFlight {b : Bridge} {sent : Prompt} (hlocal : b.remote = false)
    (h : sent.delivery = .inFlight) : b.Counts sent := by
  unfold Counts
  rw [h]
  exact hlocal

/-- A change of the session of a row keeps its mark. -/
theorem Kept.put {b : Bridge} (h : b.Kept) (row : Nat) (session : Text)
    (ensuring : Option (Nat × Ensuring)) :
    ({ b.put row { b.rows row with session := session } with ensuring := ensuring } : Bridge).Kept := by
  intro hcount
  have hsame : ((b.put row { b.rows row with session := session }).rows b.row).hasMessages =
      (b.rows b.row).hasMessages :=
    put_hasMessages b (show ({ b.rows row with session := session } : Row).hasMessages =
      (b.rows row).hasMessages from rfl) b.row
  exact ⟨hsame.trans (h hcount).1, (h hcount).2⟩

/-- A prompt that is told to have been sent leaves a marked row. -/
theorem Kept.markSent {b : Bridge} (h : b.Kept) {index : Nat} {sent : Prompt}
    (hsent : b.prompts[index]? = some sent) (hflight : sent.delivery = .inFlight)
    (hrow : b.remote = true → sent.row = b.row ∨ (b.rows b.row).hasMessages = true)
    (delivery : Delivery) : ((b.settle index delivery).markSent sent.row).Kept := by
  unfold Bridge.markSent
  split_ifs with hremote
  · exact Kept.of_save fun _ => mark_true _ _ (hrow hremote)
  · intro _
    refine h fun hnone => hnone sent (List.mem_of_getElem? hsent) ?_
    exact counts_inFlight (Bool.eq_false_iff.mpr hremote) hflight

theorem Kept.submit {b : Bridge} (h : b.Kept) {row : Nat} (hrow : b.remote = true ∨ row = b.row) :
    (b.submit row).Kept := by
  unfold Bridge.submit
  dsimp only
  split_ifs with hremote
  · intro hcount
    refine h fun hnone => hcount fun prompt hprompt => ?_
    rcases List.mem_append.mp hprompt with hold | hnew
    · exact hnone prompt hold
    · rw [List.mem_singleton.mp hnew]
      intro hcounts
      rw [show b.remote = false from hcounts] at hremote
      cases hremote
  · exact Kept.of_save fun _ => mark_true _ _ (Or.inl (hrow.resolve_left hremote))

/-- A rejection takes the mark back only when nothing else counts. -/
theorem Kept.unmark {b : Bridge} (h : b.Kept) {index : Nat} {sent : Prompt} {activeStream : Bool}
    (hkeeps : sent.previous = true ∨ (b.remote = true ∧ activeStream = true) ∨ sent.row ≠ b.row ∨
      ∀ other sent', other ≠ index → b.prompts[other]? = some sent' → ¬ b.Counts sent') :
    ((b.settle index .rejected).unmark sent activeStream).Kept := by
  have hcount : ¬ (b.settle index .rejected).NoneCount → ¬ b.NoneCount ∧
      ¬ ∀ other sent', other ≠ index → b.prompts[other]? = some sent' → ¬ b.Counts sent' := by
    intro hnew
    constructor
    · intro hnone
      refine hnew fun prompt hprompt => ?_
      rcases mem_modify hprompt with ⟨old, -, rfl⟩ | ⟨other, -, hother⟩
      · exact id
      · exact hnone prompt (List.mem_of_getElem? hother)
    · intro hothers
      refine hnew fun prompt hprompt => ?_
      rcases mem_modify hprompt with ⟨old, -, rfl⟩ | ⟨other, hne, hother⟩
      · exact id
      · exact hothers other prompt hne hother
  refine Kept.of_save fun hnew => ?_
  obtain ⟨hold, hothers⟩ := hcount hnew
  have hmarked := (h hold).1
  rcases hkeeps with hprevious | hactive | hrow | hnone
  · rw [hprevious, ite_self]
    exact mark_true _ _ (Or.inr hmarked)
  · rw [show (if (b.settle index .rejected).remote = true ∧ activeStream = true then true
      else sent.previous) = true from if_pos hactive]
    exact mark_true _ _ (Or.inr hmarked)
  · change (((b.settle index .rejected).mark sent.row _).rows b.row).hasMessages = true
    rw [mark_of_ne _ hrow]
    exact hmarked
  · exact absurd hnone hothers

/-- Held row objects exist. -/
structure Sound (b : Bridge) : Prop where
  kept : b.Kept
  current : b.row < b.made
  held : ∀ row stage, b.ensuring = some (row, stage) → row < b.made

theorem Sound.markSent {b : Bridge} (h : b.Sound) {index : Nat} {sent : Prompt}
    (hsent : b.prompts[index]? = some sent) (hflight : sent.delivery = .inFlight)
    (hrow : b.remote = true → sent.row = b.row ∨ (b.rows b.row).hasMessages = true)
    (delivery : Delivery) : ((b.settle index delivery).markSent sent.row).Sound := by
  have hkept := h.kept.markSent hsent hflight hrow delivery
  unfold Bridge.markSent at hkept ⊢
  split_ifs at hkept ⊢
  · exact ⟨hkept, h.current, h.held⟩
  · exact ⟨hkept, h.current, h.held⟩

theorem fresh_sound (remote : Bool) : (fresh remote).Sound where
  kept := fun h => absurd (fun _ hprompt => absurd hprompt List.not_mem_nil) h
  current := Nat.one_pos
  held := fun _ _ h => by cases h

theorem Sound.step {b : Bridge} (h : b.Sound) {happening : Happening}
    (hguarded : b.Guarded happening) : (b.step happening).Sound := by
  obtain ⟨hkept, hcurrent, hheld⟩ := h
  cases happening with
  | ensures row =>
      unfold Bridge.step
      dsimp only
      split_ifs with hfree
      · refine ⟨hkept, hcurrent, fun other stage hother => ?_⟩
        obtain ⟨rfl, -⟩ := Prod.mk.inj (Option.some.inj hother)
        exact hfree.2.1
      · exact ⟨hkept, hcurrent, hheld⟩
  | resumes =>
      unfold Bridge.step
      dsimp only
      split
      · exact ⟨Kept.of_save fun hcount => (hkept hcount).1, hcurrent, fun _ _ hnone => by cases hnone⟩
      · exact ⟨hkept, hcurrent, hheld⟩
  | resumeFails missing =>
      unfold Bridge.step
      dsimp only
      split
      · rename_i row hasking
        have hrow : row < b.made := hheld row _ hasking
        unfold Bridge.resumeFailed
        dsimp only
        split_ifs
        · exact ⟨hkept, hcurrent, fun _ _ hnone => by cases hnone⟩
        · refine ⟨hkept.put row [] _, hcurrent, fun other stage hother => ?_⟩
          obtain ⟨rfl, -⟩ := Prod.mk.inj (Option.some.inj hother)
          exact hrow
        · have hcleared := hkept.put row [] (some (row, .creating))
          refine ⟨Kept.of_save fun hcount => (hcleared hcount).1, hcurrent,
            fun other stage hother => ?_⟩
          obtain ⟨rfl, -⟩ := Prod.mk.inj (Option.some.inj hother)
          exact hrow
      · exact ⟨hkept, hcurrent, hheld⟩
  | created session =>
      unfold Bridge.step
      dsimp only
      split
      · rename_i row hcreating
        have hput := hkept.put row session b.ensuring
        exact ⟨Kept.of_save fun hcount => (hput hcount).1, hcurrent, fun _ _ hnone => by cases hnone⟩
      · exact ⟨hkept, hcurrent, hheld⟩
  | createFails =>
      unfold Bridge.step
      dsimp only
      split
      · exact ⟨hkept, hcurrent, fun _ _ hnone => by cases hnone⟩
      · exact ⟨hkept, hcurrent, hheld⟩
  | submits row =>
      unfold Bridge.step
      dsimp only
      split_ifs with hrow
      · have hsubmit : (b.submit row).made = b.made ∧ (b.submit row).row = b.row ∧
            (b.submit row).ensuring = b.ensuring := by
          unfold Bridge.submit
          split_ifs
          · exact ⟨rfl, rfl, rfl⟩
          · exact ⟨rfl, rfl, rfl⟩
        obtain ⟨hmade, hsame, hensuring⟩ := hsubmit
        refine ⟨hkept.submit hrow.2, by rw [hmade, hsame]; exact hcurrent, ?_⟩
        rw [hmade, hensuring]
        exact hheld
      · exact ⟨hkept, hcurrent, hheld⟩
  | accepted prompt =>
      unfold Bridge.step
      dsimp only
      split
      · rename_i sent hsent
        split_ifs with hflight
        · exact Sound.markSent ⟨hkept, hcurrent, hheld⟩ hsent hflight
            (fun hremote => hguarded hremote sent hsent) .accepted
        · exact ⟨hkept, hcurrent, hheld⟩
      · exact ⟨hkept, hcurrent, hheld⟩
  | nameless prompt =>
      unfold Bridge.step
      dsimp only
      split
      · split_ifs
        · exact ⟨Kept.of_marked hguarded.1 hguarded.2, hcurrent, hheld⟩
        · exact ⟨hkept, hcurrent, hheld⟩
      · exact ⟨hkept, hcurrent, hheld⟩
  | ambiguous prompt =>
      unfold Bridge.step
      dsimp only
      split
      · rename_i sent hsent
        split_ifs with hflight
        · exact Sound.markSent ⟨hkept, hcurrent, hheld⟩ hsent hflight
            (fun hremote => hguarded hremote sent hsent) .unknown
        · exact ⟨hkept, hcurrent, hheld⟩
      · exact ⟨hkept, hcurrent, hheld⟩
  | rejected prompt activeStream took =>
      unfold Bridge.step
      dsimp only
      split
      · rename_i sent hsent
        obtain ⟨rfl, hkeeps⟩ := hguarded sent hsent
        rw [if_neg Bool.false_ne_true]
        by_cases hflight : sent.delivery = .inFlight
        · rw [if_pos hflight]
          exact ⟨hkept.unmark hkeeps, hcurrent, hheld⟩
        · rw [if_neg hflight]
          exact ⟨hkept, hcurrent, hheld⟩
      · exact ⟨hkept, hcurrent, hheld⟩
  | shown row =>
      refine ⟨Kept.of_save fun hcount => mark_true _ _ (Or.inr (hkept hcount).1), hcurrent, hheld⟩
  | refreshed hasMessages session =>
      unfold Bridge.step
      dsimp only
      split_ifs
      · refine ⟨fun hcount => ?_, Nat.lt_succ_self _, fun row stage hrow =>
          (hheld row stage hrow).trans (Nat.lt_succ_self _)⟩
        have hmarked : hasMessages = true := hguarded.resolve_right hcount
        refine ⟨?_, (hkept hcount).2⟩
        change (Function.update b.rows b.made ⟨hasMessages, session⟩ b.made).hasMessages = true
        rw [Function.update_self]
        exact hmarked
      · exact ⟨hkept, hcurrent, hheld⟩
  | saves => exact ⟨Kept.of_save fun hcount => (hkept hcount).1, hcurrent, hheld⟩
  | restarts =>
      refine ⟨fun hcount => ?_, Nat.lt_succ_self _, fun _ _ hnone => by cases hnone⟩
      have hdisk : b.disk.hasMessages = true := by
        by_contra hunmarked
        have hnone : b.NoneCount := by
          by_contra hcounts
          exact hunmarked (hkept hcounts).2
        refine hcount fun prompt hprompt hcounts => ?_
        obtain ⟨sent, hsent, rfl⟩ := List.mem_map.mp hprompt
        split_ifs at hcounts with hflight
        · by_cases hremote : b.remote = true
          · exact (hguarded hremote).elim hunmarked fun hall => hall sent hsent hflight
          · exact hnone sent hsent (counts_inFlight (Bool.eq_false_iff.mpr hremote) hflight)
        · exact hnone sent hsent hcounts
      refine ⟨?_, hdisk⟩
      change (Function.update b.rows b.made b.disk b.made).hasMessages = true
      rw [Function.update_self]
      exact hdisk

/-! ### Stored sessions -/

theorem mark_session (b : Bridge) (row : Nat) (value : Bool) (other : Nat) :
    ((b.mark row value).rows other).session = (b.rows other).session := by
  unfold mark put
  dsimp only
  by_cases hsame : other = row
  · rw [hsame, Function.update_self]
  · rw [Function.update_of_ne hsame]

theorem markSent_session (b : Bridge) (index : Nat) (delivery : Delivery) (row other : Nat) :
    (((b.settle index delivery).markSent row).rows other).session = (b.rows other).session := by
  unfold Bridge.markSent
  split_ifs
  · exact mark_session (b.settle index delivery) row true other
  · rfl

/-- Other events leave the session of the asking row alone. -/
theorem session_step {b : Bridge} (h : b.Sound) {row : Nat}
    (hasking : b.ensuring = some (row, .asking)) {happening : Happening}
    (hother : ∀ missing, happening ≠ .resumeFails missing) :
    ((b.step happening).rows row).session = (b.rows row).session := by
  have hrow : row ≠ b.made := Nat.ne_of_lt (h.held row _ hasking)
  cases happening with
  | ensures other =>
      unfold Bridge.step
      dsimp only
      split_ifs
      · rfl
      · rfl
  | resumes =>
      unfold Bridge.step
      rw [hasking]
      rfl
  | resumeFails missing => exact absurd rfl (hother missing)
  | created session =>
      unfold Bridge.step
      rw [hasking]
  | createFails =>
      unfold Bridge.step
      rw [hasking]
  | submits other =>
      unfold Bridge.step
      dsimp only
      split_ifs
      · unfold Bridge.submit
        split_ifs
        · rfl
        · exact mark_session { b with prompts := _ } other true row
      · rfl
  | accepted prompt =>
      unfold Bridge.step
      dsimp only
      split
      · split_ifs
        · exact markSent_session b prompt .accepted _ row
        · rfl
      · rfl
  | nameless prompt =>
      unfold Bridge.step
      dsimp only
      split
      · split_ifs
        · rfl
        · rfl
      · rfl
  | ambiguous prompt =>
      unfold Bridge.step
      dsimp only
      split
      · split_ifs
        · exact markSent_session b prompt .unknown _ row
        · rfl
      · rfl
  | rejected prompt activeStream took =>
      unfold Bridge.step
      dsimp only
      split
      · split_ifs
        · exact mark_session (b.settle prompt _) _ _ row
        · exact mark_session (b.settle prompt _) _ _ row
        · rfl
      · rfl
  | shown other => exact mark_session b other true row
  | refreshed hasMessages session =>
      unfold Bridge.step
      dsimp only
      split_ifs
      · change (Function.update b.rows b.made _ row).session = _
        rw [Function.update_of_ne hrow]
      · rfl
  | saves => rfl
  | restarts =>
      change (Function.update b.rows b.made b.disk row).session = _
      rw [Function.update_of_ne hrow]

/-- Only a session that is reported missing for an unmarked row is given up. -/
theorem forgets_cases {b : Bridge} (h : b.Sound) {happening : Happening}
    (hforgets : b.Forgets happening) : ∃ row, happening = .resumeFails true ∧
      b.ensuring = some (row, .asking) ∧ (b.rows row).hasMessages = false := by
  obtain ⟨row, hasking, hsession, hcleared⟩ := hforgets
  by_cases hfails : ∃ missing, happening = .resumeFails missing
  · obtain ⟨missing, rfl⟩ := hfails
    unfold Bridge.step Bridge.resumeFailed at hcleared
    rw [hasking] at hcleared
    dsimp only at hcleared
    by_cases hraised : missing = false ∨ (b.rows row).hasMessages = true
    · rw [if_pos hraised] at hcleared
      exact absurd hcleared hsession
    · obtain ⟨hmissing, hmarked⟩ := not_or.mp hraised
      rw [Bool.not_eq_false] at hmissing
      exact ⟨row, by rw [hmissing], hasking, Bool.eq_false_iff.mpr hmarked⟩
  · rw [session_step h hasking fun missing hsame => hfails ⟨missing, hsame⟩] at hcleared
    exact absurd hcleared hsession

/-- A guarded event gives up a stored session only while no prompt may have been
accepted. -/
theorem Sound.keeps {b : Bridge} (h : b.Sound) {happening : Happening}
    (hguarded : b.Guarded happening) (hforgets : b.Forgets happening) :
    ∀ sent ∈ b.prompts, ¬ sent.MayBeAccepted := by
  obtain ⟨row, rfl, hasking, hunmarked⟩ := forgets_cases h hforgets
  obtain ⟨rfl, hanswered⟩ := (hguarded row hasking rfl).resolve_left (by
    rw [hunmarked]
    exact Bool.false_ne_true)
  have hnone : b.NoneCount := by
    by_contra hcount
    rw [(h.kept hcount).1] at hunmarked
    cases hunmarked
  intro sent hsent hmay
  have hcounts := hnone sent hsent
  unfold Counts at hcounts
  cases hdelivery : sent.delivery with
  | inFlight =>
      rw [hdelivery] at hcounts
      have hremote : b.remote = true := Bool.not_eq_false _ ▸ hcounts
      exact hanswered hremote sent hsent hdelivery
  | accepted =>
      rw [hdelivery] at hcounts
      exact hcounts trivial
  | rejected => exact hmay hdelivery
  | unknown =>
      rw [hdelivery] at hcounts
      exact hcounts trivial

/-- Two prompts in flight, of which the second is accepted and the first then
rejected. -/
def overlapping : List Happening :=
  [.ensures 0, .created (ascii "s1"), .submits 0, .submits 0, .accepted 1,
    .rejected 0 false false, .ensures 0]

/-- A prompt to the WebUI whose outcome is unknown, then a restart. -/
def unknownThenRestarted : List Happening :=
  [.ensures 0, .created (ascii "s1"), .submits 0, .ambiguous 0, .restarts, .ensures 1,
    .resumeFails true]

end Bridge

end Hermes

end CybexOS
