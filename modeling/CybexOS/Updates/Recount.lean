/-
Runs of update checks, continued: a step changes only what its check covers, the
recount after a run is not lost, and a reused answer is what a real read tells.
-/
import CybexOS.Updates.CheckRuns

namespace CybexOS

namespace Updates

section

variable {D : Type} {s t : Checks D}

/-! ### Other sources -/

theorem stays_refl (s : Checks D) (source : Source) : Stays s s source := by
  cases source <;> rfl

/-- A check's end changes what the check covers. -/
theorem within_finishCheck (h : ∀ source, Stays s t source) : Within s t.finishCheck := by
  have hshown {α : Type} {c : Channel α} {part : Bool} (hpart : part = false) :
      (c.publish part).shown = c.shown := by
    rw [hpart]
    rfl
  unfold Checks.finishCheck
  intro source houtside
  have hkept := h source
  split_ifs at houtside ⊢ with hbusy
  · exact hkept
  · cases source with
    | dnf => exact (hshown houtside).trans hkept
    | flatpak => exact (hshown houtside).trans hkept
    | firmware => exact (hshown houtside).trans hkept
    | project => exact (hshown houtside).trans hkept

theorem stays_begin (h : ∀ source, Stays s t source) (parts : Parts) (forced : Bool)
    (source : Source) : Stays s (t.begin parts forced) source := by
  have hpart {α : Type} (c started : Channel α) (hsame : started.shown = c.shown) :
      (if parts source then started else c).shown = c.shown := by
    split_ifs
    · exact hsame
    · rfl
  have hflatpak : (if t.flatpakEnabled then t.flatpak.start [] else t.flatpak.skip []).shown =
      t.flatpak.shown := by
    split_ifs <;> rfl
  have hkept := h source
  cases source with
  | dnf => exact (hpart t.dnf (t.dnf.start noPackages) rfl).trans hkept
  | flatpak => exact (hpart t.flatpak _ hflatpak).trans hkept
  | firmware => exact (hpart t.firmware (t.firmware.start []) rfl).trans hkept
  | project => exact (hpart t.project (t.project.start noProject) rfl).trans hkept

theorem within_startCheck (h : ∀ source, Stays s t source) {parts : Parts} {forced : Bool} :
    Within s (t.startCheck parts forced) := by
  unfold Checks.startCheck
  split_ifs
  · exact fun source _ => h source
  · intro source _
    have hkept := h source
    cases source <;> exact hkept
  · exact within_finishCheck (stays_begin h parts forced)

theorem within_check (h : ∀ source, Stays s t source) : Within s t.check := by
  have hreset : ∀ source, Stays s { t with checkFailureCount := 0 } source := fun source => by
    have hkept := h source
    cases source <;> exact hkept
  exact within_startCheck hreset

theorem within_automaticCheck (h : ∀ source, Stays s t source) {resetRetries failedOnly : Bool} :
    Within s (t.automaticCheck resetRetries failedOnly) := by
  have hreset : ∀ source, Stays s { t with checkFailureCount := 0 } source := fun source => by
    have hkept := h source
    cases source <;> exact hkept
  unfold Checks.automaticCheck
  dsimp only
  by_cases honline : t.online = false
  · rw [if_pos honline]
    exact fun source _ => h source
  · rw [if_neg honline]
    cases resetRetries with
    | false => exact within_startCheck h
    | true => exact within_startCheck hreset

/-- A source that ends leaves the published answers to the end of the check. -/
theorem within_ended (h : ∀ source, Stays s t source) {condition : Prop} [Decidable condition] :
    Within s (if condition then t.finishCheck else s) := by
  split_ifs
  · exact within_finishCheck h
  · exact fun source _ => stays_refl s source

/-- What a step does to the published answers is done by the end of a check. -/
theorem onlyParts_step (s : Checks D) (event : CheckEvent D) : OnlyParts s event := by
  have hsame : ∀ source, Stays s s source := stays_refl s
  have hrefl : Within s s := fun source _ => hsame source
  unfold OnlyParts Checks.step
  cases event with
  | refreshes => exact within_check hsame
  | automatic resetRetries failedOnly => exact within_automaticCheck hsame
  | connects online => exact fun source _ => by cases source <;> rfl
  | togglesFlatpak enabled checks =>
      have htoggled : ∀ source, Stays s { s with flatpakEnabled := enabled } source := by
        intro source
        cases source <;> rfl
      cases checks with
      | false => exact fun source _ => htoggled source
      | true => exact within_automaticCheck htoggled
  | signatureEnds listing now =>
      dsimp only
      split_ifs
      · unfold Checks.readDnf
        by_cases hreuse : s.dnfForced = false ∧ dnfAnswerReusable
            ((listing.map dnfSignature).getD []) s.dnfCacheSignature s.dnfCacheAt now = true
        · rw [if_pos hreuse]
          exact within_finishCheck fun source => by cases source <;> rfl
        · rw [if_neg hreuse]
          exact fun source _ => by cases source <;> rfl
      · exact hrefl
  | dnfEnds exitCode names kernel errText now =>
      dsimp only
      split_ifs
      · unfold Checks.finishDnf
        dsimp only
        by_cases hexit : exitCode = 0 ∨ exitCode = 100
        · rw [if_pos hexit]
          by_cases hnames : names ≠ []
          · rw [if_pos hnames]
            exact fun source _ => by cases source <;> rfl
          · rw [if_neg hnames]
            exact within_finishCheck fun source => by cases source <;> rfl
        · rw [if_neg hexit]
          exact within_finishCheck fun source => by cases source <;> rfl
      · exact hrefl
  | securityEnds exitCode security =>
      exact within_ended fun source => by cases source <;> rfl
  | flatpakEnds exitCode names errText =>
      dsimp only
      split_ifs
      · unfold Checks.finishFlatpak
        split_ifs
        · exact within_finishCheck fun source => by cases source <;> rfl
        · exact within_finishCheck fun source => by cases source <;> rfl
      · exact hrefl
  | firmwareEnds exitCode devices errText =>
      dsimp only
      split_ifs
      · unfold Checks.finishFirmware
        refine within_finishCheck fun source => ?_
        cases source with
        | firmware =>
            unfold Stays
            dsimp only
            split_ifs
            · rfl
            · cases devices <;> rfl
            · rfl
        | _ => rfl
      · exact hrefl
  | projectEnds exitCode project errText =>
      dsimp only
      split_ifs
      · unfold Checks.finishProject
        refine within_finishCheck fun source => ?_
        cases source with
        | project =>
            unfold Stays
            dsimp only
            split_ifs
            · cases project <;> rfl
            · rfl
        | _ => rfl
      · exact hrefl
  | runStarts includedFlatpak => exact fun source _ => by cases source <;> rfl
  | runEnds done =>
      unfold Checks.finishRun
      dsimp only
      by_cases hactive : s.runActive = true
      · rw [if_pos hactive]
        exact fun source _ => by cases source <;> rfl
      · rw [if_neg hactive]
        exact hrefl
  | dismisses => exact fun source _ => by cases source <;> rfl
  | rechecks =>
      dsimp only
      split_ifs
      · exact within_check fun source => by cases source <;> rfl
      · exact hrefl
  | runsCheck =>
      dsimp only
      split_ifs
      · exact within_check fun source => by cases source <;> rfl
      · exact hrefl
  | runsStart =>
      dsimp only
      cases s.deferredStart with
      | none => exact hrefl
      | some forced => exact within_startCheck fun source => by cases source <;> rfl

/-! ### The recount after a run -/

/-- A check that is owed is deferred, queued, or about to read dnf. -/
structure Due (s : Checks D) : Prop where
  ended : s.owed = true → s.runActive = false
  asked : s.owed = true → s.deferredCheck = true ∨ s.deferredStart = some true ∨
    (s.busy = true ∧ s.checkAgain = true ∧ s.checkAgainForced = true) ∨
    (s.recount = true ∧ s.dnfForced = true ∧ s.dnfProcess = some .signature)

theorem Due.recounted (h : Due s) (hprocess : s.dnfProcess = none ↔ s.dnf.done = true) :
    Recounted s := by
  intro hbusy hcheck hstart
  refine Bool.eq_false_iff.mpr fun howed => ?_
  rcases h.asked howed with hdeferred | hdeferred | ⟨hqueued, -⟩ | ⟨-, -, hsignature⟩
  · cases hcheck.symm.trans hdeferred
  · cases hstart.symm.trans hdeferred
  · cases hbusy.symm.trans hqueued
  · cases (hprocess.mpr (not_busy_iff.mp hbusy).1).symm.trans hsignature

/-- The end of a check defers the queued one. -/
theorem due_finishCheck (hended : s.owed = true → s.runActive = false)
    (hasked : s.owed = true → s.deferredCheck = true ∨ s.deferredStart = some true ∨
      (s.checkAgain = true ∧ s.checkAgainForced = true) ∨
      (s.recount = true ∧ s.dnfForced = true ∧ s.dnfProcess = some .signature))
    (hfree : s.deferredStart = none ∨ s.checkAgain = false) : Due s.finishCheck := by
  unfold Checks.finishCheck
  split_ifs with hbusy
  · refine ⟨hended, fun howed => ?_⟩
    rcases hasked howed with hdeferred | hdeferred | hqueued | hread
    · exact .inl hdeferred
    · exact .inr (.inl hdeferred)
    · exact .inr (.inr (.inl ⟨hbusy, hqueued⟩))
    · exact .inr (.inr (.inr hread))
  · refine ⟨hended, fun howed => ?_⟩
    have hsettled : s.publish.settle.deferredStart =
        if s.checkAgain then some s.checkAgainForced else s.deferredStart := rfl
    rcases hasked howed with hdeferred | hdeferred | ⟨hagain, hforced⟩ | hread
    · exact .inl hdeferred
    · refine .inr (.inl ?_)
      rcases hfree with hnone | hagain
      · cases hnone.symm.trans hdeferred
      · rw [hsettled, hagain]
        exact hdeferred
    · refine .inr (.inl ?_)
      rw [hsettled, hagain, hforced]
      rfl
    · exact .inr (.inr (.inr hread))

/-- The end of a source other than a dnf read. -/
theorem Due.finishCheck (h : Due s) (hfree : s.deferredStart = none ∨ s.checkAgain = false)
    (ht : t.owed = s.owed ∧ t.runActive = s.runActive ∧ t.deferredCheck = s.deferredCheck ∧
      t.deferredStart = s.deferredStart ∧ t.checkAgain = s.checkAgain ∧
      t.checkAgainForced = s.checkAgainForced)
    (hread : s.recount = true → s.dnfForced = true → s.dnfProcess = some .signature →
      t.recount = true ∧ t.dnfForced = true ∧ t.dnfProcess = some .signature) :
    Due t.finishCheck := by
  obtain ⟨howed, hactive, hcheck, hstart, hagain, hforced⟩ := ht
  refine due_finishCheck ?_ ?_ ?_
  · rw [howed, hactive]
    exact h.ended
  · rw [howed, hcheck, hstart, hagain, hforced]
    intro hdue
    rcases h.asked hdue with hdeferred | hdeferred | ⟨-, hqueued⟩ | ⟨hrecount, hreal, hprocess⟩
    · exact .inl hdeferred
    · exact .inr (.inl hdeferred)
    · exact .inr (.inr (.inl hqueued))
    · exact .inr (.inr (.inr (hread hrecount hreal hprocess)))
  · rw [hstart, hagain]
    exact hfree

theorem Due.startCheck (h : Due s) (hprocess : s.dnfProcess = none ↔ s.dnf.done = true)
    {parts : Parts} {forced : Bool} : Due (s.startCheck parts forced) := by
  unfold Checks.startCheck
  split_ifs with hactive hbusy
  · exact h
  · refine ⟨h.ended, fun howed => ?_⟩
    rcases h.asked howed with hdeferred | hdeferred | ⟨-, -, hforced⟩ | hread
    · exact .inl hdeferred
    · exact .inr (.inl hdeferred)
    · refine .inr (.inr (.inl ⟨hbusy, rfl, ?_⟩))
      dsimp only
      rw [hforced]
      rfl
    · exact .inr (.inr (.inr hread))
  · have hidle : s.busy = false := Bool.eq_false_iff.mpr hbusy
    refine due_finishCheck h.ended (fun howed => ?_) (.inr rfl)
    rcases h.asked howed with hdeferred | hdeferred | ⟨hqueued, -⟩ | ⟨-, -, hsignature⟩
    · exact .inl hdeferred
    · exact .inr (.inl hdeferred)
    · cases hidle.symm.trans hqueued
    · cases (hprocess.mpr (not_busy_iff.mp hidle).1).symm.trans hsignature

/-- A forced check of everything is what is owed. -/
theorem due_startCheck (hended : s.owed = true → s.runActive = false) :
    Due (s.startCheck allParts true) := by
  unfold Checks.startCheck
  split_ifs with hactive hbusy
  · have hnone : s.owed ≠ true := fun howed => (by cases hactive.symm.trans (hended howed))
    exact ⟨hended, fun howed => absurd howed hnone⟩
  · refine ⟨hended, fun _ => .inr (.inr (.inl ⟨hbusy, rfl, ?_⟩))⟩
    exact Bool.or_true _
  · refine due_finishCheck hended (fun howed => .inr (.inr (.inr ⟨?_, rfl, rfl⟩))) (.inr rfl)
    have hrecount : (s.begin allParts true).recount =
        (s.owed && true && true && true && true) := rfl
    have hdue : s.owed = true := howed
    rw [hrecount, hdue]
    rfl

theorem Due.automaticCheck (h : Due s) (hprocess : s.dnfProcess = none ↔ s.dnf.done = true)
    {resetRetries failedOnly : Bool} : Due (s.automaticCheck resetRetries failedOnly) := by
  have hreset : Due { s with checkFailureCount := 0 } := ⟨h.ended, h.asked⟩
  unfold Checks.automaticCheck
  dsimp only
  by_cases honline : s.online = false
  · rw [if_pos honline]
    exact h
  · rw [if_neg honline]
    cases resetRetries with
    | false => exact h.startCheck hprocess
    | true => exact hreset.startCheck hprocess

theorem Due.readDnf (h : Due s) (hfree : s.deferredStart = none) {signature : Text} {now : ℤ} :
    Due (s.readDnf signature now) := by
  unfold Checks.readDnf
  by_cases hreuse : s.dnfForced = false ∧
      dnfAnswerReusable signature s.dnfCacheSignature s.dnfCacheAt now = true
  · rw [if_pos hreuse]
    refine h.finishCheck (.inl hfree) ⟨rfl, rfl, rfl, rfl, rfl, rfl⟩ fun _ hforced => ?_
    cases hreuse.1.symm.trans hforced
  · rw [if_neg hreuse]
    -- The read that is owed starts here.
    have howed (hstill : (if s.recount then false else s.owed) = true) :
        s.recount = false ∧ s.owed = true := by
      cases hrecount : s.recount with
      | false => exact ⟨rfl, by simpa [hrecount] using hstill⟩
      | true => simp [hrecount] at hstill
    refine ⟨fun hstill => h.ended (howed hstill).2, fun hstill => ?_⟩
    obtain ⟨hrecount, hdue⟩ := howed hstill
    rcases h.asked hdue with hdeferred | hdeferred | hqueued | ⟨hcovers, -⟩
    · exact .inl hdeferred
    · exact .inr (.inl hdeferred)
    · exact .inr (.inr (.inl hqueued))
    · cases hrecount.symm.trans hcovers

theorem Due.finishDnf (h : Due s) (hfree : s.deferredStart = none)
    (hprocess : s.dnfProcess = some .packages) {exitCode : ℤ} {names : List Text}
    {kernel errText : Text} {now : ℤ} : Due (s.finishDnf exitCode names kernel errText now) := by
  have hother (hsignature : s.dnfProcess = some .signature) : False := by
    cases hprocess.symm.trans hsignature
  unfold Checks.finishDnf
  dsimp only
  by_cases hexit : exitCode = 0 ∨ exitCode = 100
  · rw [if_pos hexit]
    by_cases hnames : names ≠ []
    · rw [if_pos hnames]
      refine ⟨h.ended, fun howed => ?_⟩
      rcases h.asked howed with hdeferred | hdeferred | hqueued | ⟨-, -, hsignature⟩
      · exact .inl hdeferred
      · exact .inr (.inl hdeferred)
      · exact .inr (.inr (.inl hqueued))
      · exact absurd hsignature hother
    · rw [if_neg hnames]
      exact h.finishCheck (.inl hfree) ⟨rfl, rfl, rfl, rfl, rfl, rfl⟩
        fun _ _ hsignature => absurd hsignature hother
  · rw [if_neg hexit]
    exact h.finishCheck (.inl hfree) ⟨rfl, rfl, rfl, rfl, rfl, rfl⟩
      fun _ _ hsignature => absurd hsignature hother

theorem Due.step (h : Due s) (hprocess : s.dnfProcess = none ↔ s.dnf.done = true)
    (event : CheckEvent D) : Due (s.step event) := by
  unfold Checks.step
  cases event with
  | refreshes => exact due_startCheck (s := { s with checkFailureCount := 0 }) h.ended
  | automatic resetRetries failedOnly => exact h.automaticCheck hprocess
  | connects online => exact ⟨h.ended, h.asked⟩
  | togglesFlatpak enabled checks =>
      have htoggled : Due { s with flatpakEnabled := enabled } := ⟨h.ended, h.asked⟩
      cases checks with
      | false => exact htoggled
      | true => exact htoggled.automaticCheck hprocess
  | signatureEnds listing now =>
      dsimp only
      split_ifs with hends
      · exact h.readDnf hends.2
      · exact h
  | dnfEnds exitCode names kernel errText now =>
      dsimp only
      split_ifs with hends
      · exact h.finishDnf hends.2 hends.1
      · exact h
  | securityEnds exitCode security =>
      dsimp only
      split_ifs with hends
      · refine h.finishCheck (.inl hends.2) ⟨rfl, rfl, rfl, rfl, rfl, rfl⟩ fun _ _ hsignature => ?_
        cases hends.1.symm.trans hsignature
      · exact h
  | flatpakEnds exitCode names errText =>
      dsimp only
      split_ifs with hends
      · unfold Checks.finishFlatpak
        split_ifs
        · exact h.finishCheck (.inl hends.2) ⟨rfl, rfl, rfl, rfl, rfl, rfl⟩
            fun hrecount hforced hsignature => ⟨hrecount, hforced, hsignature⟩
        · exact h.finishCheck (.inl hends.2) ⟨rfl, rfl, rfl, rfl, rfl, rfl⟩
            fun hrecount hforced hsignature => ⟨hrecount, hforced, hsignature⟩
      · exact h
  | firmwareEnds exitCode devices errText =>
      dsimp only
      split_ifs with hends
      · exact h.finishCheck (.inl hends.2) ⟨rfl, rfl, rfl, rfl, rfl, rfl⟩
          fun hrecount hforced hsignature => ⟨hrecount, hforced, hsignature⟩
      · exact h
  | projectEnds exitCode project errText =>
      dsimp only
      split_ifs with hends
      · exact h.finishCheck (.inl hends.2) ⟨rfl, rfl, rfl, rfl, rfl, rfl⟩
          fun hrecount hforced hsignature => ⟨hrecount, hforced, hsignature⟩
      · exact h
  | runStarts includedFlatpak =>
      exact ⟨fun howed => (by cases howed), fun howed => (by cases howed)⟩
  | runEnds done =>
      unfold Checks.finishRun
      dsimp only
      by_cases hactive : s.runActive = true
      · rw [if_pos hactive]
        refine ⟨fun _ => ?_, fun _ => .inl rfl⟩
        cases done <;> rfl
      · rw [if_neg hactive]
        exact h
  | dismisses => exact ⟨fun _ => rfl, h.asked⟩
  | rechecks =>
      dsimp only
      split_ifs
      · exact due_startCheck (s := { s with recheck := false, checkFailureCount := 0 }) h.ended
      · exact h
  | runsCheck =>
      dsimp only
      split_ifs
      · exact due_startCheck (s := { s with deferredCheck := false, checkFailureCount := 0 })
          h.ended
      · exact h
  | runsStart =>
      dsimp only
      cases hdeferred : s.deferredStart with
      | none => exact h
      | some forced =>
          cases forced with
          | true => exact due_startCheck (s := { s with deferredStart := none }) h.ended
          | false =>
              have htaken : Due { s with deferredStart := none } := by
                refine ⟨h.ended, fun howed => ?_⟩
                rcases h.asked howed with hcheck | hstart | hrest
                · exact .inl hcheck
                · cases hdeferred.symm.trans hstart
                · exact .inr (.inr hrest)
              exact htaken.startCheck hprocess

theorem due_unchecked (flatpakEnabled : Bool) : Due (unchecked flatpakEnabled : Checks D) :=
  ⟨fun howed => (by cases howed), fun howed => (by cases howed)⟩

/-! ### Reused answers -/

section

variable {packages : Text → List Text × Text} {advisories : Text → Security}

/-- The cached answer, whole or before its advisories are read, is what a read tells. -/
structure Faithful (packages : Text → List Text × Text) (advisories : Text → Security)
    (s : Checks D) : Prop where
  reused : Reused packages advisories s
  reuses : ∀ signature ∈ s.reuses, s.dnf.next = realRead packages advisories signature ∧
    s.dnfProcess = none
  cache : s.dnfCacheSignature ≠ [] → s.cacheWhole = true → s.dnfProcess ≠ some .security →
    s.dnfCache = realRead packages advisories s.dnfCacheSignature
  half : s.dnfProcess = some .security → s.dnfCacheSignature = s.signature ∧
    (s.signature ≠ [] →
      s.dnfCache = ⟨(packages s.signature).1, (packages s.signature).2, noSecurity⟩ ∧
        (packages s.signature).1 ≠ [])

theorem Faithful.finishCheck (h : Faithful packages advisories s) :
    Faithful packages advisories s.finishCheck := by
  unfold Checks.finishCheck
  split_ifs
  · exact h
  · have hnext : (s.dnf.publish (s.checkParts .dnf)).next = s.dnf.next := by
      unfold Channel.publish
      split_ifs <;> rfl
    refine ⟨fun signature hsignature => ?_, fun signature hsignature => ?_, h.cache, h.half⟩
    · have hreused : (if s.checkParts .dnf = true ∧ s.dnf.error = [] then s.reuses
          else s.reused) = some signature := hsignature
      have hshown : s.publish.settle.dnf.shown =
          if s.checkParts .dnf = true ∧ s.dnf.error = [] then s.dnf.next else s.dnf.shown := by
        change (s.dnf.publish (s.checkParts .dnf)).shown = _
        unfold Channel.publish
        split_ifs <;> rfl
      rw [hshown]
      split_ifs at hreused ⊢
      · exact (h.reuses signature hreused).1
      · exact h.reused signature hreused
    · exact ⟨hnext.trans (h.reuses signature hsignature).1, (h.reuses signature hsignature).2⟩

theorem Faithful.startCheck (h : Faithful packages advisories s)
    (hprocess : s.dnfProcess = none ↔ s.dnf.done = true) {parts : Parts} {forced : Bool} :
    Faithful packages advisories (s.startCheck parts forced) := by
  unfold Checks.startCheck
  split_ifs with hactive hbusy
  · exact h
  · exact ⟨h.reused, h.reuses, h.cache, h.half⟩
  · have hnone : s.dnfProcess = none :=
      hprocess.mpr (not_busy_iff.mp (Bool.eq_false_iff.mpr hbusy)).1
    have hshown : (s.begin parts forced).dnf.shown = s.dnf.shown :=
      stays_begin (stays_refl s) parts forced .dnf
    apply Faithful.finishCheck
    refine ⟨fun signature hsignature => hshown.trans (h.reused signature hsignature), ?_, ?_, ?_⟩
    · unfold Checks.begin
      dsimp only
      split_ifs
      · nofun
      · exact h.reuses
    · exact fun hsignature hwhole _ => h.cache hsignature hwhole (by rw [hnone]; nofun)
    · unfold Checks.begin
      dsimp only
      split_ifs
      · nofun
      · exact h.half

theorem Faithful.automaticCheck (h : Faithful packages advisories s)
    (hprocess : s.dnfProcess = none ↔ s.dnf.done = true) {resetRetries failedOnly : Bool} :
    Faithful packages advisories (s.automaticCheck resetRetries failedOnly) := by
  have hreset : Faithful packages advisories { s with checkFailureCount := 0 } :=
    ⟨h.reused, h.reuses, h.cache, h.half⟩
  unfold Checks.automaticCheck
  dsimp only
  by_cases honline : s.online = false
  · rw [if_pos honline]
    exact h
  · rw [if_neg honline]
    cases resetRetries with
    | false => exact h.startCheck hprocess
    | true => exact hreset.startCheck hprocess

theorem Faithful.readDnf (h : Faithful packages advisories s)
    (hprocess : s.dnfProcess = some .signature) {signature : Text} {now : ℤ} :
    Faithful packages advisories (s.readDnf signature now) := by
  have hnone (old : Text) (hold : old ∈ s.reuses) : False := by
    cases hprocess.symm.trans (h.reuses old hold).2
  have hother : s.dnfProcess ≠ some .security := by rw [hprocess]; nofun
  unfold Checks.readDnf
  by_cases hreuse : s.dnfForced = false ∧
      dnfAnswerReusable signature s.dnfCacheSignature s.dnfCacheAt now = true
  · rw [if_pos hreuse]
    have hreusable := hreuse.2
    unfold dnfAnswerReusable at hreusable
    simp only [Bool.and_eq_true, decide_eq_true_eq] at hreusable
    obtain ⟨⟨hne, hsame⟩, -⟩ := hreusable
    apply Faithful.finishCheck
    refine ⟨h.reused, fun reused hreused => ?_, fun hsignature hwhole _ => ?_, nofun⟩
    · cases hwhole : s.cacheWhole with
      | false => simp [hwhole] at hreused
      | true =>
          rw [hwhole] at hreused
          obtain rfl : signature = reused := Option.some_inj.mp hreused
          refine ⟨?_, rfl⟩
          have hcache := h.cache (hsame ▸ hne) hwhole hother
          rw [← hsame] at hcache
          exact hcache
    · exact h.cache hsignature hwhole hother
  · rw [if_neg hreuse]
    exact ⟨h.reused, fun old hold => absurd hold (hnone old),
      fun hsignature hwhole _ => h.cache hsignature hwhole hother, nofun⟩

theorem Faithful.finishDnf (h : Faithful packages advisories s)
    (hprocess : s.dnfProcess = some .packages) {exitCode : ℤ} {names : List Text}
    {kernel errText : Text} {now : ℤ}
    (hreads : exitCode = 0 ∨ exitCode = 100 → s.signature ≠ [] →
      packages s.signature = (names, kernel)) :
    Faithful packages advisories (s.finishDnf exitCode names kernel errText now) := by
  have hnone (old : Text) (hold : old ∈ s.reuses) : False := by
    cases hprocess.symm.trans (h.reuses old hold).2
  unfold Checks.finishDnf
  dsimp only
  by_cases hexit : exitCode = 0 ∨ exitCode = 100
  · rw [if_pos hexit]
    by_cases hnames : names ≠ []
    · rw [if_pos hnames]
      refine ⟨h.reused, fun old hold => absurd hold (hnone old), fun _ _ hne => absurd rfl hne,
        fun _ => ⟨rfl, fun hsignature => ?_⟩⟩
      dsimp only at hsignature ⊢
      rw [hreads hexit hsignature]
      exact ⟨rfl, hnames⟩
    · rw [if_neg hnames]
      apply Faithful.finishCheck
      refine ⟨h.reused, fun old hold => absurd hold (hnone old), fun hsignature _ _ => ?_, nofun⟩
      dsimp only at hsignature ⊢
      obtain rfl : names = [] := not_not.mp hnames
      unfold realRead
      rw [hreads hexit hsignature]
      rfl
  · rw [if_neg hexit]
    exact Faithful.finishCheck ⟨h.reused, fun old hold => absurd hold (hnone old),
      fun hne => absurd rfl hne, nofun⟩

theorem Faithful.finishDnfSecurity (h : Faithful packages advisories s)
    (hprocess : s.dnfProcess = some .security) {exitCode : ℤ} {security : Option Security}
    (hreads : exitCode = 0 → s.signature ≠ [] → ∀ read ∈ security,
      read = advisories s.signature) :
    Faithful packages advisories (s.finishDnfSecurity exitCode security) := by
  have hnone (old : Text) (hold : old ∈ s.reuses) : False := by
    cases hprocess.symm.trans (h.reuses old hold).2
  obtain ⟨hsame, hhalf⟩ := h.half hprocess
  unfold Checks.finishDnfSecurity
  apply Faithful.finishCheck
  refine ⟨h.reused, fun old hold => absurd hold (hnone old), fun hsignature hwhole _ => ?_, nofun⟩
  dsimp only at hsignature hwhole ⊢
  rw [hsame] at hsignature ⊢
  obtain ⟨hcache, hne⟩ := hhalf hsignature
  by_cases hexit : exitCode = 0
  · rw [if_pos hexit] at hwhole ⊢
    obtain ⟨read, hread⟩ := Option.isSome_iff_exists.mp hwhole
    rw [hcache, hread, hreads hexit hsignature read hread]
    unfold realRead
    rw [if_neg hne]
    rfl
  · rw [if_neg hexit] at hwhole
    cases hwhole

theorem Faithful.step (h : Faithful packages advisories s)
    (hprocess : s.dnfProcess = none ↔ s.dnf.done = true) (event : CheckEvent D)
    (hreads : Reads packages advisories s event) :
    Faithful packages advisories (s.step event) := by
  unfold Checks.step
  cases event with
  | refreshes =>
      have hreset : Faithful packages advisories { s with checkFailureCount := 0 } :=
        ⟨h.reused, h.reuses, h.cache, h.half⟩
      exact hreset.startCheck hprocess
  | automatic resetRetries failedOnly => exact h.automaticCheck hprocess
  | connects online => exact ⟨h.reused, h.reuses, h.cache, h.half⟩
  | togglesFlatpak enabled checks =>
      have htoggled : Faithful packages advisories { s with flatpakEnabled := enabled } :=
        ⟨h.reused, h.reuses, h.cache, h.half⟩
      cases checks with
      | false => exact htoggled
      | true => exact htoggled.automaticCheck hprocess
  | signatureEnds listing now =>
      dsimp only
      split_ifs with hends
      · exact h.readDnf hends.1
      · exact h
  | dnfEnds exitCode names kernel errText now =>
      dsimp only
      split_ifs with hends
      · exact h.finishDnf hends.1 hreads
      · exact h
  | securityEnds exitCode security =>
      dsimp only
      split_ifs with hends
      · exact h.finishDnfSecurity hends.1 hreads
      · exact h
  | flatpakEnds exitCode names errText =>
      dsimp only
      split_ifs
      · unfold Checks.finishFlatpak
        split_ifs
        · exact Faithful.finishCheck ⟨h.reused, h.reuses, h.cache, h.half⟩
        · exact Faithful.finishCheck ⟨h.reused, h.reuses, h.cache, h.half⟩
      · exact h
  | firmwareEnds exitCode devices errText =>
      dsimp only
      split_ifs
      · exact Faithful.finishCheck ⟨h.reused, h.reuses, h.cache, h.half⟩
      · exact h
  | projectEnds exitCode project errText =>
      dsimp only
      split_ifs
      · exact Faithful.finishCheck ⟨h.reused, h.reuses, h.cache, h.half⟩
      · exact h
  | runStarts includedFlatpak => exact ⟨h.reused, h.reuses, h.cache, h.half⟩
  | runEnds done =>
      unfold Checks.finishRun
      dsimp only
      by_cases hactive : s.runActive = true
      · rw [if_pos hactive]
        exact ⟨h.reused, h.reuses, h.cache, h.half⟩
      · rw [if_neg hactive]
        exact h
  | dismisses => exact ⟨h.reused, h.reuses, h.cache, h.half⟩
  | rechecks =>
      have hstopped : Faithful packages advisories
          { s with recheck := false, checkFailureCount := 0 } :=
        ⟨h.reused, h.reuses, h.cache, h.half⟩
      dsimp only
      split_ifs
      · exact hstopped.startCheck hprocess
      · exact h
  | runsCheck =>
      have htaken : Faithful packages advisories
          { s with deferredCheck := false, checkFailureCount := 0 } :=
        ⟨h.reused, h.reuses, h.cache, h.half⟩
      dsimp only
      split_ifs
      · exact htaken.startCheck hprocess
      · exact h
  | runsStart =>
      have htaken : Faithful packages advisories { s with deferredStart := none } :=
        ⟨h.reused, h.reuses, h.cache, h.half⟩
      dsimp only
      cases s.deferredStart with
      | none => exact h
      | some forced => exact htaken.startCheck hprocess

theorem faithful_unchecked (flatpakEnabled : Bool) :
    Faithful packages advisories (unchecked flatpakEnabled : Checks D) :=
  ⟨nofun, nofun, fun hne => absurd rfl hne, nofun⟩

end

/-- Between checks each source shows its last answer, and nothing is owed to a run
that has finished; a check changes only what it covers; a reused answer is that of a
real read. -/
theorem checks_spec (packages : Text → List Text × Text) (advisories : Text → Security)
    (flatpakEnabled : Bool) (events : List (CheckEvent D)) :
    (∀ s ∈ states Checks.step (unchecked flatpakEnabled) events,
        (s.busy = false → Answered s) ∧ Recounted s) ∧
      EachStep Checks.step OnlyParts (unchecked flatpakEnabled) events ∧
      (EachStep Checks.step (Reads packages advisories) (unchecked flatpakEnabled) events →
        ∀ s ∈ states Checks.step (unchecked flatpakEnabled) events,
          Reused packages advisories s) := by
  have hall : EachStep Checks.step (fun (_ : Checks D) _ => True) (unchecked flatpakEnabled)
      events := EachStep.of_forall (fun _ _ => trivial) _ _
  refine ⟨fun s hs => ?_, EachStep.of_forall onlyParts_step _ _, fun hreads s hs => ?_⟩
  · have hstep (t : Checks D) (event : CheckEvent D) (h : Kept t t.covered ∧ Due t) (_ : True) :
        Kept (t.step event) (t.step event).covered ∧ Due (t.step event) :=
      ⟨h.1.step event, h.2.step h.1.process event⟩
    obtain ⟨hkept, hdue⟩ := hall.states hstep ⟨kept_unchecked _, due_unchecked _⟩ s hs
    exact ⟨hkept.answered, hdue.recounted hkept.process⟩
  · have hstep (t : Checks D) (event : CheckEvent D)
        (h : Kept t t.covered ∧ Faithful packages advisories t)
        (hread : Reads packages advisories t event) :
        Kept (t.step event) (t.step event).covered ∧
          Faithful packages advisories (t.step event) :=
      ⟨h.1.step event, h.2.step h.1.process event hread⟩
    exact (hreads.states hstep ⟨kept_unchecked _, faithful_unchecked _⟩ s hs).2.reused

end

/-- A check with Flatpak on, and one with Flatpak off. -/
def flatpakOff : List (CheckEvent Unit) :=
  [.connects true, .automatic true false, .signatureEnds none 0, .dnfEnds 0 [] [] [] 0,
    .flatpakEnds 0 [ascii "org.app"] [], .firmwareEnds 2 none [],
    .projectEnds 0 (some noProject) [], .togglesFlatpak false true, .signatureEnds none 0,
    .dnfEnds 0 [] [] [] 0, .firmwareEnds 2 none [], .projectEnds 0 (some noProject) []]

/-- A check with Flatpak off does not publish the names that were read last. -/
theorem flatpakOff_empty :
    ¬ ∀ (flatpakEnabled : Bool) (events : List (CheckEvent Unit)),
      ∀ s ∈ states Checks.step (unchecked flatpakEnabled) events,
        s.busy = false → ∀ names ∈ s.flatpakRead, s.flatpak.shown = names := by
  intro h
  have hshown := h true flatpakOff _ (foldl_mem_states _ _) (by decide) [ascii "org.app"]
    (by decide)
  have hempty : (flatpakOff.foldl Checks.step (unchecked true)).flatpak.shown = [] := by decide
  rw [hempty] at hshown
  exact absurd hshown (by decide)

end Updates

end CybexOS
