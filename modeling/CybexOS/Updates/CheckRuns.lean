/-
Runs of update checks: published answers are the last ones, a cached answer is
what a read would tell, and no recount after a run is lost.
-/
import CybexOS.Runs
import CybexOS.Updates.Checks

namespace CybexOS

namespace Updates

/-! ### Sources -/

namespace Channel

variable {α : Type} {c : Channel α} {covered : Bool}

/-- What a source says in a check that covers it, and otherwise. -/
structure Good (c : Channel α) (covered : Bool) : Prop where
  running : c.done = false → covered = true ∧ c.error = []
  fresh : covered = true → c.done = true → c.error = [] → c.answer = some c.next
  kept : covered = false ∨ c.done = false ∨ c.error ≠ [] → ∀ answer ∈ c.answer, c.shown = answer

theorem good_idle (initial : α) : (idle initial).Good false :=
  ⟨fun h => (by cases h), fun h => (by cases h), fun _ _ h => (by cases h)⟩

theorem Good.start (h : c.Good false) (initial : α) : (c.start initial).Good true :=
  ⟨fun _ => ⟨rfl, rfl⟩, fun _ hdone => (by cases hdone), fun _ => h.kept (.inl rfl)⟩

theorem good_skip (initial : α) : (c.skip initial).Good true := by
  refine ⟨fun hdone => (by cases hdone), fun _ _ _ => rfl, ?_⟩
  rintro (hcovered | hdone | herror)
  · cases hcovered
  · cases hdone
  · exact absurd rfl herror

theorem Good.succeed (h : c.Good covered) (hrunning : c.done = false) (answer : α) :
    (c.succeed answer).Good covered := by
  obtain ⟨rfl, hnil⟩ := h.running hrunning
  refine ⟨fun hdone => (by cases hdone), fun _ _ _ => rfl, ?_⟩
  rintro (hcovered | hdone | herror)
  · cases hcovered
  · cases hdone
  · exact absurd hnil herror

theorem Good.fail (h : c.Good covered) (hrunning : c.done = false) {error : Text}
    (herror : error ≠ []) : (c.fail error).Good covered :=
  ⟨fun hdone => (by cases hdone), fun _ _ hnil => absurd hnil herror,
    fun _ => h.kept (.inr (.inl hrunning))⟩

theorem Good.publish (h : c.Good covered) (hdone : c.done = true) :
    (c.publish covered).Good false := by
  unfold Channel.publish
  split_ifs with hanswered
  · obtain ⟨hcovered, hnil⟩ := hanswered
    refine ⟨fun hfalse => (by cases hdone.symm.trans hfalse), nofun, fun _ answer hanswer => ?_⟩
    exact Option.some_inj.mp ((h.fresh hcovered hdone hnil).symm.trans hanswer)
  · refine ⟨fun hfalse => (by cases hdone.symm.trans hfalse), nofun, fun _ => h.kept ?_⟩
    by_cases hcovered : covered = true
    · exact .inr (.inr fun hnil => hanswered ⟨hcovered, hnil⟩)
    · exact .inl (Bool.eq_false_iff.mpr hcovered)

end Channel

/-! ### The properties -/

section

variable {D : Type}

/-- Between checks, the published answer of each source is its last one. -/
structure Answered (s : Checks D) : Prop where
  dnf : ∀ answer ∈ s.dnf.answer, s.dnf.shown = answer
  flatpak : ∀ answer ∈ s.flatpak.answer, s.flatpak.shown = answer
  firmware : ∀ answer ∈ s.firmware.answer, s.firmware.shown = answer
  project : ∀ answer ∈ s.project.answer, s.project.shown = answer

/-- A check of everything with a real dnf read was started since the last run has
finished, once nothing goes on and nothing is deferred. -/
def Recounted (s : Checks D) : Prop :=
  s.busy = false → s.deferredCheck = false → s.deferredStart = none → s.owed = false

/-- The published answer of a source stays. -/
def Stays (s t : Checks D) : Source → Prop
  | .dnf => t.dnf.shown = s.dnf.shown
  | .flatpak => t.flatpak.shown = s.flatpak.shown
  | .firmware => t.firmware.shown = s.firmware.shown
  | .project => t.project.shown = s.project.shown

/-- Only the published answers that the check covers are changed. -/
def Within (s t : Checks D) : Prop :=
  ∀ source, t.checkParts source = false → Stays s t source

def OnlyParts (s : Checks D) (event : CheckEvent D) : Prop := Within s (s.step event)

section

variable (packages : Text → List Text × Text) (advisories : Text → Security)

/-- What a real read tells with this signature. -/
def realRead (signature : Text) : DnfAnswer :=
  ⟨(packages signature).1, (packages signature).2,
    if (packages signature).1 = [] then noSecurity else advisories signature⟩

/-- The lists are functions of the signature. -/
def Reads (s : Checks D) : CheckEvent D → Prop
  | .dnfEnds exitCode names kernel _ _ =>
      exitCode = 0 ∨ exitCode = 100 → s.signature ≠ [] → packages s.signature = (names, kernel)
  | .securityEnds exitCode security =>
      exitCode = 0 → s.signature ≠ [] → ∀ read ∈ security, read = advisories s.signature
  | _ => True

/-- A published answer that was reused is what a real read would tell. -/
def Reused (s : Checks D) : Prop :=
  ∀ signature ∈ s.reused, s.dnf.shown = realRead packages advisories signature

end

/-! ### Published answers -/

variable {s : Checks D}

theorem not_busy_iff :
    s.busy = false ↔ s.dnf.done = true ∧ s.flatpak.done = true ∧ s.firmware.done = true ∧
      s.project.done = true := by
  unfold Checks.busy
  simp [and_assoc]

/-- The sources of the running check. -/
def Checks.covered (s : Checks D) : Parts := fun source => s.busy && s.checkParts source

structure Kept (s : Checks D) (covered : Parts) : Prop where
  dnf : s.dnf.Good (covered .dnf)
  flatpak : s.flatpak.Good (covered .flatpak)
  firmware : s.firmware.Good (covered .firmware)
  project : s.project.Good (covered .project)
  process : s.dnfProcess = none ↔ s.dnf.done = true
  cache : s.dnfCacheSignature ≠ [] → s.dnfProcess ≠ some .security →
    s.dnf.answer = some s.dnfCache
  assembled : s.dnfProcess = some .security → s.dnf.next = s.dnfCache

theorem Kept.answered (h : Kept s s.covered) (hbusy : s.busy = false) : Answered s := by
  have hnone (source : Source) : s.covered source = false := by
    unfold Checks.covered
    rw [hbusy]
    rfl
  exact ⟨h.dnf.kept (.inl (hnone _)), h.flatpak.kept (.inl (hnone _)),
    h.firmware.kept (.inl (hnone _)), h.project.kept (.inl (hnone _))⟩

/-- In a check the sources are those of the check. -/
theorem covered_of_busy (hbusy : s.busy = true) : s.covered = s.checkParts := by
  unfold Checks.covered
  rw [hbusy]
  rfl

theorem covered_of_not_busy (hbusy : s.busy = false) : s.covered = fun _ => false := by
  unfold Checks.covered
  rw [hbusy]
  rfl

/-- A source can only be running in a check. -/
theorem busy_of_running (h : s.dnf.done = false ∨ s.flatpak.done = false ∨
    s.firmware.done = false ∨ s.project.done = false) : s.busy = true := by
  refine Bool.not_eq_false _ |>.mp fun hidle => ?_
  obtain ⟨hdnf, hflatpak, hfirmware, hproject⟩ := not_busy_iff.mp hidle
  rcases h with hrunning | hrunning | hrunning | hrunning
  · cases hdnf.symm.trans hrunning
  · cases hflatpak.symm.trans hrunning
  · cases hfirmware.symm.trans hrunning
  · cases hproject.symm.trans hrunning

theorem Kept.goesOn (h : Kept s s.checkParts) (hrunning : s.dnf.done = false) :
    Kept s s.covered := by
  rw [covered_of_busy (busy_of_running (.inl hrunning))]
  exact h

theorem Kept.finishCheck (h : Kept s s.checkParts) : Kept s.finishCheck s.finishCheck.covered := by
  unfold Checks.finishCheck
  split_ifs with hbusy
  · rw [covered_of_busy hbusy]
    exact h
  · have hidle : s.busy = false := Bool.eq_false_iff.mpr hbusy
    obtain ⟨hdnf, hflatpak, hfirmware, hproject⟩ := not_busy_iff.mp hidle
    have hshown {α : Type} {c : Channel α} {part : Bool} :
        (c.publish part).done = c.done ∧ (c.publish part).answer = c.answer ∧
          (c.publish part).next = c.next := by
      unfold Channel.publish
      split_ifs <;> exact ⟨rfl, rfl, rfl⟩
    have hafter : s.publish.settle.busy = false := by
      refine not_busy_iff.mpr ⟨?_, ?_, ?_, ?_⟩
      · exact hshown.1.trans hdnf
      · exact hshown.1.trans hflatpak
      · exact hshown.1.trans hfirmware
      · exact hshown.1.trans hproject
    rw [covered_of_not_busy hafter]
    refine ⟨h.dnf.publish hdnf, h.flatpak.publish hflatpak, h.firmware.publish hfirmware,
      h.project.publish hproject, ?_, fun hsignature hprocess => ?_, fun hprocess => ?_⟩
    · exact h.process.trans (by rw [← hshown.1]; rfl)
    · exact hshown.2.1.trans (h.cache hsignature hprocess)
    · exact hshown.2.2.trans (h.assembled hprocess)

/-- Every source of the new check has been started. -/
theorem Kept.begin (h : Kept s s.covered) (hbusy : s.busy = false) (parts : Parts)
    (forced : Bool) : Kept (s.begin parts forced) parts := by
  rw [covered_of_not_busy hbusy] at h
  have hnone : s.dnfProcess = none := h.process.mpr (not_busy_iff.mp hbusy).1
  have hpart {α : Type} {c started : Channel α} {part : Bool} (hc : c.Good false)
      (hstarted : started.Good true) : (if part then started else c).Good part := by
    cases part with
    | false => exact hc
    | true => exact hstarted
  have hflatpak :
      (if s.flatpakEnabled then s.flatpak.start [] else s.flatpak.skip []).Good true := by
    split_ifs
    · exact h.flatpak.start []
    · exact Channel.good_skip []
  refine ⟨hpart h.dnf (h.dnf.start _), hpart h.flatpak hflatpak,
    hpart h.firmware (h.firmware.start _),
    hpart h.project (h.project.start _), ?_, ?_, ?_⟩
  · unfold Checks.begin
    dsimp only
    split_ifs
    · exact ⟨fun heq => (by cases heq), fun heq => (by cases heq)⟩
    · exact h.process
  · unfold Checks.begin
    dsimp only
    split_ifs
    · exact fun hsignature _ => h.cache hsignature (by rw [hnone]; nofun)
    · exact h.cache
  · unfold Checks.begin
    dsimp only
    split_ifs
    · nofun
    · exact h.assembled

theorem Kept.startCheck (h : Kept s s.covered) {parts : Parts} {forced : Bool} :
    Kept (s.startCheck parts forced) (s.startCheck parts forced).covered := by
  unfold Checks.startCheck
  split_ifs with hactive hbusy
  · exact h
  · exact ⟨h.dnf, h.flatpak, h.firmware, h.project, h.process, h.cache, h.assembled⟩
  · exact Kept.finishCheck (h.begin (Bool.eq_false_iff.mpr hbusy) parts forced)

theorem Kept.running (h : Kept s s.covered) {process : DnfProcess}
    (hprocess : s.dnfProcess = some process) : s.dnf.done = false := by
  refine Bool.eq_false_iff.mpr fun hdone => ?_
  cases hprocess.symm.trans (h.process.mpr hdone)

/-- The state of a running check. -/
theorem Kept.during (h : Kept s s.covered) (hrunning : s.dnf.done = false ∨ s.flatpak.done = false ∨
    s.firmware.done = false ∨ s.project.done = false) : Kept s s.checkParts := by
  rw [covered_of_busy (busy_of_running hrunning)] at h
  exact h

theorem Kept.readDnf (h : Kept s s.covered) (hprocess : s.dnfProcess = some .signature)
    {signature : Text} {now : ℤ} :
    Kept (s.readDnf signature now) (s.readDnf signature now).covered := by
  have hrunning := h.running hprocess
  have hduring := h.during (.inl hrunning)
  obtain ⟨hcovered, hnil⟩ := hduring.dnf.running hrunning
  have hother : s.dnfProcess ≠ some .security := by rw [hprocess]; nofun
  unfold Checks.readDnf
  by_cases hreuse : s.dnfForced = false ∧
      dnfAnswerReusable signature s.dnfCacheSignature s.dnfCacheAt now = true
  · rw [if_pos hreuse]
    have hsignature : s.dnfCacheSignature ≠ [] := by
      have hreusable := hreuse.2
      unfold dnfAnswerReusable at hreusable
      simp only [Bool.and_eq_true, decide_eq_true_eq] at hreusable
      exact hreusable.1.2 ▸ hreusable.1.1
    refine Kept.finishCheck ⟨⟨nofun, fun _ _ _ => h.cache hsignature hother, ?_⟩, hduring.flatpak,
      hduring.firmware, hduring.project, ⟨fun _ => rfl, fun _ => rfl⟩,
      fun _ _ => h.cache hsignature hother, nofun⟩
    rintro (hfalse | hfalse | hne)
    · cases hcovered.symm.trans hfalse
    · cases hfalse
    · exact absurd hnil hne
  · rw [if_neg hreuse]
    exact Kept.goesOn ⟨hduring.dnf, hduring.flatpak, hduring.firmware, hduring.project,
      ⟨nofun, fun hdone => (by cases hrunning.symm.trans hdone)⟩,
      fun hsignature _ => h.cache hsignature hother, nofun⟩ hrunning

theorem Kept.finishDnf (h : Kept s s.covered) (hprocess : s.dnfProcess = some .packages)
    {exitCode : ℤ} {names : List Text} {kernel errText : Text} {now : ℤ} :
    Kept (s.finishDnf exitCode names kernel errText now)
      (s.finishDnf exitCode names kernel errText now).covered := by
  have hrunning := h.running hprocess
  have hduring := h.during (.inl hrunning)
  unfold Checks.finishDnf
  dsimp only
  split_ifs with hexit hnames
  · refine Kept.goesOn ⟨⟨hduring.dnf.running, fun _ hdone => ?_, hduring.dnf.kept⟩,
      hduring.flatpak, hduring.firmware, hduring.project, ⟨nofun, fun hdone => ?_⟩,
      fun _ hne => absurd rfl hne, fun _ => rfl⟩ hrunning
    · cases hrunning.symm.trans hdone
    · cases hrunning.symm.trans hdone
  · exact Kept.finishCheck ⟨hduring.dnf.succeed hrunning _, hduring.flatpak, hduring.firmware,
      hduring.project, ⟨fun _ => rfl, fun _ => rfl⟩, fun _ _ => rfl, nofun⟩
  · exact Kept.finishCheck ⟨hduring.dnf.fail hrunning (commandError_ne_nil (by decide)),
      hduring.flatpak, hduring.firmware, hduring.project, ⟨fun _ => rfl, fun _ => rfl⟩,
      fun hne => absurd rfl hne, nofun⟩

theorem Kept.finishDnfSecurity (h : Kept s s.covered) (hprocess : s.dnfProcess = some .security)
    {exitCode : ℤ} {security : Option Security} :
    Kept (s.finishDnfSecurity exitCode security)
      (s.finishDnfSecurity exitCode security).covered := by
  have hrunning := h.running hprocess
  have hduring := h.during (.inl hrunning)
  unfold Checks.finishDnfSecurity
  refine Kept.finishCheck ⟨hduring.dnf.succeed hrunning _, hduring.flatpak, hduring.firmware,
    hduring.project, ⟨fun _ => rfl, fun _ => rfl⟩, fun _ _ => ?_, nofun⟩
  rw [← h.assembled hprocess]
  rfl

theorem Kept.finishFlatpak (h : Kept s s.covered) (hrunning : s.flatpak.done = false)
    {exitCode : ℤ} {names : List Text} {errText : Text} :
    Kept (s.finishFlatpak exitCode names errText)
      (s.finishFlatpak exitCode names errText).covered := by
  have hduring := h.during (.inr (.inl hrunning))
  unfold Checks.finishFlatpak
  split_ifs
  · exact Kept.finishCheck ⟨hduring.dnf, hduring.flatpak.succeed hrunning _, hduring.firmware,
      hduring.project, hduring.process, hduring.cache, hduring.assembled⟩
  · exact Kept.finishCheck ⟨hduring.dnf,
      hduring.flatpak.fail hrunning (commandError_ne_nil (by decide)), hduring.firmware,
      hduring.project, hduring.process, hduring.cache, hduring.assembled⟩

theorem Kept.finishFirmware (h : Kept s s.covered) (hrunning : s.firmware.done = false)
    {exitCode : ℤ} {devices : Option (List D)} {errText : Text} :
    Kept (s.finishFirmware exitCode devices errText)
      (s.finishFirmware exitCode devices errText).covered := by
  have hduring := h.during (.inr (.inr (.inl hrunning)))
  unfold Checks.finishFirmware
  refine Kept.finishCheck ⟨hduring.dnf, hduring.flatpak, ?_, hduring.project, hduring.process,
    hduring.cache, hduring.assembled⟩
  dsimp only
  split_ifs
  · exact hduring.firmware.succeed hrunning _
  · cases devices with
    | none => exact hduring.firmware.fail hrunning (by decide)
    | some found => exact hduring.firmware.succeed hrunning found
  · exact hduring.firmware.fail hrunning (commandError_ne_nil (by decide))

theorem Kept.finishProject (h : Kept s s.covered) (hrunning : s.project.done = false)
    {exitCode : ℤ} {project : Option Project} {errText : Text} :
    Kept (s.finishProject exitCode project errText)
      (s.finishProject exitCode project errText).covered := by
  have hduring := h.during (.inr (.inr (.inr hrunning)))
  unfold Checks.finishProject
  refine Kept.finishCheck ⟨hduring.dnf, hduring.flatpak, hduring.firmware, ?_, hduring.process,
    hduring.cache, hduring.assembled⟩
  dsimp only
  split_ifs
  · cases project with
    | none => exact hduring.project.fail hrunning (by decide)
    | some found => exact hduring.project.succeed hrunning found.published
  · exact hduring.project.fail hrunning (projectCheckError_ne_nil _)

theorem Kept.check (h : Kept s s.covered) : Kept s.check s.check.covered := by
  have hreset : Kept { s with checkFailureCount := 0 }
      ({ s with checkFailureCount := 0 } : Checks D).covered :=
    ⟨h.dnf, h.flatpak, h.firmware, h.project, h.process, h.cache, h.assembled⟩
  exact hreset.startCheck

theorem Kept.automaticCheck (h : Kept s s.covered) {resetRetries failedOnly : Bool} :
    Kept (s.automaticCheck resetRetries failedOnly)
      (s.automaticCheck resetRetries failedOnly).covered := by
  have hreset : Kept { s with checkFailureCount := 0 }
      ({ s with checkFailureCount := 0 } : Checks D).covered :=
    ⟨h.dnf, h.flatpak, h.firmware, h.project, h.process, h.cache, h.assembled⟩
  unfold Checks.automaticCheck
  dsimp only
  by_cases honline : s.online = false
  · rw [if_pos honline]
    exact h
  · rw [if_neg honline]
    cases resetRetries with
    | false => exact h.startCheck
    | true => exact hreset.startCheck

theorem Kept.finishRun (h : Kept s s.covered) {done : Bool} :
    Kept (s.finishRun done) (s.finishRun done).covered := by
  unfold Checks.finishRun
  by_cases hactive : s.runActive = true
  · rw [if_pos hactive]
    exact ⟨h.dnf, h.flatpak, h.firmware, h.project, h.process, h.cache, h.assembled⟩
  · rw [if_neg hactive]
    exact h

theorem Kept.step (h : Kept s s.covered) (event : CheckEvent D) :
    Kept (s.step event) (s.step event).covered := by
  cases event with
  | refreshes => exact h.check
  | automatic resetRetries failedOnly => exact h.automaticCheck
  | connects online =>
      exact ⟨h.dnf, h.flatpak, h.firmware, h.project, h.process, h.cache, h.assembled⟩
  | togglesFlatpak enabled checks =>
      have htoggled : Kept { s with flatpakEnabled := enabled }
          ({ s with flatpakEnabled := enabled } : Checks D).covered :=
        ⟨h.dnf, h.flatpak, h.firmware, h.project, h.process, h.cache, h.assembled⟩
      cases checks with
      | false => exact htoggled
      | true => exact htoggled.automaticCheck
  | signatureEnds listing now =>
      unfold Checks.step
      dsimp only
      split_ifs with hends
      · exact h.readDnf hends.1
      · exact h
  | dnfEnds exitCode names kernel errText now =>
      unfold Checks.step
      dsimp only
      split_ifs with hends
      · exact h.finishDnf hends.1
      · exact h
  | securityEnds exitCode security =>
      unfold Checks.step
      dsimp only
      split_ifs with hends
      · exact h.finishDnfSecurity hends.1
      · exact h
  | flatpakEnds exitCode names errText =>
      unfold Checks.step
      dsimp only
      split_ifs with hends
      · exact h.finishFlatpak hends.1
      · exact h
  | firmwareEnds exitCode devices errText =>
      unfold Checks.step
      dsimp only
      split_ifs with hends
      · exact h.finishFirmware hends.1
      · exact h
  | projectEnds exitCode project errText =>
      unfold Checks.step
      dsimp only
      split_ifs with hends
      · exact h.finishProject hends.1
      · exact h
  | runStarts includedFlatpak =>
      exact ⟨h.dnf, h.flatpak, h.firmware, h.project, h.process, h.cache, h.assembled⟩
  | runEnds done => exact h.finishRun
  | dismisses => exact ⟨h.dnf, h.flatpak, h.firmware, h.project, h.process, h.cache, h.assembled⟩
  | rechecks =>
      have hstopped : Kept { s with recheck := false }
          ({ s with recheck := false } : Checks D).covered :=
        ⟨h.dnf, h.flatpak, h.firmware, h.project, h.process, h.cache, h.assembled⟩
      unfold Checks.step
      dsimp only
      split_ifs
      · exact hstopped.check
      · exact h
  | runsCheck =>
      have htaken : Kept { s with deferredCheck := false }
          ({ s with deferredCheck := false } : Checks D).covered :=
        ⟨h.dnf, h.flatpak, h.firmware, h.project, h.process, h.cache, h.assembled⟩
      unfold Checks.step
      dsimp only
      split_ifs
      · exact htaken.check
      · exact h
  | runsStart =>
      have htaken : Kept { s with deferredStart := none }
          ({ s with deferredStart := none } : Checks D).covered :=
        ⟨h.dnf, h.flatpak, h.firmware, h.project, h.process, h.cache, h.assembled⟩
      unfold Checks.step
      dsimp only
      cases s.deferredStart with
      | none => exact h
      | some forced => exact htaken.startCheck

theorem kept_unchecked (flatpakEnabled : Bool) :
    Kept (unchecked flatpakEnabled : Checks D) (unchecked flatpakEnabled : Checks D).covered :=
  ⟨Channel.good_idle _, Channel.good_idle _, Channel.good_idle _, Channel.good_idle _,
    ⟨fun _ => rfl, fun _ => rfl⟩, fun hne => absurd rfl hne, nofun⟩

end

end Updates

end CybexOS
