/-
Runs of managed files: only what a call asked to write is ever replaced, and what a
killed call leaves is taken up again by the next one, except in two places.
-/
import CybexOS.Reconcile.ManagedFile

namespace CybexOS

namespace Reconcile

section

variable {D : Type} [DecidableEq D] {sha256 : Text → D} {s t : Disk D} {path destination : Text}
  {requested : Option Text} {bytes : Text} {entry : Entry} {digests : List D}

/-! ### Fields -/

namespace Disk

@[simp] theorem entries_put :
    (s.put destination entry).entries path = if path = destination then entry else s.entries path :=
  Function.update_apply _ _ _ _

@[simp] theorem ledger_put : (s.put destination entry).ledger = s.ledger := rfl

@[simp] theorem backups_put : (s.put destination entry).backups = s.backups := rfl

@[simp] theorem entries_own : (s.own destination digests).entries = s.entries := rfl

@[simp] theorem ledger_own :
    (s.own destination digests).ledger path =
      if path = destination then digests else s.ledger path :=
  Function.update_apply _ _ _ _

@[simp] theorem backups_own : (s.own destination digests).backups = s.backups := rfl

@[simp] theorem entries_backUp {key digest : D} : (s.backUp key digest bytes).entries = s.entries :=
  rfl

@[simp] theorem ledger_backUp {key digest : D} : (s.backUp key digest bytes).ledger = s.ledger :=
  rfl

theorem backups_backUp {key digest key' digest' : D} :
    (s.backUp key digest bytes).backups key' digest' =
      if key' = key ∧ digest' = digest then some bytes else s.backups key' digest' := by
  unfold backUp
  dsimp only
  rw [Function.update_apply]
  by_cases hkey : key' = key
  · rw [if_pos hkey, Function.update_apply, hkey]
    simp
  · rw [if_neg hkey, if_neg fun h => hkey h.1]

end Disk

/-! ### What a call passes -/

/-- The digests of what is at the path and of what is to be there. -/
def bothDigests (sha256 : Text → D) (current requested : Option Text) : List D :=
  ((current.map sha256).toList ++ (requested.map sha256).toList).eraseDups

theorem mem_bothDigests {current : Option Text} {digest : D} :
    digest ∈ bothDigests sha256 current requested ↔
      current.map sha256 = some digest ∨ requested.map sha256 = some digest := by
  unfold bothDigests
  rw [List.mem_eraseDups, List.mem_append, Option.mem_toList, Option.mem_toList]

/-- The bytes to keep before they are replaced. -/
def Disk.spared (s : Disk D) (sha256 : Text → D) (destination : Text) (requested : Option Text) :
    Option Text :=
  (s.entries destination).bytes.filter fun bytes =>
    some bytes ≠ requested && (s.backups (sha256 destination) (sha256 bytes)).isNone

def Disk.backed (s : Disk D) (sha256 : Text → D) (destination : Text) (requested : Option Text) :
    Disk D :=
  match s.spared sha256 destination requested with
  | some bytes => s.backUp (sha256 destination) (sha256 bytes) bytes
  | none => s

/-- The disk whose ledger has both digests, and the one with the content besides. -/
def Disk.claimed (s : Disk D) (sha256 : Text → D) (destination : Text) (requested : Option Text) :
    Disk D :=
  (s.backed sha256 destination requested).own destination
    (bothDigests sha256 (s.entries destination).bytes requested)

def Disk.placed (s : Disk D) (sha256 : Text → D) (destination : Text) (requested : Option Text) :
    Disk D :=
  (s.claimed sha256 destination requested).put destination (.holding requested)

/-- The disk after each effect of a call that takes the path over. -/
def Disk.passed (s : Disk D) (sha256 : Text → D) (destination : Text) (requested : Option Text) :
    List (Disk D) :=
  (if (s.spared sha256 destination requested).isSome then [s.backed sha256 destination requested]
    else []) ++
    s.claimed sha256 destination requested ::
      if (s.entries destination).bytes = requested then
        [(s.claimed sha256 destination requested).own destination (requested.map sha256).toList]
      else [s.placed sha256 destination requested,
        (s.placed sha256 destination requested).own destination (requested.map sha256).toList]

/-- What is kept before the bytes of a path are replaced. -/
theorem keepBackup_spared {current : Option Text}
    (hcurrent : (s.entries destination).bytes = current) :
    keepBackup sha256 destination (if decide (current ≠ requested) then current else none) s =
      ⟨if (s.spared sha256 destination requested).isSome then
          [s.backed sha256 destination requested] else [], .ok ()⟩ := by
  unfold Disk.backed Disk.spared
  rw [hcurrent]
  by_cases hsame : current = requested
  · subst hsame
    cases current <;> simp [keepBackup] <;> rfl
  · cases current with
    | none =>
        rw [if_pos (by simpa using hsame)]
        rfl
    | some bytes =>
        rw [if_pos (by simpa using hsame)]
        refine Program.look_bind_apply.trans ?_
        cases hkept : s.backups (sha256 destination) (sha256 bytes) with
        | none =>
            have hspared : (some bytes).filter (fun bytes => decide (some bytes ≠ requested) &&
                (s.backups (sha256 destination) (sha256 bytes)).isNone) = some bytes :=
              Option.filter_eq_some_iff.mpr ⟨rfl, by simp [hsame, hkept]⟩
            rw [hspared]
            rfl
        | some kept =>
            have hspared : (some bytes).filter (fun bytes => decide (some bytes ≠ requested) &&
                (s.backups (sha256 destination) (sha256 bytes)).isNone) = none := by
              simp [hkept]
            rw [hspared]
            rfl

/-- The last state a list of effects leads to. -/
theorem backed_last :
    (if (s.spared sha256 destination requested).isSome then
      [s.backed sha256 destination requested] else []).getLastD s =
        s.backed sha256 destination requested := by
  unfold Disk.backed
  cases s.spared sha256 destination requested <;> rfl

/-- What a call reports that is not killed. -/
theorem manage_apply {check : Bool} :
    manage sha256 destination requested check s =
      ⟨if s.custom sha256 destination requested = true ∨ check = true then []
        else s.passed sha256 destination requested,
        .ok (if s.custom sha256 destination requested then ⟨false, true⟩
          else ⟨(s.entries destination).bytes ≠ requested, false⟩)⟩ := by
  refine Program.look_bind_apply.trans ?_
  dsimp only [id]
  by_cases hcustom : s.custom sha256 destination requested = true
  · rw [if_pos hcustom, if_pos (.inl hcustom), if_pos hcustom]
    rfl
  · rw [if_neg hcustom, if_neg hcustom]
    cases check with
    | true =>
        rw [if_pos rfl, if_pos (.inr rfl)]
        rfl
    | false =>
        have hneither : ¬ (s.custom sha256 destination requested = true ∨ false = true) :=
          not_or.mpr ⟨hcustom, Bool.false_ne_true⟩
        rw [if_neg Bool.false_ne_true, if_neg hneither, Program.bind_apply, keepBackup_spared rfl]
        dsimp only
        rw [backed_last, Program.effect_bind_apply]
        unfold publish Disk.passed
        by_cases hsame : (s.entries destination).bytes = requested
        · have hunchanged : ¬ decide ((s.entries destination).bytes ≠ requested) = true := by
            simpa using hsame
          rw [if_neg hunchanged, if_pos hsame]
          rfl
        · have hchanged : decide ((s.entries destination).bytes ≠ requested) = true := by
            simpa using hsame
          rw [if_pos hchanged, if_neg hsame]
          rfl

theorem moments_manage {check : Bool} :
    (manage sha256 destination requested check).moments s =
      if s.custom sha256 destination requested = true ∨ check = true then []
      else s.passed sha256 destination requested :=
  congrArg Outcome.moments manage_apply

theorem mem_passed (h : t ∈ s.passed sha256 destination requested) :
    t = s.backed sha256 destination requested ∨ t = s.claimed sha256 destination requested ∨
      t = s.placed sha256 destination requested ∨
      t = (s.claimed sha256 destination requested).own destination
        (requested.map sha256).toList ∨
      t = (s.placed sha256 destination requested).own destination
        (requested.map sha256).toList := by
  unfold Disk.passed at h
  rcases List.mem_append.mp h with hbacked | hrest
  · split_ifs at hbacked
    · exact .inl (List.mem_singleton.mp hbacked)
    · cases hbacked
  · rcases List.mem_cons.mp hrest with hclaimed | hlast
    · exact .inr (.inl hclaimed)
    · split_ifs at hlast
      · exact .inr (.inr (.inr (.inl (List.mem_singleton.mp hlast))))
      · rcases List.mem_cons.mp hlast with hplaced | hsettled
        · exact .inr (.inr (.inl hplaced))
        · exact .inr (.inr (.inr (.inr (List.mem_singleton.mp hsettled))))

@[simp] theorem entries_backed : (s.backed sha256 destination requested).entries = s.entries := by
  unfold Disk.backed
  cases s.spared sha256 destination requested <;> rfl

@[simp] theorem ledger_backed : (s.backed sha256 destination requested).ledger = s.ledger := by
  unfold Disk.backed
  cases s.spared sha256 destination requested <;> rfl

/-- A call is about its own path. -/
theorem elsewhere_passed (h : t ∈ s.passed sha256 destination requested)
    (hpath : path ≠ destination) :
    t.entries path = s.entries path ∧ t.ledger path = s.ledger path := by
  rcases mem_passed h with rfl | rfl | rfl | rfl | rfl <;>
    simp [Disk.placed, Disk.claimed, hpath]

theorem ledger_passed (h : t ∈ s.passed sha256 destination requested) {digest : D}
    (hdigest : digest ∈ t.ledger destination) :
    digest ∈ s.ledger destination ∨ (s.entries destination).bytes.map sha256 = some digest ∨
      requested.map sha256 = some digest := by
  rcases mem_passed h with rfl | rfl | rfl | rfl | rfl
  · rw [ledger_backed] at hdigest
    exact .inl hdigest
  · exact .inr (mem_bothDigests.mp (by simpa [Disk.claimed] using hdigest))
  · exact .inr (mem_bothDigests.mp (by simpa [Disk.placed, Disk.claimed] using hdigest))
  · exact .inr (.inr (by simpa using hdigest))
  · exact .inr (.inr (by simpa using hdigest))

/-! ### What is replaced -/

/-- Bytes are replaced that a call has asked to write there, and they are backed up;
what is no regular file stays. -/
structure Keeping (sha256 : Text → D) (asked : Text → List D) (s t : Disk D) : Prop where
  bytes : ∀ path bytes, s.entries path = .file bytes → t.entries path = .file bytes ∨
    (sha256 bytes ∈ asked path ∧ t.backups (sha256 path) (sha256 bytes) = some bytes)
  others : ∀ path, s.entries path = .other → t.entries path = .other

/-- Each effect of a call keeps what it may not replace; a call leaves a path alone
whose file was deleted since, and every other path. -/
structure Spares (sha256 : Text → D) (p : Past D) (destination : Text) (requested : Option Text)
    (check : Bool) : Prop where
  keeping : List.IsChain (Keeping sha256 p.asked)
    (p.disk :: (manage sha256 destination requested check).moments p.disk)
  deleted : p.disk.entries destination = .absent → p.disk.ledger destination ≠ [] →
    (manage sha256 destination requested check).moments p.disk = []
  elsewhere : ∀ t ∈ (manage sha256 destination requested check).moments p.disk,
    ∀ path, path ≠ destination →
      t.entries path = p.disk.entries path ∧ t.ledger path = p.disk.ledger path

def Spared (sha256 : Text → D) (p : Past D) : ManageEvent → Prop
  | .calls destination requested check _ => Spares sha256 p destination requested check
  | .edits _ _ => True

/-- The ledger has only digests that were asked for, and a backup has its digest. -/
structure Known (sha256 : Text → D) (asked : Text → List D) (s : Disk D) : Prop where
  ledger : ∀ path digest, digest ∈ s.ledger path → digest ∈ asked path
  backups : ∀ key digest bytes, s.backups key digest = some bytes → sha256 bytes = digest

/-- What a call may touch that takes the path over. -/
theorem owned_of_not_custom (h : s.custom sha256 destination requested = false)
    (hbytes : s.entries destination = .file bytes) :
    requested.map sha256 = some (sha256 bytes) ∨ sha256 bytes ∈ s.ledger destination := by
  unfold Disk.custom at h
  rw [hbytes] at h
  by_cases hdigest : requested.map sha256 = some (sha256 bytes)
  · exact .inl hdigest
  · exact .inr (by simpa [hdigest] using h)

theorem keeping_of_entries {asked : Text → List D} (h : t.entries = s.entries) :
    Keeping sha256 asked s t :=
  ⟨fun path _ hbytes => .inl (by rw [h, hbytes]), fun path hother => by rw [h, hother]⟩

theorem backups_backed (hsha : Function.Injective sha256) {asked : Text → List D}
    (hknown : Known sha256 asked s) (hbytes : s.entries destination = .file bytes)
    (hchanged : some bytes ≠ requested) :
    (s.backed sha256 destination requested).backups (sha256 destination) (sha256 bytes) =
      some bytes := by
  have hspared : s.spared sha256 destination requested =
      if (s.backups (sha256 destination) (sha256 bytes)).isNone then some bytes else none := by
    unfold Disk.spared Entry.bytes
    rw [hbytes]
    simp [hchanged, Option.filter_some]
  unfold Disk.backed
  rw [hspared]
  cases hkept : s.backups (sha256 destination) (sha256 bytes) with
  | none =>
      refine Disk.backups_backUp.trans ?_
      rw [if_pos ⟨rfl, rfl⟩]
  | some kept =>
      have hsame : kept = bytes := hsha (hknown.backups _ _ _ hkept)
      exact hkept.trans (congrArg some hsame)

theorem known_backed {asked : Text → List D} (hknown : Known sha256 asked s) {key digest : D}
    (hkept : (s.backed sha256 destination requested).backups key digest = some bytes) :
    sha256 bytes = digest := by
  unfold Disk.backed at hkept
  cases hspared : s.spared sha256 destination requested with
  | none =>
      rw [hspared] at hkept
      exact hknown.backups _ _ _ hkept
  | some spared =>
      rw [hspared, Disk.backups_backUp] at hkept
      split_ifs at hkept with hkey
      · rw [← Option.some.inj hkept]
        exact hkey.2.symm
      · exact hknown.backups _ _ _ hkept

theorem backups_passed (h : t ∈ s.passed sha256 destination requested) :
    t.backups = (s.backed sha256 destination requested).backups := by
  rcases mem_passed h with rfl | rfl | rfl | rfl | rfl <;> rfl

/-- The file is replaced only after its bytes are backed up. -/
theorem keeping_placed (hsha : Function.Injective sha256) {asked : Text → List D}
    (hknown : Known sha256 asked s) (hcustom : s.custom sha256 destination requested = false)
    (hchanged : (s.entries destination).bytes ≠ requested) :
    Keeping sha256 asked (s.claimed sha256 destination requested)
      (s.placed sha256 destination requested) := by
  have hclaimed : (s.claimed sha256 destination requested).entries = s.entries := by
    simp [Disk.claimed]
  have hplaced (path : Text) : (s.placed sha256 destination requested).entries path =
      if path = destination then .holding requested else s.entries path := by
    simp [Disk.placed, Disk.claimed]
  refine ⟨fun path bytes hbytes => ?_, fun path hother => ?_⟩
  · rw [hclaimed] at hbytes
    rw [hplaced]
    by_cases hpath : path = destination
    · subst hpath
      refine .inr ⟨?_, ?_⟩
      · have hne : some bytes ≠ requested := by simpa [hbytes, Entry.bytes] using hchanged
        rcases owned_of_not_custom hcustom hbytes with hdigest | howned
        · obtain ⟨content, rfl, hsame⟩ := Option.map_eq_some_iff.mp hdigest
          exact absurd (congrArg some (hsha hsame).symm) hne
        · exact hknown.ledger _ _ howned
      · have hne : some bytes ≠ requested := by simpa [hbytes, Entry.bytes] using hchanged
        exact backups_backed hsha hknown hbytes hne
    · rw [if_neg hpath]
      exact .inl hbytes
  · rw [hclaimed] at hother
    rw [hplaced]
    by_cases hpath : path = destination
    · subst hpath
      simp [Disk.custom, hother] at hcustom
    · rw [if_neg hpath]
      exact hother

theorem spares_of_known (hsha : Function.Injective sha256) {p : Past D} {check : Bool}
    (hknown : Known sha256 p.asked p.disk) : Spares sha256 p destination requested check := by
  obtain ⟨s, asked⟩ := p
  dsimp only at hknown
  by_cases hnone : s.custom sha256 destination requested = true ∨ check = true
  · have hmoments : (manage sha256 destination requested check).moments s = _ :=
      moments_manage.trans (if_pos hnone)
    refine ⟨?_, fun _ _ => hmoments, fun t ht => ?_⟩
    · dsimp only
      rw [hmoments]
      exact List.IsChain.singleton s
    · rw [hmoments] at ht
      cases ht
  · have hmoments : (manage sha256 destination requested check).moments s = _ :=
      moments_manage.trans (if_neg hnone)
    have hcustom : s.custom sha256 destination requested = false :=
      Bool.eq_false_iff.mpr fun h => hnone (.inl h)
    refine ⟨?_, fun habsent howned => ?_, fun t ht path hpath => ?_⟩
    · dsimp only
      rw [hmoments]
      unfold Disk.passed
      have hclaimed : (s.claimed sha256 destination requested).entries =
          (s.backed sha256 destination requested).entries := rfl
      have hfirst {rest : List (Disk D)}
          (hrest : List.IsChain (Keeping sha256 asked)
            (s.claimed sha256 destination requested :: rest)) :
          List.IsChain (Keeping sha256 asked) (s ::
            ((if (s.spared sha256 destination requested).isSome then
              [s.backed sha256 destination requested] else []) ++
                s.claimed sha256 destination requested :: rest)) := by
        split_ifs
        · exact List.isChain_cons_cons.mpr ⟨keeping_of_entries entries_backed,
            List.isChain_cons_cons.mpr ⟨keeping_of_entries hclaimed, hrest⟩⟩
        · exact List.isChain_cons_cons.mpr
            ⟨keeping_of_entries (hclaimed.trans entries_backed), hrest⟩
      apply hfirst
      split_ifs with hsame
      · exact List.isChain_cons_cons.mpr
          ⟨keeping_of_entries rfl, List.IsChain.singleton _⟩
      · exact List.isChain_cons_cons.mpr ⟨keeping_placed hsha hknown hcustom hsame,
          List.isChain_cons_cons.mpr ⟨keeping_of_entries rfl, List.IsChain.singleton _⟩⟩
    · dsimp only at habsent howned
      simp [Disk.custom, habsent, howned] at hcustom
    · dsimp only at ht
      rw [hmoments] at ht
      exact elsewhere_passed ht hpath

/-- What a call leaves has only digests that it or an earlier one was asked to write. -/
theorem Known.step (p : Past D) (event : ManageEvent) (h : Known sha256 p.asked p.disk) :
    Known sha256 (p.step sha256 event).asked (p.step sha256 event).disk := by
  cases event with
  | edits path entry => exact ⟨h.ledger, h.backups⟩
  | calls destination requested check killed =>
      obtain ⟨s, asked⟩ := p
      dsimp only at h
      unfold Past.step
      dsimp only
      have hmore (path : Text) (digest : D) (hasked : digest ∈ asked path) :
          digest ∈ (if check then asked else Function.update asked destination
            ((requested.map sha256).toList ++ asked destination)) path := by
        cases check with
        | true => exact hasked
        | false =>
            rw [if_neg Bool.false_ne_true, Function.update_apply]
            split_ifs with hpath
            · rw [hpath] at hasked
              exact List.mem_append_right _ hasked
            · exact hasked
      refine Program.leaves_of_moments ⟨fun path digest hdigest =>
        hmore path digest (h.ledger path digest hdigest), h.backups⟩ (fun t ht => ?_) killed
      rw [moments_manage] at ht
      split_ifs at ht with hnone
      · cases ht
      · obtain ⟨hcustom, hcheck⟩ := not_or.mp hnone
        refine ⟨fun path digest hdigest => ?_, fun key digest bytes hkept => ?_⟩
        · by_cases hpath : path = destination
          · subst hpath
            have hrequested (hnew : requested.map sha256 = some digest) :
                digest ∈ (if check then asked else Function.update asked path
                  ((requested.map sha256).toList ++ asked path)) path := by
              rw [if_neg hcheck, Function.update_self, hnew]
              exact List.mem_append_left _ (List.mem_singleton.mpr rfl)
            rcases ledger_passed ht hdigest with hold | hcurrent | hnew
            · exact hmore path digest (h.ledger path digest hold)
            · cases hentry : s.entries path with
              | absent => simp [hentry, Entry.bytes] at hcurrent
              | other => simp [hentry, Entry.bytes] at hcurrent
              | file bytes =>
                  have hsame : sha256 bytes = digest := by
                    simpa [hentry, Entry.bytes] using hcurrent
                  rcases owned_of_not_custom (Bool.eq_false_iff.mpr hcustom) hentry with
                    hdesired | howned
                  · exact hrequested (hdesired.trans (congrArg some hsame))
                  · exact hmore path digest (h.ledger path digest (hsame ▸ howned))
            · exact hrequested hnew
          · rw [(elsewhere_passed ht hpath).2] at hdigest
            exact hmore path digest (h.ledger path digest hdigest)
        · rw [backups_passed ht] at hkept
          exact known_backed h hkept

/-- The last call wrote what is there. -/
def Ours (sha256 : Text → D) (s : Disk D) (path : Text) : Prop :=
  match s.entries path with
  | .absent => s.ledger path = []
  | .file bytes => sha256 bytes ∈ s.ledger path
  | .other => False

/-- The number of effects between which a new file is in the ledger and not yet
written, or a removed one still in the ledger. -/
def gap (sha256 : Text → D) (s : Disk D) (destination : Text) (requested : Option Text) :
    Option ℕ :=
  match s.entries destination, requested with
  | .absent, some _ => some 1
  | .file _, none => some (2 + (s.spared sha256 destination requested).isSome.toNat)
  | _, _ => none

/-- The call is killed right there. -/
def Cut (sha256 : Text → D) (s : Disk D) (destination : Text) (requested : Option Text)
    (killed : Option ℕ) : Prop :=
  ∃ effects, killed = some effects ∧ gap sha256 s destination requested = some effects

theorem custom_of_ours (h : Ours sha256 s destination) :
    s.custom sha256 destination requested = false := by
  unfold Ours at h
  unfold Disk.custom
  cases hentry : s.entries destination with
  | absent =>
      rw [hentry] at h
      simpa using h
  | file bytes =>
      rw [hentry] at h
      simp only [Bool.and_eq_false_iff, decide_eq_false_iff_not, not_not]
      exact .inr h
  | other =>
      rw [hentry] at h
      exact h.elim

/-- A path that is absent and in the ledger is left alone. -/
theorem custom_of_deleted (sha256 : Text → D) (requested : Option Text)
    (habsent : s.entries destination = .absent)
    (howned : s.ledger destination ≠ []) : s.custom sha256 destination requested = true := by
  unfold Disk.custom
  rw [habsent]
  simpa using howned

theorem ours_of_eq (h : Ours sha256 s path) (hentries : t.entries path = s.entries path)
    (hledger : t.ledger path = s.ledger path) : Ours sha256 t path := by
  unfold Ours at h ⊢
  rw [hentries, hledger]
  exact h

variable (requested) in
/-- The content is there, and the ledger has its digest. -/
theorem ours_holding (hentries : t.entries path = .holding requested)
    (hledger : ∀ digest, requested.map sha256 = some digest → digest ∈ t.ledger path)
    (hnone : requested = none → t.ledger path = []) : Ours sha256 t path := by
  unfold Ours
  rw [hentries]
  cases requested with
  | none => exact hnone rfl
  | some content => exact hledger _ rfl

theorem holding_bytes (h : Ours sha256 s path) :
    .holding (s.entries path).bytes = s.entries path := by
  unfold Ours at h
  cases hentry : s.entries path with
  | absent => rfl
  | file bytes => rfl
  | other =>
      rw [hentry] at h
      exact h.elim

section

variable (h : Ours sha256 s destination)

include h

variable (requested) in
theorem ours_backed : Ours sha256 (s.backed sha256 destination requested) destination :=
  ours_of_eq h (congrFun entries_backed destination) (congrFun ledger_backed destination)

variable (requested) in
/-- With both digests in the ledger the old file is ours, but no absent one. -/
theorem ours_claimed (hold : s.entries destination ≠ .absent) :
    Ours sha256 (s.claimed sha256 destination requested) destination := by
  refine ours_holding (s.entries destination).bytes ?_ (fun digest hdigest => ?_)
    fun hnone => ?_
  · rw [holding_bytes h]
    simp [Disk.claimed]
  · simp only [Disk.claimed, Disk.ledger_own, if_true]
    exact mem_bothDigests.mpr (.inl hdigest)
  · cases hentry : s.entries destination with
    | absent => exact absurd hentry hold
    | file bytes => simp [hentry, Entry.bytes] at hnone
    | other =>
        unfold Ours at h
        rw [hentry] at h
        exact h.elim

variable (requested) in
theorem ours_placed (hnew : requested ≠ none) :
    Ours sha256 (s.placed sha256 destination requested) destination := by
  refine ours_holding requested ?_ (fun digest hdigest => ?_)
    fun hnone => absurd hnone hnew
  · simp [Disk.placed]
  · simp only [Disk.placed, Disk.claimed, Disk.ledger_put, Disk.ledger_own, if_true]
    exact mem_bothDigests.mpr (.inr hdigest)

theorem ours_settled (hentries : t.entries destination = .holding requested) :
    Ours sha256 (t.own destination (requested.map sha256).toList) destination := by
  refine ours_holding requested ?_ (fun digest hdigest => ?_) fun hnone => ?_
  · simpa using hentries
  · simpa using hdigest
  · simp [hnone]

omit h

end

/-- Nothing is there, but the ledger has a digest. -/
theorem deleted_claimed (sha256 : Text → D) (content : Text)
    (habsent : s.entries destination = .absent) :
    (s.claimed sha256 destination (some content)).entries destination = .absent ∧
      (s.claimed sha256 destination (some content)).ledger destination ≠ [] := by
  refine ⟨by simpa [Disk.claimed] using habsent, ?_⟩
  simp only [Disk.claimed, Disk.ledger_own, if_true]
  exact List.ne_nil_of_mem (mem_bothDigests.mpr (.inr rfl))

theorem deleted_placed (sha256 : Text → D)
    (hbytes : s.entries destination = .file bytes) :
    (s.placed sha256 destination none).entries destination = .absent ∧
      (s.placed sha256 destination none).ledger destination ≠ [] := by
  refine ⟨by simp [Disk.placed, Entry.holding], ?_⟩
  simp only [Disk.placed, Disk.claimed, Disk.ledger_put, Disk.ledger_own, if_true]
  refine List.ne_nil_of_mem (a := sha256 bytes) (mem_bothDigests.mpr (.inl ?_))
  rw [hbytes]
  rfl

variable (requested) in
theorem moments_of_ours (h : Ours sha256 s destination) :
    (manage sha256 destination requested false).moments s =
      s.passed sha256 destination requested := by
  rw [moments_manage, if_neg]
  rw [custom_of_ours h]
  simp

theorem spared_absent (habsent : s.entries destination = .absent) :
    s.spared sha256 destination requested = none := by
  unfold Disk.spared
  rw [habsent]
  rfl

/-- A call that replaces nothing by nothing. -/
theorem ours_passed (h : Ours sha256 s destination)
    (hgap : gap sha256 s destination requested = none)
    (ht : t ∈ s.passed sha256 destination requested) :
    Ours sha256 t destination := by
  have hclaimed : Ours sha256 (s.claimed sha256 destination requested) destination := by
    by_cases habsent : s.entries destination = .absent
    · have hnone : requested = none := by
        cases requested with
        | none => rfl
        | some content => simp [gap, habsent] at hgap
      refine ours_holding none ?_ (fun _ hdigest => (by cases hdigest)) fun _ => ?_
      · simpa [Disk.claimed, Entry.holding] using habsent
      · simp [Disk.claimed, hnone, habsent, Entry.bytes, bothDigests]
    · exact ours_claimed requested h habsent
  have hentries : (s.placed sha256 destination requested).entries destination =
      .holding requested := by simp [Disk.placed]
  have hplaced (hne : (s.entries destination).bytes ≠ requested) :
      Ours sha256 (s.placed sha256 destination requested) destination := by
    refine ours_placed requested h ?_
    rintro rfl
    cases hentry : s.entries destination with
    | absent => exact hne (by rw [hentry]; rfl)
    | file bytes => simp [gap, hentry] at hgap
    | other => exact hne (by rw [hentry]; rfl)
  unfold Disk.passed at ht
  rcases List.mem_append.mp ht with hbacked | hrest
  · split_ifs at hbacked
    · rw [List.mem_singleton.mp hbacked]
      exact ours_backed requested h
    · cases hbacked
  · rcases List.mem_cons.mp hrest with rfl | hlast
    · exact hclaimed
    · split_ifs at hlast with hsame
      · rw [List.mem_singleton.mp hlast]
        refine ours_settled h ?_
        rw [← hsame, holding_bytes h]
        simp [Disk.claimed]
      · rcases List.mem_cons.mp hlast with rfl | hsettled
        · exact hplaced hsame
        · rw [List.mem_singleton.mp hsettled]
          exact ours_settled h hentries

theorem Ours.leaves {program : Program (Disk D) Unit Report} (h : Ours sha256 s path)
    (hmoments : ∀ t ∈ program.moments s, Ours sha256 t path) (killed : Option ℕ) :
    Ours sha256 (program.leaves killed s) path :=
  @Program.leaves_of_moments _ _ _ s program (fun t => Ours sha256 t path) h hmoments killed

variable (requested) in
/-- What a killed call leaves is taken up by the next one, unless it was killed between
a new file's ledger and the file, or a removed file and its ledger. -/
theorem ours_leaves_iff (h : Ours sha256 s destination) (killed : Option ℕ) :
    (Ours sha256 ((manage sha256 destination requested false).leaves killed s) destination ∧
        ¬ Cut sha256 s destination requested killed) ∨
      (Cut sha256 s destination requested killed ∧
        ((manage sha256 destination requested false).leaves killed s).entries destination =
          .absent ∧
        ((manage sha256 destination requested false).leaves killed s).ledger destination ≠ []) := by
  have hmoments := moments_of_ours requested h
  cases hgap : gap sha256 s destination requested with
  | none =>
      refine .inl ⟨?_, fun hcut => (by cases hgap.symm.trans hcut.choose_spec.2)⟩
      refine h.leaves (fun t ht => ?_) killed
      rw [hmoments] at ht
      exact ours_passed h hgap ht
  | some effects =>
      have hcut : Cut sha256 s destination requested killed ↔ killed = some effects := by
        unfold Cut
        rw [hgap]
        simp
      rw [hcut]
      unfold Program.leaves Program.last
      rw [hmoments]
      have hsettled : Ours sha256 ((s.placed sha256 destination requested).own destination
          (requested.map sha256).toList) destination :=
        ours_settled h (by simp [Disk.placed])
      cases hentry : s.entries destination with
      | other => simp [gap, hentry] at hgap
      | absent =>
          cases requested with
          | none => simp [gap, hentry] at hgap
          | some content =>
              obtain rfl : 1 = effects := by simpa [gap, hentry] using hgap
              have hplaced := ours_placed (some content) h nofun
              have hdeleted := deleted_claimed sha256 content hentry
              unfold Disk.passed
              have hne : ¬ (s.entries destination).bytes = some content := by
                simp [hentry, Entry.bytes]
              rw [spared_absent hentry, if_neg hne]
              rcases killed with _ | _ | _ | _ | killed
              · exact .inl ⟨hsettled, nofun⟩
              · exact .inl ⟨h, by simp⟩
              · exact .inr ⟨rfl, hdeleted⟩
              · exact .inl ⟨hplaced, by simp⟩
              · refine .inl ⟨?_, by simp⟩
                simpa using hsettled
      | file bytes =>
          cases requested with
          | some content => simp [gap, hentry] at hgap
          | none =>
              have hbacked := ours_backed none h
              have hclaimed := ours_claimed none h (by rw [hentry]; nofun)
              have hdeleted := deleted_placed sha256 hentry
              unfold Disk.passed
              rw [if_neg (by simp [hentry, Entry.bytes] : ¬ (s.entries destination).bytes = none)]
              cases hspared : s.spared sha256 destination none with
              | none =>
                  obtain rfl : 2 = effects := by simpa [gap, hentry, hspared] using hgap
                  rcases killed with _ | _ | _ | _ | killed
                  · exact .inl ⟨hsettled, nofun⟩
                  · exact .inl ⟨h, by simp⟩
                  · exact .inl ⟨hclaimed, by simp⟩
                  · exact .inr ⟨rfl, hdeleted⟩
                  · refine .inl ⟨?_, by simp⟩
                    simpa using hsettled
              | some spared =>
                  obtain rfl : 3 = effects := by simpa [gap, hentry, hspared] using hgap
                  rcases killed with _ | _ | _ | _ | _ | killed
                  · exact .inl ⟨hsettled, nofun⟩
                  · exact .inl ⟨h, by simp⟩
                  · exact .inl ⟨hbacked, by simp⟩
                  · exact .inl ⟨hclaimed, by simp⟩
                  · exact .inr ⟨rfl, hdeleted⟩
                  · refine .inl ⟨?_, by simp⟩
                    simpa using hsettled

omit [DecidableEq D] in
/-- A path where nothing is, before the first call. -/
theorem ours_fresh {entries : Text → Entry} (h : entries path = .absent) :
    Ours sha256 (Past.fresh entries).disk path := by
  unfold Ours Past.fresh
  dsimp only
  rw [h]

/-- A killed call leaves the path to the next call, or it was killed in the gap, and
then no later call touches the path again. -/
theorem manage_recovers (h : Ours sha256 s destination) (killed : Option ℕ) :
    (¬ Cut sha256 s destination requested killed ∧
        Ours sha256 ((manage sha256 destination requested false).leaves killed s) destination) ∨
      (Cut sha256 s destination requested killed ∧ ∀ later check,
        (manage sha256 destination later check).moments
            ((manage sha256 destination requested false).leaves killed s) = [] ∧
          (manage sha256 destination later check).result
            ((manage sha256 destination requested false).leaves killed s) = .ok ⟨false, true⟩) := by
  rcases ours_leaves_iff requested h killed with
    ⟨hours, hwhole⟩ | ⟨hcut, habsent, howned⟩
  · exact .inl ⟨hwhole, hours⟩
  · refine .inr ⟨hcut, fun later check => ?_⟩
    have hcustom := custom_of_deleted sha256 later habsent howned
    refine ⟨moments_manage.trans (if_pos (.inl hcustom)), ?_⟩
    refine (congrArg Outcome.result manage_apply).trans ?_
    rw [if_pos hcustom]

/-- The call is not killed in the gap, and nobody else writes the path. -/
def Uncut (sha256 : Text → D) (path : Text) (p : Past D) : ManageEvent → Prop
  | .calls destination requested check killed =>
      destination = path → check = false → ¬ Cut sha256 p.disk destination requested killed
  | .edits edited _ => edited ≠ path

theorem Ours.step {p : Past D} {event : ManageEvent} (h : Ours sha256 p.disk path)
    (huncut : Uncut sha256 path p event) : Ours sha256 (p.step sha256 event).disk path := by
  cases event with
  | edits edited entry =>
      refine ours_of_eq h ?_ rfl
      exact Disk.entries_put.trans (if_neg (Ne.symm huncut))
  | calls destination requested check killed =>
      unfold Past.step
      dsimp only
      by_cases hpath : path = destination
      · subst hpath
        cases check with
        | true =>
            refine h.leaves (fun t ht => ?_) killed
            rw [moments_manage, if_pos (.inr rfl)] at ht
            cases ht
        | false =>
            rcases manage_recovers h killed with
              ⟨-, hours⟩ | ⟨hcut, -⟩
            · exact hours
            · exact absurd hcut (huncut rfl rfl)
      · refine h.leaves (fun t ht => ?_) killed
        rw [moments_manage] at ht
        split_ifs at ht
        · cases ht
        · obtain ⟨hentries, hledger⟩ := elsewhere_passed ht hpath
          exact ours_of_eq h hentries hledger

/-- A call that is not killed leaves the content, or nothing, as requested. -/
theorem manage_last (h : Ours sha256 s destination) :
    ((manage sha256 destination requested false).last s).entries destination =
      .holding requested := by
  unfold Program.last
  rw [moments_of_ours requested h]
  unfold Disk.passed
  rw [Program.getLastD_append]
  by_cases hsame : (s.entries destination).bytes = requested
  · rw [if_pos hsame]
    refine Eq.trans ?_ ((holding_bytes h).symm.trans (congrArg Entry.holding hsame))
    simp [Disk.claimed]
  · rw [if_neg hsame]
    simp [Disk.placed]

end

/-! ### One path -/

/-- A default is written, edited, and then replaced by the next one. -/
def editedDefault : List ManageEvent :=
  [.calls (ascii "a") (some (ascii "old")) false none, .edits (ascii "a") (.file (ascii "own")),
    .calls (ascii "a") (some (ascii "new")) false none]

/-- A call that is killed after its first effect, before the file is there. -/
theorem manage_recovers_created :
    (¬ Cut id (Past.fresh (fun _ => .absent)).disk (ascii "a") (some (ascii "new")) (some 1) ∧
        Ours id ((manage id (ascii "a") (some (ascii "new")) false).leaves (some 1)
          (Past.fresh fun _ => .absent).disk) (ascii "a")) ∨
      (Cut id (Past.fresh (fun _ => .absent)).disk (ascii "a") (some (ascii "new")) (some 1) ∧
        ∀ later check, (manage id (ascii "a") later check).moments
              ((manage id (ascii "a") (some (ascii "new")) false).leaves (some 1)
                (Past.fresh fun _ => .absent).disk) = [] ∧
            (manage id (ascii "a") later check).result
              ((manage id (ascii "a") (some (ascii "new")) false).leaves (some 1)
                (Past.fresh fun _ => .absent).disk) = .ok ⟨false, true⟩) :=
  manage_recovers (ours_fresh rfl) (some 1)

/-- A call that is killed once the file is there. -/
def created : List ManageEvent := [.calls (ascii "a") (some (ascii "old")) false (some 2)]

end Reconcile

end CybexOS
