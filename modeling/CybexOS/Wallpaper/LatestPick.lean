/-
Runs of picks in the online view: the latest one becomes the wallpaper, unless
one is dropped because an earlier pick still has a place of its own.
-/
import CybexOS.Runs
import CybexOS.Wallpaper.Online

namespace CybexOS

namespace Wallpaper

/-! ### The property -/

/-- No helper is running or ending, and no pick is waiting for one. -/
def Downloads.Idle (s : Downloads) : Prop :=
  s.running = false ∧ s.pendingItem = none ∧ s.deferred = false

/-- The item has been set since the last pick, or its download has failed, or
the folder has changed during that. -/
def Downloads.Settled (s : Downloads) (item : Item) : Prop :=
  (s.picks.length, item.fileName) ∈ s.sets ∨ (s.failedId = item.id ∧ s.downloadError ≠ []) ∨
    s.moved = some item

/-- What was set was the latest pick then, and the latest pick is settled when
nothing is going on. -/
structure Latest (s : Downloads) : Prop where
  inOrder : ∀ record ∈ s.sets, ∃ item ∈ (s.picks.take record.1).getLast?, item.fileName = record.2
  settled : s.Idle → ∀ item ∈ s.picks.getLast?, s.Settled item

/-- No pick meets an earlier one that is still pending: a pick of the image that
is downloading comes before any other one, a saved one is set directly only if
no other is pending, and the deferred start meets no newer download. -/
def Fit (s : Downloads) : Event → Prop
  | .applies item =>
      (item.id = s.downloadingId →
        s.pendingItem = none ∧ ∀ other ∈ s.downloadItem, other.fileName = item.fileName) ∧
      (item.fileName ∈ s.saved → s.running = false → ∀ other ∈ s.pendingItem, other = item)
  | .startsDeferred => s.running = true → s.pendingItem = none
  | _ => True

instance (s : Downloads) : (event : Event) → Decidable (Fit s event)
  | .applies item => inferInstanceAs (Decidable ((item.id = s.downloadingId →
      s.pendingItem = none ∧ ∀ other ∈ s.downloadItem, other.fileName = item.fileName) ∧
      (item.fileName ∈ s.saved → s.running = false → ∀ other ∈ s.pendingItem, other = item)))
  | .startsDeferred => inferInstanceAs (Decidable (s.running = true → s.pendingItem = none))
  | .prints _ => isTrue trivial
  | .exits => isTrue trivial
  | .folderChanges _ _ => isTrue trivial

/-! ### The places of the latest pick -/

structure Held (s : Downloads) : Prop where
  running : s.running = true ↔ s.downloadItem ≠ none
  pending : ∀ item ∈ s.pendingItem, s.picks.getLast? = some item
  deferred : s.pendingItem ≠ none → s.running = false → s.deferred = true
  current : s.pendingItem = none → ∀ item ∈ s.downloadItem, s.picks.getLast? = some item
  place : ∀ item ∈ s.downloadItem, s.downloadDir = s.dir ∨ s.moved = some item
  result : ∀ path, s.downloadResult = some (.done path) →
    ∀ item ∈ s.downloadItem, basename path = item.fileName
  settled : s.running = false → s.pendingItem = none → ∀ item ∈ s.picks.getLast?, s.Settled item
  sets : ∀ record ∈ s.sets, record.1 ≤ s.picks.length ∧
    ∃ item ∈ (s.picks.take record.1).getLast?, item.fileName = record.2

theorem Held.latest {s : Downloads} (h : Held s) : Latest s :=
  ⟨fun record hrecord => (h.sets record hrecord).2, fun hidle => h.settled hidle.1 hidle.2.1⟩

theorem held_opened (dir : Text) (saved : List Text) : Held (opened dir saved) := by
  constructor <;> simp [opened]

/-- An item has an id. -/
theorem Downloads.downloadItem_of_id {s : Downloads} {item : Item}
    (h : item.id = s.downloadingId) :
    ∃ other, s.downloadItem = some other ∧ item.id = other.id := by
  unfold Downloads.downloadingId at h
  cases hitem : s.downloadItem with
  | none =>
      rw [hitem] at h
      exact absurd h item.valid.1
  | some other =>
      rw [hitem] at h
      exact ⟨other, rfl, h⟩

/-- The records of what was set, with one of the latest pick. -/
theorem sets_append {picks : List Item} {sets : List (ℕ × Text)} {item : Item}
    (h : ∀ record ∈ sets, record.1 ≤ picks.length ∧
      ∃ item ∈ (picks.take record.1).getLast?, item.fileName = record.2)
    (hlast : picks.getLast? = some item) :
    ∀ record ∈ sets ++ [(picks.length, item.fileName)], record.1 ≤ picks.length ∧
      ∃ item ∈ (picks.take record.1).getLast?, item.fileName = record.2 := by
  intro record hrecord
  rcases List.mem_append.mp hrecord with hbefore | hnew
  · exact h record hbefore
  · obtain rfl := List.mem_singleton.mp hnew
    refine ⟨le_rfl, item, ?_, rfl⟩
    rw [List.take_length]
    exact hlast

/-- The records of what was set stay true when another pick is made. -/
theorem sets_pick {picks : List Item} {sets : List (ℕ × Text)} (item : Item)
    (h : ∀ record ∈ sets, record.1 ≤ picks.length ∧
      ∃ item ∈ (picks.take record.1).getLast?, item.fileName = record.2) :
    ∀ record ∈ sets, record.1 ≤ (picks ++ [item]).length ∧
      ∃ other ∈ ((picks ++ [item]).take record.1).getLast?, other.fileName = record.2 := by
  intro record hrecord
  obtain ⟨hle, hfound⟩ := h record hrecord
  rw [List.take_append_of_le_length hle]
  exact ⟨hle.trans (by simp), hfound⟩

/-! ### Steps -/

section

variable {s : Downloads}

/-- A pending pick is started or set when no helper runs. -/
theorem held_startPending {item : Item} (hpending : s.pendingItem = some item)
    (hrunning : s.running = false) (hdownload : s.downloadItem = none)
    (hlast : s.picks.getLast? = some item)
    (hsets : ∀ record ∈ s.sets, record.1 ≤ s.picks.length ∧
      ∃ item ∈ (s.picks.take record.1).getLast?, item.fileName = record.2) :
    Held s.startPending := by
  unfold Downloads.startPending
  rw [hpending, hrunning]
  dsimp only
  rw [if_neg Bool.false_ne_true]
  split_ifs
  · unfold Downloads.set
    dsimp only
    rw [basename_fileName]
    refine ⟨by simp [hdownload], nofun, fun h => absurd rfl h, ?_, ?_, ?_, ?_,
      sets_append hsets hlast⟩
    · simp [hdownload]
    · simp [hdownload]
    · simp [hdownload]
    · intro _ _ other hother
      obtain rfl := Option.some_inj.mp (hlast.symm.trans hother)
      exact .inl (List.mem_append_right _ List.mem_cons_self)
  · refine ⟨by simp, nofun, fun h => absurd rfl h, fun _ other hother => ?_,
      fun _ _ => .inl rfl, nofun, nofun, hsets⟩
    obtain rfl := Option.mem_some_iff.mp hother
    exact hlast

theorem Held.applies (h : Held s) {item : Item} (hfit : Fit s (.applies item)) :
    Held (s.step (.applies item)) := by
  have hlast : (s.picks ++ [item]).getLast? = some item := List.getLast?_concat
  have hsets := sets_pick item h.sets
  unfold Downloads.step Downloads.apply
  dsimp only
  split_ifs with hid hsaved hrunning
  · obtain ⟨other, hother, hsame⟩ := Downloads.downloadItem_of_id hid
    obtain ⟨hnone, hname⟩ := hfit.1 hid
    have hdownload : s.downloadItem = some other := hother
    obtain rfl : item = other := Item.eq_of_fileName hsame (hname other hdownload).symm
    have hrun : s.running = true := h.running.mpr (by simp [hdownload])
    refine ⟨h.running, fun other hpending => ?_, h.deferred, fun _ other hcurrent => ?_, h.place,
      h.result, fun hstopped => ?_, hsets⟩
    · cases hnone.symm.trans hpending
    · obtain rfl := Option.some_inj.mp (hdownload.symm.trans hcurrent)
      exact hlast
    · cases hrun.symm.trans hstopped
  · obtain ⟨hmem, hstopped⟩ := hsaved
    have hdownload : s.downloadItem = none := by
      by_contra hne
      cases hstopped.symm.trans (h.running.mpr hne)
    unfold Downloads.set
    dsimp only
    rw [basename_fileName]
    refine ⟨h.running, fun other hpending => ?_, h.deferred, ?_, ?_, ?_,
      fun _ _ other hother => ?_, sets_append hsets hlast⟩
    · rw [hfit.2 hmem hstopped other hpending]
      exact hlast
    · simp [hdownload]
    · simp [hdownload]
    · simp [hdownload]
    · obtain rfl := Option.some_inj.mp (hlast.symm.trans hother)
      exact .inl (List.mem_append_right _ List.mem_cons_self)
  · refine ⟨h.running, fun other hpending => ?_, fun _ hstopped => ?_, nofun, h.place, h.result,
      fun _ hnone => ?_, hsets⟩
    · obtain rfl := Option.mem_some_iff.mp hpending
      exact hlast
    · cases hrunning.symm.trans hstopped
    · cases hnone
  · have hstopped : s.running = false := Bool.eq_false_iff.mpr hrunning
    have hdownload : s.downloadItem = none := by
      by_contra hne
      exact hrunning (h.running.mpr hne)
    exact held_startPending rfl hstopped hdownload hlast hsets

theorem Held.prints (h : Held s) {line : Line} : Held (s.step (.prints line)) := by
  unfold Downloads.step
  dsimp only
  cases hitem : s.downloadItem with
  | none => exact h
  | some item =>
      dsimp only
      split_ifs with hrunning
      · cases line with
        | progress value =>
            unfold Downloads.read
            dsimp only
            split_ifs
            · exact ⟨h.running, h.pending, h.deferred, h.current, h.place, h.result, h.settled,
                h.sets⟩
            · exact h
        | done directory =>
            refine ⟨h.running, h.pending, h.deferred, h.current, h.place, fun path hpath => ?_,
              h.settled, h.sets⟩
            intro other hother
            obtain rfl := Option.some_inj.mp (hitem.symm.trans hother)
            obtain rfl := Verdict.done.inj (Option.some_inj.mp hpath)
            exact basename_saved directory item
        | failed code =>
            exact ⟨h.running, h.pending, h.deferred, h.current, h.place, nofun, h.settled, h.sets⟩
        | other => exact h
      · exact h

/-- With a pick that waits, the end of the download only starts it later. -/
theorem held_superseded (h : Held s) (hpending : s.pendingItem ≠ none) {result : Option Verdict}
    (hresult : result = none) :
    Held { s with
      running := false, downloadItem := none, downloadResult := result, downloadDir := [],
      deferred := true } := by
  subst hresult
  exact ⟨by simp, h.pending, fun _ _ => rfl, fun hnone => absurd hnone hpending, nofun, nofun,
    fun _ hnone => absurd hnone hpending, h.sets⟩

/-- The download of the latest pick has ended, and the pick is settled. -/
theorem held_settled {after : Downloads} (hrunning : after.running = false)
    (hdownload : after.downloadItem = none) (hpending : after.pendingItem = none)
    (hsettled : ∀ item ∈ after.picks.getLast?, after.Settled item)
    (hsets : ∀ record ∈ after.sets, record.1 ≤ after.picks.length ∧
      ∃ item ∈ (after.picks.take record.1).getLast?, item.fileName = record.2) : Held after := by
  refine ⟨?_, ?_, fun hne => absurd hpending hne, ?_, ?_, ?_, fun _ _ => hsettled, hsets⟩
  · simp [hrunning, hdownload]
  · simp [hpending]
  · simp [hdownload]
  · simp [hdownload]
  · simp [hdownload]

theorem Held.exits (h : Held s) : Held (s.step .exits) := by
  change Held s.exit
  unfold Downloads.exit
  dsimp only
  by_cases hrunning : s.running = true
  · obtain ⟨item, hitem⟩ := Option.ne_none_iff_exists'.mp (h.running.mp hrunning)
    rw [if_pos ⟨hrunning, h.running.mp hrunning⟩]
    unfold Downloads.finishDownload
    dsimp only
    by_cases hpending : s.pendingItem = none
    · have hlast : s.picks.getLast? = some item := h.current hpending item hitem
      rw [if_neg (not_not.mpr hpending)]
      have hfailed (code : Text) : Held { s with
          running := false, downloadItem := none, downloadResult := none, downloadDir := [],
          failedId := s.downloadingId, downloadError := downloadErrorText code } := by
        refine held_settled rfl rfl hpending (fun other hother => ?_) h.sets
        obtain rfl := Option.some_inj.mp (hlast.symm.trans hother)
        refine .inr (.inl ⟨?_, downloadErrorText_ne_nil code⟩)
        change (s.downloadItem.map Item.id).getD [] = item.id
        rw [hitem]
        rfl
      cases hresult : s.downloadResult with
      | none => exact hfailed []
      | some verdict =>
          cases verdict with
          | failed code => exact hfailed code
          | done path =>
              dsimp only
              split_ifs with hdir
              · have hname : basename path = item.fileName := h.result path hresult item hitem
                unfold Downloads.set
                dsimp only
                rw [hname]
                refine held_settled rfl rfl hpending (fun other hother => ?_)
                  (sets_append h.sets hlast)
                obtain rfl := Option.some_inj.mp (hlast.symm.trans hother)
                exact .inl (List.mem_append_right _ List.mem_cons_self)
              · refine held_settled rfl rfl hpending (fun other hother => ?_) h.sets
                obtain rfl := Option.some_inj.mp (hlast.symm.trans hother)
                exact .inr (.inr ((h.place item hitem).resolve_left hdir))
    · rw [if_pos hpending]
      exact held_superseded h hpending rfl
  · rw [if_neg fun hboth => hrunning hboth.1]
    have hstopped : s.running = false := Bool.eq_false_iff.mpr hrunning
    have hsame : ({ s with running := false } : Downloads) = s := by
      rw [← hstopped]
    rw [hsame]
    exact h

theorem Held.startsDeferred (h : Held s) (hfit : Fit s .startsDeferred) :
    Held (s.step .startsDeferred) := by
  unfold Downloads.step
  dsimp only
  split_ifs
  · cases hpending : s.pendingItem with
    | none =>
        unfold Downloads.startPending
        exact ⟨h.running, nofun, fun hne => absurd rfl hne, fun _ => h.current hpending, h.place,
          h.result, fun hstopped _ => h.settled hstopped hpending, h.sets⟩
    | some item =>
        have hstopped : s.running = false := by
          refine Bool.eq_false_iff.mpr fun hrunning => ?_
          cases hpending.symm.trans (hfit hrunning)
        have hdownload : s.downloadItem = none := by
          by_contra hne
          cases hstopped.symm.trans (h.running.mpr hne)
        exact held_startPending rfl hstopped hdownload (h.pending item hpending) h.sets
  · exact h

theorem Held.folderChanges (h : Held s) {dir : Text} {saved : List Text} :
    Held (s.step (.folderChanges dir saved)) := by
  refine ⟨h.running, h.pending, h.deferred, h.current, fun item hitem => ?_, h.result,
    fun hstopped hpending item hlast => ?_, h.sets⟩
  · change s.downloadDir = dir ∨ (if dir = s.dir then s.moved else s.downloadItem.or s.moved) = _
    split_ifs with hdir
    · rw [hdir]
      exact h.place item hitem
    · have hdownload : s.downloadItem = some item := hitem
      right
      rw [hdownload]
      rfl
  · have hdownload : s.downloadItem = none := by
      by_contra hne
      cases hstopped.symm.trans (h.running.mpr hne)
    have hmoved : (if dir = s.dir then s.moved else s.downloadItem.or s.moved) = s.moved := by
      rw [hdownload]
      simp
    rcases h.settled hstopped hpending item hlast with hset | hfailed | hchanged
    · exact .inl hset
    · exact .inr (.inl hfailed)
    · exact .inr (.inr (hmoved.trans hchanged))

end

theorem Held.step {s : Downloads} (h : Held s) {event : Event} (hfit : Fit s event) :
    Held (s.step event) := by
  cases event with
  | applies item => exact h.applies hfit
  | prints line => exact h.prints
  | exits => exact h.exits
  | startsDeferred => exact h.startsDeferred hfit
  | folderChanges dir saved => exact h.folderChanges

/-- In every run in which no pick meets an earlier one that is still pending,
the latest pick wins. -/
theorem fit_runs_latest {dir : Text} {saved : List Text} {events : List Event}
    (hrun : EachStep Downloads.step Fit (opened dir saved) events) :
    ∀ s ∈ states Downloads.step (opened dir saved) events, Latest s := by
  have hstep (s : Downloads) (event : Event) (h : Held s) (hfit : Fit s event) :
      Held (s.step event) := h.step hfit
  have hall : ∀ s ∈ states Downloads.step (opened dir saved) events, Held s :=
    hrun.states hstep (held_opened dir saved)
  exact fun s hs => (hall s hs).latest

/-! ### Picks that meet earlier ones -/

theorem valid_unit {c : ℕ} (h : isIdUnit c = true) :
    [c] ≠ [] ∧ [c].length ≤ 16 ∧ [c].all isIdUnit = true := by simp [h]

/-- An item with an id of one unit. -/
def shortItem (c : ℕ) (h : isIdUnit c = true) : Item := ⟨[c], .jpg, valid_unit h⟩

def firstItem : Item := shortItem 97 rfl

def secondItem : Item := shortItem 98 rfl

/-- The second item is picked while the first one is downloading, and then the
first one again. -/
def pickedAgain : List Event :=
  [.applies firstItem, .applies secondItem, .applies firstItem, .exits, .startsDeferred,
    .prints (.done (ascii "/home")), .exits]

/-- The second item is set. -/
theorem pickedAgain_lost :
    ¬ ∀ (dir : Text) (saved : List Text) (events : List Event),
      ∀ s ∈ states Downloads.step (opened dir saved) events, Latest s := by
  intro h
  have hlast := h (ascii "/home") [] pickedAgain _ (foldl_mem_states _ _)
  have hset : (3, secondItem.fileName) ∈
      (pickedAgain.foldl Downloads.step (opened (ascii "/home") [])).sets := by
    decide +kernel
  obtain ⟨item, hitem, hname⟩ := hlast.inOrder _ hset
  have hpick : ((pickedAgain.foldl Downloads.step (opened (ascii "/home") [])).picks.take
      3).getLast? = some firstItem := by
    decide +kernel
  obtain rfl := Option.some_inj.mp (hpick.symm.trans hitem)
  have hne : firstItem.fileName ≠ secondItem.fileName := by decide
  exact hne hname

/-- The second item is picked while the first one is downloading. -/
def pickedAfter : List Event :=
  [.applies firstItem, .applies secondItem, .exits, .startsDeferred,
    .prints (.done (ascii "/home")), .exits]

theorem fit_runs_latest_pickedAfter :
    Latest (pickedAfter.foldl Downloads.step (opened (ascii "/home") [])) :=
  fit_runs_latest (by decide +kernel) _ (foldl_mem_states _ _)

end Wallpaper

end CybexOS
