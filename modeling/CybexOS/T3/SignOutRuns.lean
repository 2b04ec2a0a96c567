/-
Runs of helpers and sign-outs over the private state directory: what every
process is at in each state, and that a finished sign-out stays final.
-/
import CybexOS.T3.SignOut

namespace CybexOS

namespace T3

namespace Cloud

open Process

/-! ### What a sign-out does -/

/-- How far a sign-out is. -/
inductive Stage where
  | waiting
  | held
  | read (epoch : ℕ)
  | removing (gone : List File)
  | finished

/-- The sign-out holds the lock. -/
def Stage.holds : Stage → Bool
  | .waiting | .finished => false
  | .held | .read _ | .removing _ => true

/-- The order of a sign-out: the lock, the next epoch, every file, and the end. -/
def allowsLogout : (op : Op) → Stage → (Answer op → Stage → Prop) → Prop
  | .acquire, stage, post => stage = .waiting ∧ post true .held ∧ post false .waiting
  | .epoch, stage, post => stage = .held ∧ ∀ epoch : ℕ, post epoch (.read epoch)
  | .publish epoch, stage, post =>
      (∃ before, stage = .read before ∧ epoch = before + 1) ∧ post () (.removing [])
  | .remove file, stage, post => ∃ gone, stage = .removing gone ∧ post () (.removing (file :: gone))
  | .release, stage, post => (∃ gone, stage = .removing gone ∧ ∀ file, file ∈ gone) ∧ post () .finished
  | .print _, stage, post => stage = .finished ∧ post () .finished
  | _, _, _ => False

theorem allowsLogout_mono (op : Op) (stage : Stage) (first second : Answer op → Stage → Prop)
    (h : ∀ answer stage, first answer stage → second answer stage)
    (hfirst : allowsLogout op stage first) : allowsLogout op stage second := by
  cases op with
  | acquire => exact ⟨hfirst.1, h _ _ hfirst.2.1, h _ _ hfirst.2.2⟩
  | epoch => exact ⟨hfirst.1, fun epoch => h _ _ (hfirst.2 epoch)⟩
  | publish => exact ⟨hfirst.1, h _ _ hfirst.2⟩
  | remove =>
      obtain ⟨gone, hstage, hpost⟩ := hfirst
      exact ⟨gone, hstage, h _ _ hpost⟩
  | release => exact ⟨hfirst.1, h _ _ hfirst.2⟩
  | print => exact ⟨hfirst.1, h _ _ hfirst.2⟩
  | _ => exact hfirst

theorem does_removeAll {order gone : List File} (h : ∀ file, file ∈ order ∨ file ∈ gone) :
    (removeAll order).Does allowsLogout
      (fun result stage => result = .ok () ∧ ∃ gone, stage = .removing gone ∧ ∀ file, file ∈ gone)
      (.removing gone) := by
  induction order generalizing gone with
  | nil => exact ⟨rfl, gone, rfl, fun file => (h file).resolve_left List.not_mem_nil⟩
  | cons file order ih =>
      refine does_bind.mpr (does_call.mpr ⟨gone, rfl, ih fun other => ?_⟩)
      rcases h other with hmem | hgone
      · rcases List.mem_cons.mp hmem with rfl | hmem
        · exact .inr List.mem_cons_self
        · exact .inl hmem
      · exact .inr (List.mem_cons_of_mem _ hgone)

theorem does_logout {order : List File} (h : ∀ file, file ∈ order) :
    (logout order).Does allowsLogout (fun _ stage => stage = .waiting ∨ stage = .finished)
      .waiting := by
  refine does_bind.mpr (does_bind.mpr (does_call.mpr ⟨rfl, ?_, .inl rfl⟩))
  refine does_andThen.mpr (does_bind.mpr (does_call.mpr ⟨rfl, fun epoch => ?_⟩))
  refine does_bind.mpr (does_call.mpr ⟨⟨epoch, rfl, rfl⟩, ?_⟩)
  refine (does_removeAll fun file => .inl (h file)).imp allowsLogout_mono ?_
  rintro _ _ ⟨rfl, hgone⟩
  exact ⟨hgone, rfl, .inr rfl⟩

/-! ### What the state says of its processes -/

structure HelperAt (w : World) (pid expected seen : ℕ) (program : Helper Unit) (phase : Phase)
    (since : ℕ) : Prop where
  does : program.Does (allows expected since) (fun _ phase => phase = .free) phase
  lock : w.lock = some pid ↔ phase ≠ .free
  checked : phase = .checked → expected = w.epoch
  known : expected ≤ w.epoch
  fresh : since ≤ w.ended
  /-- With the current epoch, all that it got is of the session. -/
  current : expected = w.epoch → since = w.ended ∧ seen = w.finished

structure LogoutAt (w : World) (pid : ℕ) (program : Helper Unit) (stage : Stage) : Prop where
  does : program.Does allowsLogout (fun _ stage => stage = .waiting ∨ stage = .finished) stage
  lock : w.lock = some pid ↔ stage.holds = true
  read : ∀ epoch, stage = .read epoch → epoch = w.epoch
  published : ∀ gone, stage = .removing gone → w.published = true
  gone : ∀ gone, stage = .removing gone → ∀ file ∈ gone, w.files file = none

def Good (w : World) (pid : ℕ) : Slot → Prop
  | .starting _ | .finished => w.lock ≠ some pid
  | .helper expected seen program => ∃ phase since, HelperAt w pid expected seen program phase since
  | .logout program => ∃ stage, LogoutAt w pid program stage

/-- What the state says of a process is about these parts of it. -/
theorem Good.agree {w after : World} {pid : ℕ} {slot : Slot} (h : Good w pid slot)
    (hfiles : after.files = w.files) (hepoch : after.epoch = w.epoch) (hlock : after.lock = w.lock)
    (hpublished : after.published = w.published) (hended : after.ended = w.ended)
    (hfinished : after.finished = w.finished) : Good after pid slot := by
  cases slot with
  | starting => exact fun heq => h (hlock.symm.trans heq)
  | finished => exact fun heq => h (hlock.symm.trans heq)
  | helper expected seen program =>
      obtain ⟨phase, since, hat⟩ := h
      exact ⟨phase, since, hat.does, hlock ▸ hat.lock, hepoch ▸ hat.checked, hepoch ▸ hat.known,
        hended ▸ hat.fresh, by rw [hepoch, hended, hfinished]; exact hat.current⟩
  | logout program =>
      obtain ⟨stage, hat⟩ := h
      exact ⟨stage, hat.does, hlock ▸ hat.lock, hepoch ▸ hat.read, hpublished ▸ hat.published,
        hfiles ▸ hat.gone⟩

def Slot.isLogout : Slot → Bool
  | .logout _ => true
  | _ => false

/-- The slot is of a helper with the current epoch. -/
def Slot.Current (w : World) : Slot → Prop
  | .helper expected _ _ => expected = w.epoch
  | _ => False

structure Sound (w : World) : Prop where
  final : Final w
  ended : w.ended ≤ w.made
  epoch : w.epoch ≤ MAX_SAFE_INTEGER
  leftovers : ∀ item ∈ w.leftovers, item.1 = .connection
  slots : ∀ pid, ∀ slot ∈ w.slots[pid]?, Good w pid slot
  held : ∀ pid ∈ w.lock, ∃ slot ∈ w.slots[pid]?,
    w.published = true → slot.isLogout = true
  published : w.published = true → w.lock ≠ none ∧ ∀ slot ∈ w.slots, ¬slot.Current w

/-- What a step of another process leaves of a state. -/
structure Frame (w after : World) (pid : ℕ) : Prop where
  lock : after.lock = some pid ↔ w.lock = some pid
  epoch : w.epoch ≤ after.epoch
  ended : w.ended ≤ after.ended
  held : w.lock = some pid →
    after.epoch = w.epoch ∧ after.published = w.published ∧ after.files = w.files
  current : after.epoch = w.epoch → w.published = false →
    after.ended = w.ended ∧ after.finished = w.finished

theorem Good.frame {w after : World} {pid : ℕ} {slot : Slot} (h : Good w pid slot)
    (hframe : Frame w after pid) (hstale : w.published = true → ¬slot.Current w) :
    Good after pid slot := by
  cases slot with
  | starting => exact fun hlock => h (hframe.lock.mp hlock)
  | finished => exact fun hlock => h (hframe.lock.mp hlock)
  | helper expected seen program =>
      obtain ⟨phase, since, hat⟩ := h
      refine ⟨phase, since, hat.does, hframe.lock.trans hat.lock, fun hchecked => ?_,
        hat.known.trans hframe.epoch, hat.fresh.trans hframe.ended, fun hcurrent => ?_⟩
      · have hheld := hat.lock.mpr (by rw [hchecked]; nofun)
        rw [(hframe.held hheld).1]
        exact hat.checked hchecked
      · have hepoch : after.epoch = w.epoch :=
          le_antisymm (hcurrent ▸ hat.known) hframe.epoch
        have hexpected : expected = w.epoch := hcurrent.trans hepoch
        have hnot : w.published = false := by
          by_contra hpublished
          exact hstale (Bool.of_not_eq_false hpublished) hexpected
        obtain ⟨hended, hfinished⟩ := hframe.current hepoch hnot
        rw [hended, hfinished]
        exact hat.current hexpected
  | logout program =>
      obtain ⟨stage, hat⟩ := h
      refine ⟨stage, hat.does, hframe.lock.trans hat.lock, fun epoch hstage => ?_,
        fun gone hstage => ?_, fun gone hstage => ?_⟩
      · have hheld := hat.lock.mpr (by rw [hstage]; rfl)
        rw [(hframe.held hheld).1]
        exact hat.read epoch hstage
      · have hheld := hat.lock.mpr (by rw [hstage]; rfl)
        rw [(hframe.held hheld).2.1]
        exact hat.published gone hstage
      · have hheld := hat.lock.mpr (by rw [hstage]; rfl)
        rw [(hframe.held hheld).2.2]
        exact hat.gone gone hstage

/-- The state after a step of a process, if it fits what the others are at. -/
theorem Sound.advance {w after : World} (h : Sound w) {pid : ℕ} {slot : Slot}
    (hpid : pid < w.slots.length) (hslots : after.slots = w.slots) (hgood : Good after pid slot)
    (hframe : ∀ other ≠ pid, Frame w after other) (hfinal : Final after)
    (hended : after.ended ≤ after.made) (hepoch : after.epoch ≤ MAX_SAFE_INTEGER)
    (hleftovers : ∀ item ∈ after.leftovers, item.1 = .connection)
    (hkind : after.lock = some pid → after.published = true → slot.isLogout = true)
    (hpublished : after.published = true → after.lock ≠ none ∧ ¬slot.Current after ∧
      ∀ other ∈ w.slots, ¬other.Current after) :
    Sound (after.put pid slot) := by
  have hat : (after.put pid slot).slots = w.slots.set pid slot := by
    unfold World.put
    rw [hslots]
  have hput {other : ℕ} {program : Slot} (hgood : Good after other program) :
      Good (after.put pid slot) other program := hgood.agree rfl rfl rfl rfl rfl rfl
  refine ⟨⟨hfinal.1, hfinal.2, hfinal.3⟩, hended, hepoch, hleftovers, ?_, ?_, ?_⟩
  · intro other program hprogram
    rw [hat, List.getElem?_set] at hprogram
    split_ifs at hprogram with hother
    · obtain rfl := hother
      obtain rfl := Option.mem_some_iff.mp hprogram
      exact hput hgood
    · refine hput ((h.slots other program hprogram).frame (hframe other (Ne.symm hother)) ?_)
      exact fun hpublished => (h.published hpublished).2 program (List.mem_of_getElem? hprogram)
  · intro other hlock
    rw [hat, List.getElem?_set]
    split_ifs with hother
    · obtain rfl := hother
      exact ⟨slot, rfl, hkind hlock⟩
    · have hbefore := (hframe other (Ne.symm hother)).lock.mp hlock
      obtain ⟨program, hprogram, hlogout⟩ := h.held other hbefore
      refine ⟨program, hprogram, fun hpublished => hlogout ?_⟩
      rw [← ((hframe other (Ne.symm hother)).held hbefore).2.1]
      exact hpublished
  · intro hafter
    obtain ⟨hlock, hcurrent, hothers⟩ := hpublished hafter
    refine ⟨hlock, fun program hprogram => ?_⟩
    rw [hat] at hprogram
    rcases List.mem_or_eq_of_mem_set hprogram with hmem | rfl
    · exact hothers program hmem
    · exact hcurrent

/-- A step that changes no more than the count of clients and keys. -/
theorem Sound.quiet {w : World} (h : Sound w) {pid made : ℕ} {slot : Slot}
    (hpid : pid < w.slots.length) (hmade : w.made ≤ made) (hgood : Good w pid slot)
    (hkind : w.lock = some pid → w.published = true → slot.isLogout = true)
    (hcurrent : w.published = true → ¬slot.Current w) :
    Sound ({ w with made := made }.put pid slot) := by
  have hpublished (hw : w.published = true) : w.lock ≠ none ∧ ¬slot.Current w ∧
      ∀ other ∈ w.slots, ¬other.Current w :=
    ⟨(h.published hw).1, hcurrent hw, (h.published hw).2⟩
  have hframe (other : ℕ) : Frame w { w with made := made } other :=
    ⟨Iff.rfl, le_rfl, le_rfl, fun _ => ⟨rfl, rfl, rfl⟩, fun _ _ => ⟨rfl, rfl⟩⟩
  have hat : Good { w with made := made } pid slot := hgood.agree rfl rfl rfl rfl rfl rfl
  exact h.advance hpid rfl hat (fun other _ => hframe other) ⟨h.final.1, h.final.2, h.final.3⟩
    (h.ended.trans hmade) h.epoch h.leftovers hkind fun hw => by
      cases slot <;> exact hpublished hw

/-! ### Steps of a helper -/

theorem Token.Since.weaken {first second : ℕ} {token : Token} (h : token.Since second)
    (hle : first ≤ second) : token.Since first := fun origin horigin => hle.trans (h origin horigin)

theorem derived_since {since : ℕ} {tokens : List Token} (h : ∀ token ∈ tokens, token.Since since) :
    (derived tokens).Since since := by
  intro origin horigin
  obtain ⟨token, htoken, hmem⟩ := List.mem_flatMap.mp horigin
  exact h token htoken origin hmem

theorem made_since {since made : ℕ} (h : since ≤ made) : Token.Since since ⟨[made]⟩ :=
  fun _ horigin => List.mem_singleton.mp horigin ▸ h

section

variable {w : World} {pid expected seen : ℕ} {program : Helper Unit}

theorem lt_of_slot {slot : Slot} (hslot : w.slots[pid]? = some slot) : pid < w.slots.length :=
  (List.getElem?_eq_some_iff.mp hslot).1

/-- The holder of the lock is a helper, and so no sign-out has changed the epoch. -/
theorem Sound.unpublished (h : Sound w)
    (hslot : w.slots[pid]? = some (.helper expected seen program)) (hlock : w.lock = some pid) :
    w.published = false := by
  by_contra hpublished
  obtain ⟨slot, hmem, hlogout⟩ := h.held pid hlock
  obtain rfl := Option.some_inj.mp (hslot.symm.trans hmem)
  cases hlogout (Bool.of_not_eq_false hpublished)

theorem Sound.unpublished_of_free (h : Sound w) (hlock : w.lock = none) : w.published = false := by
  by_contra hpublished
  exact (h.published (Bool.of_not_eq_false hpublished)).1 hlock

/-- The helper goes on as it was, or not under the lock. -/
theorem Sound.helper_quiet (h : Sound w)
    (hslot : w.slots[pid]? = some (.helper expected seen program)) {phase : Phase} {since : ℕ}
    (hat : HelperAt w pid expected seen program phase since) {made : ℕ} (hmade : w.made ≤ made)
    {next : Helper Unit} {later : Phase}
    (hnext : next.Does (allows expected since) (fun _ phase => phase = .free) later)
    (hlater : later ≠ .free ↔ phase ≠ .free) (hchecked : later = .checked → expected = w.epoch) :
    Sound ({ w with made := made }.put pid (.helper expected seen next)) := by
  have hgood : Good w pid (.helper expected seen next) :=
    ⟨later, since, hnext, hat.lock.trans hlater.symm, hchecked, hat.known, hat.fresh, hat.current⟩
  refine h.quiet (lt_of_slot hslot) hmade hgood (fun hlock hpublished => ?_) fun hpublished => ?_
  · rw [h.unpublished hslot hlock] at hpublished
    nomatch hpublished
  · have hcurrent : ¬(Slot.helper expected seen program).Current w :=
      (h.published hpublished).2 _ (List.mem_of_getElem? hslot)
    exact hcurrent

/-- The helper that has found its epoch under the lock changes files and what is printed. -/
theorem Sound.helper_checked (h : Sound w)
    (hslot : w.slots[pid]? = some (.helper expected seen program)) {since : ℕ}
    (hat : HelperAt w pid expected seen program .checked since) {next : Helper Unit}
    (hnext : next.Does (allows expected since) (fun _ phase => phase = .free) .checked)
    {files : File → Option Content} {printed : List (ℕ × ℕ)}
    (hfiles : ∀ file, ∀ content ∈ files file, content.Since w.ended)
    (hprinted : ∀ record ∈ printed, record.1 = record.2) :
    Sound ({ w with files := files, printed := printed }.put pid (.helper expected seen next)) := by
  have hlock : w.lock = some pid := hat.lock.mpr nofun
  have hpublished := h.unpublished hslot hlock
  refine h.advance (lt_of_slot hslot) rfl
    ⟨.checked, since, hnext, hat.lock, hat.checked, hat.known, hat.fresh, hat.current⟩
    (fun other hother => ⟨Iff.rfl, le_rfl, le_rfl, fun hheld => ?_, fun _ _ => ⟨rfl, rfl⟩⟩)
    ⟨hfiles, h.final.2, hprinted⟩ h.ended h.epoch h.leftovers (fun _ htrue => ?_) fun htrue => ?_
  · exact absurd (Option.some_inj.mp (hheld.symm.trans hlock)) hother
  · nomatch hpublished.symm.trans htrue
  · nomatch hpublished.symm.trans htrue

theorem Sound.helper_acquire (h : Sound w)
    (hslot : w.slots[pid]? = some (.helper expected seen program)) {phase : Phase} {since : ℕ}
    (hat : HelperAt w pid expected seen program phase since) (hlock : w.lock = none)
    {next : Helper Unit}
    (hnext : next.Does (allows expected since) (fun _ phase => phase = .free) .held) :
    Sound ({ w with lock := some pid }.put pid (.helper expected seen next)) := by
  have hpublished := h.unpublished_of_free hlock
  refine h.advance (lt_of_slot hslot) rfl
    ⟨.held, since, hnext, ⟨nofun, fun _ => rfl⟩, nofun, hat.known, hat.fresh, hat.current⟩
    (fun other hother => ⟨?_, le_rfl, le_rfl, fun _ => ⟨rfl, rfl, rfl⟩, fun _ _ => ⟨rfl, rfl⟩⟩)
    ⟨h.final.1, h.final.2, h.final.3⟩ h.ended h.epoch h.leftovers (fun _ htrue => ?_)
    fun htrue => ?_
  · rw [hlock]
    exact ⟨fun heq => absurd (Option.some_inj.mp heq).symm hother, nofun⟩
  · nomatch hpublished.symm.trans htrue
  · nomatch hpublished.symm.trans htrue

theorem Sound.helper_release (h : Sound w)
    (hslot : w.slots[pid]? = some (.helper expected seen program)) {phase : Phase} {since : ℕ}
    (hat : HelperAt w pid expected seen program phase since) (hphase : phase ≠ .free)
    {next : Helper Unit}
    (hnext : next.Does (allows expected since) (fun _ phase => phase = .free) .free) :
    Sound ({ w with lock := none }.put pid (.helper expected seen next)) := by
  have hlock : w.lock = some pid := hat.lock.mpr hphase
  have hpublished := h.unpublished hslot hlock
  refine h.advance (lt_of_slot hslot) rfl
    ⟨.free, since, hnext, ⟨nofun, nofun⟩, nofun, hat.known, hat.fresh, hat.current⟩
    (fun other hother => ⟨?_, le_rfl, le_rfl, fun _ => ⟨rfl, rfl, rfl⟩, fun _ _ => ⟨rfl, rfl⟩⟩)
    ⟨h.final.1, h.final.2, h.final.3⟩ h.ended h.epoch h.leftovers nofun fun htrue => ?_
  · rw [hlock]
    exact ⟨nofun, fun heq => absurd (Option.some_inj.mp heq).symm hother⟩
  · nomatch hpublished.symm.trans htrue

end

theorem Sound.helper {w after : World} (h : Sound w) {pid expected seen : ℕ} {op : Op}
    {next : Answer op → Helper Unit}
    (hslot : w.slots[pid]? = some (.helper expected seen (.step op next))) {input : Input}
    {answer : Answer op} (hperform : w.perform pid input op = some (after, answer)) :
    Sound ((after.noteHelper seen op).put pid (.helper expected seen (next answer))) := by
  obtain ⟨phase, since, hat⟩ := h.slots pid _ hslot
  have hdoes := hat.does
  have hsince {made : ℕ} (hmade : w.made ≤ made) : since ≤ made :=
    hat.fresh.trans (h.ended.trans hmade)
  cases op with
  | read file =>
      cases hperform
      refine h.helper_quiet hslot hat le_rfl (hdoes _ fun content hcontent token htoken => ?_)
        Iff.rfl hat.checked
      exact (h.final.files file content hcontent token htoken).weaken hat.fresh
  | ask bearing =>
      unfold World.perform at hperform
      dsimp only at hperform
      split_ifs at hperform
      · cases hperform
        exact h.helper_quiet hslot hat (Nat.le_succ _) (hdoes.2 _ _ (made_since (hsince le_rfl)))
          Iff.rfl hat.checked
      · cases hperform
        exact h.helper_quiet hslot hat le_rfl (hdoes.2 _ _ (derived_since hdoes.1)) Iff.rfl
          hat.checked
  | generate =>
      cases hperform
      exact h.helper_quiet hslot hat (Nat.le_succ _) (hdoes _ (made_since (hsince le_rfl))) Iff.rfl
        hat.checked
  | outcome | localId | now | request =>
      cases hperform
      exact h.helper_quiet hslot hat le_rfl (hdoes _) Iff.rfl hat.checked
  | acquire =>
      obtain ⟨rfl, htrue, hfalse⟩ := hdoes
      unfold World.perform at hperform
      dsimp only at hperform
      split_ifs at hperform with hlock
      · cases hperform
        exact h.helper_acquire hslot hat hlock htrue
      · cases hperform
        exact h.helper_quiet hslot hat le_rfl hfalse Iff.rfl nofun
  | release =>
      cases hperform
      exact h.helper_release hslot hat hdoes.1 hdoes.2
  | epoch =>
      cases hperform
      have hread : w.readEpoch = w.epoch := if_pos h.epoch
      by_cases hfree : phase = .free
      · obtain rfl := hfree
        exact h.helper_quiet hslot hat le_rfl (hdoes.1 rfl _) Iff.rfl nofun
      · by_cases hexpected : expected = w.readEpoch
        · subst hexpected
          refine h.helper_quiet hslot hat le_rfl (hdoes.2 hfree).1 ?_ fun _ => hread
          exact ⟨fun _ => hfree, nofun⟩
        · refine h.helper_quiet hslot hat le_rfl ((hdoes.2 hfree).2 _ (Ne.symm hexpected)) ?_ nofun
          exact ⟨fun _ => hfree, nofun⟩
  | publish => exact hdoes.elim
  | write file content =>
      obtain ⟨rfl, hcontent, hnext⟩ := hdoes
      cases hperform
      refine h.helper_checked hslot hat hnext (fun other held hheld => ?_) h.final.3
      obtain ⟨rfl, -⟩ := hat.current (hat.checked rfl)
      by_cases hother : other = file
      · obtain rfl := hother
        rw [Function.update_self] at hheld
        exact Option.mem_some_iff.mp hheld ▸ hcontent
      · rw [Function.update_of_ne hother] at hheld
        exact h.final.files other held hheld
  | remove file =>
      obtain ⟨rfl, hnext⟩ := hdoes
      cases hperform
      refine h.helper_checked hslot hat hnext (fun other held hheld => ?_) h.final.3
      by_cases hother : other = file
      · obtain rfl := hother
        rw [Function.update_self] at hheld
        nomatch hheld
      · rw [Function.update_of_ne hother] at hheld
        exact h.final.files other held hheld
  | print tokens =>
      obtain ⟨rfl, hnext⟩ := hdoes
      cases hperform
      refine h.helper_checked hslot hat hnext h.final.1 fun record hrecord => ?_
      rcases List.mem_append.mp hrecord with hmem | hmem
      · exact h.final.printed record hmem
      · obtain rfl := List.mem_singleton.mp hmem
        exact (hat.current (hat.checked rfl)).2

/-! ### Steps of a sign-out -/

/-- The sign-out goes on with the files, the epoch and the lock as they are. -/
theorem Sound.logout_quiet {w : World} (h : Sound w) {pid : ℕ} {program next : Helper Unit}
    (hslot : w.slots[pid]? = some (.logout program)) {stage later : Stage}
    (hat : LogoutAt w pid program stage)
    (hnext : next.Does allowsLogout (fun _ stage => stage = .waiting ∨ stage = .finished) later)
    (hlater : later.holds = stage.holds) (hread : ∀ epoch, later = .read epoch → epoch = w.epoch)
    (hremoving : ∀ gone, later ≠ .removing gone) : Sound (w.put pid (.logout next)) := by
  have hgood : Good w pid (.logout next) :=
    ⟨later, hnext, hlater ▸ hat.lock, hread, fun gone heq => absurd heq (hremoving gone),
      fun gone heq => absurd heq (hremoving gone)⟩
  exact h.quiet (lt_of_slot hslot) le_rfl hgood (fun _ _ => rfl) fun _ hcurrent => hcurrent

/-- Under the lock the sign-out changes what the other processes do not rely on. -/
theorem Sound.logout_held {w after : World} (h : Sound w) {pid : ℕ} {program next : Helper Unit}
    (hslot : w.slots[pid]? = some (.logout program)) (hlock : w.lock = some pid) {later : Stage}
    (hat : LogoutAt after pid next later) (hafter : after.lock = w.lock ∨ after.lock = none)
    (hslots : after.slots = w.slots) (hepoch : w.epoch ≤ after.epoch)
    (hended : w.ended ≤ after.ended)
    (hcurrent : after.epoch = w.epoch → w.published = false →
      after.ended = w.ended ∧ after.finished = w.finished)
    (hfinal : Final after) (hmade : after.ended ≤ after.made)
    (hsafe : after.epoch ≤ MAX_SAFE_INTEGER)
    (hleftovers : ∀ item ∈ after.leftovers, item.1 = .connection)
    (hpublished : after.published = true →
      after.lock ≠ none ∧ ∀ other ∈ w.slots, ¬other.Current after) :
    Sound (after.put pid (.logout next)) := by
  refine h.advance (lt_of_slot hslot) hslots ⟨later, hat⟩
    (fun other hother => ⟨?_, hepoch, hended, fun hheld => ?_, hcurrent⟩) hfinal hmade hsafe
    hleftovers (fun _ _ => rfl) fun htrue => ⟨(hpublished htrue).1, fun hcur => hcur,
      (hpublished htrue).2⟩
  · have hbefore : w.lock ≠ some other := fun heq =>
      hother (Option.some_inj.mp (heq.symm.trans hlock))
    refine ⟨fun heq => ?_, fun heq => absurd heq hbefore⟩
    rcases hafter with hsame | hnone
    · exact hsame ▸ heq
    · nomatch hnone.symm.trans heq
  · exact absurd (Option.some_inj.mp (hheld.symm.trans hlock)) hother

theorem Sound.logout {w after : World} (h : Sound w) {pid : ℕ} {op : Op}
    {next : Answer op → Helper Unit}
    (hslot : w.slots[pid]? = some (.logout (.step op next))) {input : Input}
    {answer : Answer op} (hperform : w.perform pid input op = some (after, answer))
    (hfit : ∀ epoch, op = .publish epoch → epoch ≤ MAX_SAFE_INTEGER) :
    Sound ((after.noteLogout op).put pid (.logout (next answer))) := by
  obtain ⟨stage, hat⟩ := h.slots pid _ hslot
  have hdoes := hat.does
  cases op with
  | acquire =>
      obtain ⟨rfl, htrue, hfalse⟩ := hdoes
      unfold World.perform at hperform
      dsimp only at hperform
      split_ifs at hperform with hlock
      · cases hperform
        have hunpublished := h.unpublished_of_free hlock
        have hgood : Good { w with lock := some pid } pid (.logout (next true)) :=
          ⟨.held, htrue, ⟨fun _ => rfl, fun _ => rfl⟩, nofun, nofun, nofun⟩
        refine h.advance (lt_of_slot hslot) rfl hgood (fun other hother => ⟨?_, le_rfl, le_rfl,
            fun _ => ⟨rfl, rfl, rfl⟩, fun _ _ => ⟨rfl, rfl⟩⟩)
          ⟨h.final.1, h.final.2, h.final.3⟩ h.ended h.epoch h.leftovers (fun _ _ => rfl)
          fun htrue => nomatch hunpublished.symm.trans htrue
        rw [hlock]
        exact ⟨fun heq => absurd (Option.some_inj.mp heq).symm hother, nofun⟩
      · cases hperform
        exact h.logout_quiet hslot hat hfalse rfl nofun nofun
  | epoch =>
      obtain ⟨rfl, hnext⟩ := hdoes
      cases hperform
      refine h.logout_quiet hslot hat (hnext _) rfl (fun epoch heq => ?_) nofun
      obtain rfl := Stage.read.inj heq
      exact if_pos h.epoch
  | publish epoch =>
      obtain ⟨⟨before, rfl, rfl⟩, hnext⟩ := hdoes
      cases hperform
      have hbefore : before = w.epoch := hat.read before rfl
      have hlock : w.lock = some pid := hat.lock.mpr rfl
      refine h.logout_held hslot hlock
        ⟨hnext, ⟨fun _ => rfl, fun _ => hlock⟩, nofun, fun _ _ => rfl, ?_⟩ (.inl rfl) rfl
        (hbefore ▸ Nat.le_succ before) le_rfl (fun _ _ => ⟨rfl, rfl⟩)
        ⟨h.final.1, h.final.2, h.final.3⟩ h.ended (hfit _ rfl) h.leftovers
        fun _ => ⟨fun hnone => (nomatch hlock.symm.trans hnone), fun other hother hcurrent => ?_⟩
      · intro gone heq file hfile
        obtain rfl := Stage.removing.inj heq
        nomatch hfile
      · cases other with
        | helper expected seen program =>
            obtain ⟨number, hnumber⟩ := List.mem_iff_getElem?.mp hother
            obtain ⟨phase, since, hhelper⟩ := h.slots number _ hnumber
            have hknown := hhelper.known
            have hnew : expected = before + 1 := hcurrent
            omega
        | _ => exact hcurrent
  | remove file =>
      obtain ⟨gone, rfl, hnext⟩ := hdoes
      cases hperform
      have hlock : w.lock = some pid := hat.lock.mpr rfl
      have hpublished := hat.published gone rfl
      have hfiles {other : File} {content : Content}
          (hcontent : content ∈ Function.update w.files file none other) :
          content ∈ w.files other := by
        by_cases hother : other = file
        · obtain rfl := hother
          rw [Function.update_self] at hcontent
          nomatch hcontent
        · rwa [Function.update_of_ne hother] at hcontent
      refine h.logout_held hslot hlock
        ⟨hnext, ⟨fun _ => rfl, fun _ => hlock⟩, nofun, fun _ _ => hpublished, ?_⟩ (.inl rfl) rfl
        le_rfl le_rfl (fun _ _ => ⟨rfl, rfl⟩)
        ⟨fun other content hcontent => h.final.files other content (hfiles hcontent), h.final.2,
          h.final.3⟩ h.ended h.epoch h.leftovers h.published
      intro now heq other hother
      obtain rfl := Stage.removing.inj heq
      by_cases hsame : other = file
      · obtain rfl := hsame
        exact Function.update_self _ _ _
      · exact (Function.update_of_ne hsame _ _).trans
          (hat.gone gone rfl other ((List.mem_cons.mp hother).resolve_left hsame))
  | release =>
      obtain ⟨⟨gone, rfl, hall⟩, hnext⟩ := hdoes
      cases hperform
      have hlock : w.lock = some pid := hat.lock.mpr rfl
      have hpublished := hat.published gone rfl
      refine h.logout_held hslot hlock ⟨hnext, ⟨nofun, nofun⟩, nofun, nofun, nofun⟩ (.inr rfl) rfl
        le_rfl h.ended (fun _ hfalse => nomatch hpublished.symm.trans hfalse)
        ⟨fun file content hcontent => ?_, fun item hitem hne => absurd (h.leftovers item hitem) hne,
          h.final.3⟩ le_rfl h.epoch h.leftovers nofun
      have hnone : w.files file = none := hat.gone gone rfl file (hall file)
      nomatch hnone.symm.trans hcontent
  | print tokens =>
      obtain ⟨rfl, hnext⟩ := hdoes
      cases hperform
      exact h.logout_quiet hslot hat hnext rfl nofun nofun
  | _ => exact hdoes.elim

/-! ### Runs -/

theorem Sound.start {w : World} (h : Sound w) {pid : ℕ} {command : Command}
    (hslot : w.slots[pid]? = some (.starting command)) (hpublished : w.published = false) :
    Sound (w.put pid (.helper w.readEpoch w.finished (command.main w.readEpoch))) := by
  have hread : w.readEpoch = w.epoch := if_pos h.epoch
  have hlock : w.lock ≠ some pid := h.slots pid _ hslot
  have hdoes : Safe w.readEpoch w.ended (fun _ => True) (command.main w.readEpoch) :=
    safe_main command
  have hgood : Good w pid (.helper w.readEpoch w.finished (command.main w.readEpoch)) :=
    ⟨.free, w.ended, Does.imp allows_mono hdoes fun _ _ hend => hend.1,
      ⟨fun heq => absurd heq hlock, fun hne => absurd rfl hne⟩, nofun, hread.le, le_rfl,
      fun _ => ⟨rfl, rfl⟩⟩
  exact h.quiet (lt_of_slot hslot) le_rfl hgood (fun heq => absurd heq hlock)
    fun htrue => nomatch hpublished.symm.trans htrue

/-- A process that is killed, with the temporary file that it leaves. -/
theorem Sound.killed {w : World} (h : Sound w) {pid : ℕ} (hpid : pid < w.slots.length)
    (hlock : w.lock ≠ some pid) {leftovers : List (File × Content)}
    (hall : ∀ item ∈ leftovers, item.1 = .connection) :
    Sound ({ w with leftovers := leftovers }.put pid .finished) := by
  refine h.advance hpid rfl hlock
    (fun _ _ => ⟨Iff.rfl, le_rfl, le_rfl, fun _ => ⟨rfl, rfl, rfl⟩, fun _ _ => ⟨rfl, rfl⟩⟩)
    ⟨h.final.1, fun item hitem hne => absurd (hall item hitem) hne, h.final.3⟩ h.ended h.epoch
    hall (fun heq => absurd heq hlock) fun htrue => ?_
  exact ⟨(h.published htrue).1, fun hcurrent => hcurrent, (h.published htrue).2⟩

/-- With its holder the lock is gone, which nobody else held. -/
theorem Sound.killed_held {w : World} (h : Sound w) {pid : ℕ} (hpid : pid < w.slots.length)
    (hlock : w.lock = some pid) {leftovers : List (File × Content)}
    (hall : ∀ item ∈ leftovers, item.1 = .connection) :
    Sound ({ w with lock := none, published := false, leftovers := leftovers }.put pid .finished) := by
  have hgood : Good { w with lock := none, published := false, leftovers := leftovers } pid .finished :=
    nofun
  refine h.advance hpid rfl hgood
    (fun other hother => ⟨⟨nofun, fun heq => ?_⟩, le_rfl, le_rfl, fun heq => ?_,
      fun _ _ => ⟨rfl, rfl⟩⟩)
    ⟨h.final.1, fun item hitem hne => absurd (hall item hitem) hne, h.final.3⟩ h.ended h.epoch
    hall nofun nofun
  · exact absurd (Option.some_inj.mp (heq.symm.trans hlock)) hother
  · exact absurd (Option.some_inj.mp (heq.symm.trans hlock)) hother

theorem Sound.kill {w : World} (h : Sound w) {pid : ℕ} {leaves : Bool}
    (hfit : Fit w (.kills pid leaves)) : Sound (w.kill pid leaves) := by
  unfold World.kill
  cases hslot : w.slots[pid]? with
  | none => exact h
  | some slot =>
      have hall : ∀ item ∈ w.leftovers ++ (if leaves then (World.leftover slot).toList else []),
          item.1 = File.connection := by
        intro item hitem
        rcases List.mem_append.mp hitem with hbefore | hleft
        · exact h.leftovers item hbefore
        · split_ifs at hleft with hleaves
          · exact hfit hleaves slot hslot item (Option.mem_toList.mp hleft)
          · nomatch hleft
      dsimp only
      by_cases hlock : w.lock = some pid
      · rw [if_pos hlock]
        exact h.killed_held (lt_of_slot hslot) hlock hall
      · rw [if_neg hlock]
        exact h.killed (lt_of_slot hslot) hlock hall

theorem Sound.run {w : World} (h : Sound w) {pid : ℕ} {input : Input}
    (hfit : Fit w (.runs pid input)) : Sound (w.run pid input) := by
  unfold World.run
  unfold Fit at hfit
  dsimp only at hfit
  have hover (hpid : pid < w.slots.length) (hlock : w.lock ≠ some pid) : Sound (w.put pid .finished) :=
    h.quiet hpid le_rfl hlock (fun heq => absurd heq hlock) fun _ hcurrent => hcurrent
  cases hslot : w.slots[pid]? with
  | none => exact h
  | some slot =>
      have hpid := lt_of_slot hslot
      cases slot with
      | starting command =>
          rw [hslot] at hfit
          exact h.start hslot hfit
      | helper expected seen program =>
          obtain ⟨phase, since, hat⟩ := h.slots pid _ hslot
          cases program with
          | done value => exact hover hpid fun heq => hat.lock.mp heq hat.does
          | throw fault => exact hover hpid fun heq => hat.lock.mp heq hat.does
          | step op next =>
              dsimp only
              split
              · rename_i hperform
                exact h.helper hslot hperform
              · exact h
      | logout program =>
          obtain ⟨stage, hat⟩ := h.slots pid _ hslot
          have hend (hstage : stage = .waiting ∨ stage = .finished) : w.lock ≠ some pid := by
            intro heq
            have hholds := hat.lock.mp heq
            rcases hstage with rfl | rfl <;> cases hholds
          cases program with
          | done value => exact hover hpid (hend hat.does)
          | throw fault => exact hover hpid (hend hat.does)
          | step op next =>
              dsimp only
              split
              · rename_i hperform
                refine h.logout hslot hperform fun epoch heq => ?_
                subst heq
                rw [hslot] at hfit
                exact hfit
              · exact h
      | finished => exact hover hpid (h.slots pid _ hslot)

/-- A new process. -/
theorem Sound.append {w : World} (h : Sound w) {slot : Slot} (hslot : ¬slot.Current w)
    (hgood : w.lock ≠ some w.slots.length → Good w w.slots.length slot) :
    Sound { w with slots := w.slots ++ [slot] } := by
  have hbefore {pid : ℕ} {program : Slot} (hprogram : program ∈ w.slots[pid]?) :
      program ∈ (w.slots ++ [slot])[pid]? := by
    rw [List.getElem?_append_left (lt_of_slot hprogram)]
    exact hprogram
  have hlock : w.lock ≠ some w.slots.length := by
    intro heq
    obtain ⟨program, hprogram, -⟩ := h.held _ heq
    exact absurd (lt_of_slot hprogram) (lt_irrefl _)
  refine ⟨⟨h.final.1, h.final.2, h.final.3⟩, h.ended, h.epoch, h.leftovers, ?_, ?_, ?_⟩
  · intro pid program hprogram
    have hagree {other : Slot} (hother : Good w pid other) :
        Good { w with slots := w.slots ++ [slot] } pid other :=
      hother.agree rfl rfl rfl rfl rfl rfl
    rcases lt_or_ge pid w.slots.length with hlt | hge
    · rw [List.getElem?_append_left hlt] at hprogram
      exact hagree (h.slots pid program hprogram)
    · have hone : [slot][pid - w.slots.length]? = some program := by
        rw [← List.getElem?_append_right hge]
        exact hprogram
      rw [List.getElem?_singleton] at hone
      split_ifs at hone with hzero
      obtain rfl := Option.some_inj.mp hone
      obtain rfl : pid = w.slots.length := by omega
      exact hagree (hgood hlock)
  · intro pid hpid
    obtain ⟨program, hprogram, hlogout⟩ := h.held pid hpid
    exact ⟨program, hbefore hprogram, hlogout⟩
  · intro htrue
    refine ⟨(h.published htrue).1, fun program hprogram => ?_⟩
    rcases List.mem_append.mp hprogram with hmem | hmem
    · exact (h.published htrue).2 program hmem
    · obtain rfl := List.mem_singleton.mp hmem
      exact hslot

theorem Sound.step {w : World} (h : Sound w) {move : Move} (hfit : Fit w move) :
    Sound (w.step move) := by
  cases move with
  | starts command => exact h.append (fun hcurrent => hcurrent) fun hlock => hlock
  | signsOut order =>
      unfold World.step
      dsimp only
      split_ifs with horder
      · have hall (file : File) : file ∈ order := by
          rw [(List.isPerm_iff.mp horder).mem_iff]
          cases file <;> decide
        refine h.append (fun hcurrent => hcurrent) fun hlock => ?_
        exact ⟨.waiting, does_logout hall, ⟨fun heq => absurd heq hlock, nofun⟩, nofun, nofun, nofun⟩
      · exact h
  | runs pid input => exact h.run hfit
  | kills pid leaves => exact h.kill hfit

/-- In every fit run a finished sign-out stays final. -/
theorem fit_runs_final {files : File → Option Content} {epoch made : ℕ}
    (hepoch : epoch ≤ MAX_SAFE_INTEGER) {moves : List Move}
    (hrun : EachStep World.step Fit (opened files epoch made) moves) :
    ∀ w ∈ states World.step (opened files epoch made) moves, Final w := by
  have hopened : Sound (opened files epoch made) := by
    refine ⟨⟨fun _ _ _ _ _ _ _ => Nat.zero_le _, nofun, nofun⟩, Nat.zero_le _, hepoch, nofun,
      fun pid slot hslot => ?_, nofun, nofun⟩
    nomatch hslot
  exact fun w hw => (hrun.states (fun _ _ hsound hfit => hsound.step hfit) hopened w hw).final

/-! ### A helper that starts inside a sign-out -/

/-- A good answer without a session. -/
def answered : Input where
  reply := ⟨some 200, true, false, none, false, none, [], none, 0⟩
  outcome := false
  localId := []
  now := 0
  request := .timeout

/-- A state directory with the client of a session. -/
def signedIn : File → Option Content
  | .clerkClient => some (.client ⟨[0]⟩)
  | _ => none

/-- The status command starts and reads the client between the epoch and the
removals of the sign-out, and writes the client after them. -/
def startedInside : List Move :=
  [.signsOut File.all, .starts .status] ++ List.replicate 3 (.runs 0 answered) ++
    List.replicate 3 (.runs 1 answered) ++ List.replicate 6 (.runs 0 answered) ++
    List.replicate 4 (.runs 1 answered)

/-- The client is there again. -/
theorem startedInside_kept :
    ¬ ∀ (files : File → Option Content) (epoch made : ℕ) (moves : List Move),
      epoch ≤ MAX_SAFE_INTEGER →
      ∀ w ∈ states World.step (opened files epoch made) moves, Final w := by
  intro h
  have hfinal := h signedIn 0 1 startedInside (Nat.zero_le _) _ (foldl_mem_states _ _)
  have hclient : (startedInside.foldl World.step (opened signedIn 0 1)).files .clerkClient =
      some (.client ⟨[0]⟩) := by decide +kernel
  have hended : (startedInside.foldl World.step (opened signedIn 0 1)).ended = 1 := by
    decide +kernel
  have hsince := hfinal.files .clerkClient _ hclient ⟨[0]⟩ List.mem_cons_self 0 List.mem_cons_self
  rw [hended] at hsince
  exact absurd hsince (by decide)

/-- The status command starts before the sign-out. -/
def startedBefore : List Move :=
  [.starts .status, .runs 0 answered, .signsOut File.all] ++ List.replicate 9 (.runs 1 answered)

theorem fit_runs_final_startedBefore :
    Final (startedBefore.foldl World.step (opened signedIn 0 1)) := by
  have hrun : EachStep World.step Fit (opened signedIn 0 1) startedBefore :=
    ⟨trivial, rfl, trivial, trivial, trivial, Nat.one_le_iff_ne_zero.mpr nofun, trivial, trivial,
      trivial, trivial, trivial, trivial, trivial⟩
  exact fit_runs_final (Nat.zero_le _) hrun _ (foldl_mem_states _ _)

end Cloud

end T3

end CybexOS
