/-
Runs of login, connect and ticket commands of one session: the saved token and
the saved key belong together unless a generated key replaces a stored one.
-/
import CybexOS.T3.KeyBound

namespace CybexOS

namespace T3

namespace Cloud

open Process

/-! ### What the state says of its processes -/

/-- The process keeps to what is allowed, and what it knows to be stored is. -/
def Keeping (w : World) : Slot → Prop
  | .helper _ _ program => ∃ known : Known,
      (known.stored = none ∨ known.stored = keyOf (w.files .dpopKey)) ∧
        program.Does keeps (fun _ _ => True) known
  | .logout _ => False
  | _ => True

structure Paired (w : World) : Prop where
  agreeing : Agreeing w.files
  slots : ∀ slot ∈ w.slots, Keeping w slot

theorem Paired.together {w : World} (h : Paired w) : Together w := by
  refine ⟨fun _ => h.agreeing, fun expected seen program hslot connection key hrequests => ?_⟩
  obtain ⟨known, -, hdoes⟩ := h.slots _ hslot
  exact bound_of_requests hrequests hdoes

/-- The stored key is the same, or there was none. -/
theorem Keeping.frame {w after : World} {slot : Slot} (h : Keeping w slot)
    (hkey : keyOf (w.files .dpopKey) = none ∨
      keyOf (after.files .dpopKey) = keyOf (w.files .dpopKey)) : Keeping after slot := by
  cases slot with
  | helper expected seen program =>
      obtain ⟨known, hknown, hdoes⟩ := h
      refine ⟨known, ?_, hdoes⟩
      rcases hknown with hnone | hstored
      · exact .inl hnone
      · rcases hkey with hnone | hsame
        · exact .inl (hstored.trans hnone)
        · exact .inr (hstored.trans hsame.symm)
  | logout program => exact h
  | _ => trivial

/-- The state after a step of a process. -/
theorem Paired.advance {w after : World} (h : Paired w) {pid : ℕ} {slot : Slot}
    (hslots : after.slots = w.slots) (hagree : Agreeing after.files)
    (hkey : keyOf (w.files .dpopKey) = none ∨
      keyOf (after.files .dpopKey) = keyOf (w.files .dpopKey))
    (hkeeping : Keeping after slot) : Paired (after.put pid slot) := by
  have hput {other : Slot} (hother : Keeping after other) : Keeping (after.put pid slot) other :=
    hother.frame (.inr rfl)
  refine ⟨hagree, fun other hother => ?_⟩
  change other ∈ after.slots.set pid slot at hother
  rw [hslots] at hother
  rcases List.mem_or_eq_of_mem_set hother with hmem | rfl
  · exact hput ((h.slots other hmem).frame hkey)
  · exact hput hkeeping

/-! ### Steps -/

section

variable {w after : World} {pid expected seen : ℕ}

/-- A step that leaves the files alone. -/
theorem Paired.quiet (h : Paired w) (hslots : after.slots = w.slots)
    (hfiles : after.files = w.files) {slot : Slot} (hkeeping : Keeping w slot) :
    Paired (after.put pid slot) := by
  have hkey : keyOf (after.files .dpopKey) = keyOf (w.files .dpopKey) := by rw [hfiles]
  exact h.advance hslots (hfiles ▸ h.agreeing) (.inr hkey) (hkeeping.frame (.inr hkey))

theorem agreeing_update {files : File → Option Content} {file : File} {content : Option Content}
    (h : Agreeing files) (hkey : file ≠ .dpopKey) (hconnection : file ≠ .connection) :
    Agreeing (Function.update files file content) := by
  unfold Agreeing
  rw [Function.update_of_ne hkey.symm, Function.update_of_ne hconnection.symm]
  exact h

theorem Paired.write (h : Paired w) {file : File} {content : Content} {next : Unit → Helper Unit}
    {known : Known} (hknown : known.stored = none ∨ known.stored = keyOf (w.files .dpopKey))
    (hdoes : (Process.step (.write file content) next).Does keeps (fun _ _ => True) known)
    (hfit : file = .dpopKey → keyOf (w.files .dpopKey) = none) :
    Paired ({ w with files := Function.update w.files file (some content) }.put pid
      (.helper expected seen (next ()))) := by
  have hother {other : File} (hne : other ≠ file) :
      Function.update w.files file (some content) other = w.files other :=
    Function.update_of_ne hne _ _
  have hself : Function.update w.files file (some content) file = some content :=
    Function.update_self _ _ _
  by_cases hkeyfile : file = .dpopKey
  · subst hkeyfile
    obtain ⟨key, rfl, hnext⟩ := hdoes
    have hnone := hfit rfl
    refine h.advance rfl (fun token htoken => ?_) (.inl hnone)
      ⟨⟨some key, []⟩, .inr (congrArg keyOf hself).symm, hnext _ rfl⟩
    obtain ⟨stored, hstored, -⟩ := h.agreeing token
      (congrArg tokenOf (hother (by decide : File.connection ≠ .dpopKey)) ▸ htoken)
    cases hnone.symm.trans hstored
  · have hkey : keyOf (Function.update w.files file (some content) .dpopKey) =
        keyOf (w.files .dpopKey) := congrArg keyOf (hother (Ne.symm hkeyfile))
    have hgo {known : Known}
        (hknown : known.stored = none ∨ known.stored = keyOf (w.files .dpopKey))
        (hnext : (next ()).Does keeps (fun _ _ => True) known)
        (hagree : Agreeing (Function.update w.files file (some content))) :
        Paired ({ w with files := Function.update w.files file (some content) }.put pid
          (.helper expected seen (next ()))) :=
      h.advance rfl hagree (.inr hkey) ⟨known, hknown.imp_right fun hsame => hsame.trans hkey.symm,
        hnext⟩
    cases file with
    | dpopKey => exact absurd rfl hkeyfile
    | connection =>
        obtain ⟨hbound, hnext⟩ := hdoes
        refine hgo hknown hnext fun token htoken => ?_
        rw [hself] at htoken
        obtain ⟨key, hstored, htoken⟩ := hbound token htoken
        rw [hkey]
        rcases hknown with hnone | hsame
        · cases hnone.symm.trans hstored
        · exact ⟨key, hsame.symm.trans hstored, htoken⟩
    | _ =>
        exact hgo hknown (hdoes ())
          (agreeing_update h.agreeing (by decide) (by decide))

theorem Paired.remove (h : Paired w) {file : File} {next : Unit → Helper Unit}
    {known : Known} (hknown : known.stored = none ∨ known.stored = keyOf (w.files .dpopKey))
    (hdoes : (Process.step (.remove file) next).Does keeps (fun _ _ => True) known) :
    Paired ({ w with files := Function.update w.files file none }.put pid
      (.helper expected seen (next ()))) := by
  obtain ⟨hfile, hnext⟩ := hdoes
  have hkey : keyOf (Function.update w.files file none .dpopKey) = keyOf (w.files .dpopKey) := by
    rw [Function.update_of_ne hfile.symm]
  have hagree : Agreeing (Function.update w.files file none) := by
    intro token htoken
    rw [hkey]
    by_cases hconnection : file = .connection
    · subst hconnection
      rw [Function.update_self] at htoken
      cases htoken
    · rw [Function.update_of_ne (Ne.symm hconnection)] at htoken
      exact h.agreeing token htoken
  exact h.advance rfl hagree (.inr hkey)
    ⟨known, hknown.imp_right fun hsame => hsame.trans hkey.symm, hnext⟩

/-- One operation of a helper. -/
theorem Paired.helper (h : Paired w) {op : Op} {next : Answer op → Helper Unit} {input : Input}
    {answer : Answer op} (hslot : Slot.helper expected seen (.step op next) ∈ w.slots)
    (hperform : w.perform pid input op = some (after, answer))
    (hfit : ∀ content, op = .write .dpopKey content → keyOf (w.files .dpopKey) = none) :
    Paired ((after.noteHelper seen op).put pid (.helper expected seen (next answer))) := by
  obtain ⟨known, hknown, hdoes⟩ := h.slots _ hslot
  have hgo {world : World} (hslots : world.slots = w.slots) (hfiles : world.files = w.files)
      {known : Known} (hnext : (next answer).Does keeps (fun _ _ => True) known)
      (hknown : known.stored = none ∨ known.stored = keyOf (w.files .dpopKey)) :
      Paired (world.put pid (.helper expected seen (next answer))) :=
    h.quiet hslots hfiles ⟨known, hknown, hnext⟩
  cases op with
  | read file =>
      cases hperform
      refine hgo rfl rfl (hdoes w.files ⟨keyOf (w.files .dpopKey), known.asked⟩ ?_ rfl
        h.agreeing) (.inr rfl)
      exact hknown.imp_right Eq.symm
  | ask bearing =>
      unfold World.perform at hperform
      dsimp only at hperform
      split_ifs at hperform with hbearing
      · cases hperform
        exact hgo rfl rfl (hdoes _ _ fun hne => absurd hbearing hne) hknown
      · cases hperform
        exact hgo rfl rfl (hdoes _ _ fun _ => rfl) hknown
  | acquire =>
      unfold World.perform at hperform
      dsimp only at hperform
      split_ifs at hperform
      · cases hperform
        exact hgo rfl rfl (hdoes true) hknown
      · cases hperform
        exact hgo rfl rfl (hdoes false) hknown
  | publish => exact hdoes.elim
  | write file content =>
      cases hperform
      exact h.write hknown hdoes fun hfile => hfit content (hfile ▸ rfl)
  | remove file =>
      cases hperform
      exact h.remove hknown hdoes
  | print tokens =>
      cases hperform
      exact hgo rfl rfl hdoes.2 hknown
  | _ =>
      cases hperform
      exact hgo rfl rfl (hdoes _) hknown

end

/-! ### Runs -/

theorem Paired.run {w : World} (h : Paired w) {pid : ℕ} {input : Input}
    (hfit : Unreplaced w (.runs pid input)) : Paired (w.run pid input) := by
  unfold World.run
  unfold Unreplaced at hfit
  dsimp only at hfit
  cases hslot : w.slots[pid]? with
  | none => exact h
  | some slot =>
      rw [hslot] at hfit
      have hmem : slot ∈ w.slots := List.mem_of_getElem? hslot
      cases slot with
      | starting command =>
          exact h.quiet rfl rfl ⟨⟨none, []⟩, .inl rfl, Does.imp keeps_mono (keeps_main command)
            fun _ _ _ => trivial⟩
      | helper expected seen program =>
          cases program with
          | done value => exact h.quiet rfl rfl trivial
          | throw fault => exact h.quiet rfl rfl trivial
          | step op next =>
              dsimp only
              split
              · rename_i hperform
                refine h.helper hmem hperform fun content hop => ?_
                subst hop
                exact hfit
              · exact h
      | logout program => exact (h.slots _ hmem).elim
      | finished => exact h.quiet rfl rfl trivial

theorem Paired.kill {w : World} (h : Paired w) {pid : ℕ} {leaves : Bool} :
    Paired (w.kill pid leaves) := by
  unfold World.kill
  cases w.slots[pid]? with
  | none => exact h
  | some slot =>
      have hover : Keeping w .finished := trivial
      dsimp only
      by_cases hlock : w.lock = some pid
      · rw [if_pos hlock]
        refine h.quiet ?_ ?_ hover <;> rfl
      · rw [if_neg hlock]
        refine h.quiet ?_ ?_ hover <;> rfl

theorem Paired.step {w : World} (h : Paired w) {move : Move} (hhelps : move.Helps)
    (hfit : Unreplaced w move) : Paired (w.step move) := by
  cases move with
  | starts command =>
      refine ⟨h.agreeing, fun slot hslot => ?_⟩
      rcases List.mem_append.mp hslot with hbefore | hnew
      · exact (h.slots slot hbefore).frame (.inr rfl)
      · obtain rfl := List.mem_singleton.mp hnew
        trivial
  | signsOut order => exact hhelps.elim
  | runs pid input => exact h.run hfit
  | kills pid leaves => exact h.kill

/-- In every run of such commands in which no generated key replaces a stored
one, tokens and keys belong together if they did at first. -/
theorem runs_together_iff {files : File → Option Content} {epoch made : ℕ} :
    (∀ moves : List Move, (∀ move ∈ moves, move.Helps) →
      EachStep World.step Unreplaced (opened files epoch made) moves →
        ∀ w ∈ states World.step (opened files epoch made) moves, Together w) ↔
      Agreeing files := by
  constructor
  · intro h
    have hstart : Together (opened files epoch made) :=
      h [] (fun _ hmove => absurd hmove List.not_mem_nil) trivial _ List.mem_cons_self
    exact hstart.saved fun _ hslot => absurd hslot List.not_mem_nil
  · intro hagree moves hhelps hrun w hw
    have hopened : Paired (opened files epoch made) :=
      ⟨hagree, fun _ hslot => absurd hslot List.not_mem_nil⟩
    have hhelping : EachStep World.step (fun _ move => Move.Helps move) (opened files epoch made)
        moves := EachStep.of_mem hhelps
    have hpaired (s : World) (move : Move) (hs : Paired s)
        (hfit : Unreplaced s move ∧ move.Helps) : Paired (s.step move) := hs.step hfit.2 hfit.1
    have hall : ∀ w ∈ states World.step (opened files epoch made) moves, Paired w :=
      EachStep.states hpaired hopened (hrun.and hhelping)
    exact (hall w hw).together

/-! ### Two first uses at once -/

def Slot.isOver : Slot → Bool
  | .finished => true
  | _ => false

theorem over_of_all {slots : List Slot} (h : slots.all Slot.isOver = true) :
    ∀ slot ∈ slots, slot = .finished := by
  intro slot hslot
  have hover := List.all_eq_true.mp h slot hslot
  cases slot with
  | finished => rfl
  | _ => cases hover

/-- A good answer with a session and an environment. -/
def linked : Input where
  reply := ⟨some 200, true, false, some (ascii "user"), true, none,
    [⟨ascii "home", ascii "Home", [], some (ascii "https://home", ascii "wss://home")⟩], none, 3600⟩
  outcome := true
  localId := []
  now := 0
  request := .timeout

/-- A state directory with a client, and no key and no connection. -/
def clientOnly : File → Option Content
  | .clerkClient => some (.client ⟨[0]⟩)
  | _ => none

/-- Both connect commands find no key; the first one writes its key, the second
one its key and its connection, and the first one its connection. -/
def firstUses : List Move :=
  [.starts .connect, .starts .connect] ++ List.replicate 17 (.runs 1 linked) ++
    List.replicate 21 (.runs 0 linked) ++ List.replicate 17 (.runs 1 linked) ++
    List.replicate 13 (.runs 0 linked)

/-- The key of the second and the connection of the first one are left. -/
theorem firstUses_apart :
    ¬ ∀ (files : File → Option Content) (epoch made : ℕ) (moves : List Move),
      (∀ move ∈ moves, move.Helps) →
        ∀ w ∈ states World.step (opened files epoch made) moves, Together w := by
  intro h
  have hhelps : ∀ move ∈ firstUses, move.Helps := by
    intro move hmove
    unfold firstUses at hmove
    simp only [List.mem_append, List.mem_cons, List.mem_replicate, List.not_mem_nil] at hmove
    rcases hmove with (((((rfl | rfl | hnone) | ⟨-, rfl⟩) | ⟨-, rfl⟩) | ⟨-, rfl⟩) | ⟨-, rfl⟩)
    all_goals trivial
  have hlast := h clientOnly 0 1 firstUses hhelps _ (foldl_mem_states _ _)
  have hover : (firstUses.foldl World.step (opened clientOnly 0 1)).slots.all Slot.isOver =
      true := by
    decide +kernel
  have hkey : keyOf ((firstUses.foldl World.step (opened clientOnly 0 1)).files .dpopKey) =
      some ⟨[1]⟩ := by
    decide +kernel
  have htoken : tokenOf ((firstUses.foldl World.step (opened clientOnly 0 1)).files .connection) =
      some ⟨[0, 2, 2, 2]⟩ := by
    decide +kernel
  obtain ⟨key, hstored, bearer, hbound⟩ := hlast.saved (over_of_all hover) _ htoken
  rw [hkey] at hstored
  obtain rfl := Option.mem_some_iff.mp hstored
  have horigins : [0, 2, 2, 2] = bearer.origins ++ [1] := congrArg Token.origins hbound
  have hend := congrArg List.getLast? horigins
  rw [List.getLast?_append] at hend
  exact absurd hend (by simp)

end Cloud

end T3

end CybexOS
