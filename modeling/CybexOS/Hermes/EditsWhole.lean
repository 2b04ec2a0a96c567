/-
When remote edits are all or nothing: unless a request is rejected after a
message was cut off, or the new branch cannot be read.
-/
import CybexOS.Hermes.RemoteEdit

namespace CybexOS

namespace Hermes

namespace RemoteEdit

open Program

variable {host : Host} {w t : World} {α : Type}

/-! ### Ends of programs -/

/-- The program ends so. -/
def Ends (program : Bridge α) (post : Except Fault α → World → Prop) (w : World) : Prop :=
  program.Leads (fun _ _ => True) post w

theorem ends_iff {program : Bridge α} {post : Except Fault α → World → Prop} :
    Ends program post w ↔ post (program.result w) (program.last w) := by
  refine and_iff_right ?_
  generalize program.moments w = passed
  induction passed generalizing w with
  | nil => exact List.IsChain.singleton _
  | cons head tail ih => exact List.isChain_cons_cons.mpr ⟨trivial, ih⟩

theorem whole_iff {program : Bridge α} : Whole program w ↔ Ends program (fun result t =>
    ∀ status, result = .error (.rejected status) → Unharmed w.sessions t.sessions) w :=
  (@ends_iff w _ program fun result t =>
    ∀ status, result = .error (.rejected status) → Unharmed w.sessions t.sessions).symm

theorem ends_bind {β : Type} {program : Bridge α} {next : α → Bridge β}
    {post : Except Fault β → World → Prop} :
    Ends (program >>= next) post w ↔
      (∀ value, program.result w = .ok value → Ends (next value) post (program.last w)) ∧
        ∀ fault, program.result w = .error fault → post (.error fault) (program.last w) := by
  rw [Ends, leads_bind]
  refine ends_iff.trans ?_
  cases program.result w with
  | ok value => simp [Ends]
  | error fault => simp

theorem ends_rejected {request : Request} {status : ℕ} (h : host.rejects request = some status)
    {post : Except Fault Text → World → Prop} :
    Ends (remoteRequest host request) post w ↔ post (.error (.rejected status)) w := by
  simp only [Ends, remoteRequest, h, leads_fail]

theorem ends_accepted {request : Request} (h : host.rejects request = none)
    {post : Except Fault Text → World → Prop} :
    Ends (remoteRequest host request) post w ↔
      post (.ok (request.answer host.newId w.sessions))
        { w with sessions := request.exec host.newId w.sessions } := by
  simp only [Ends, remoteRequest, h, leads_bind, leads_look, leads_effect, leads_pure, true_and]

theorem ends_downgrade {change : Contract → Contract} {fault : Fault}
    {post : Except Fault Unit → World → Prop}
    (h : ∀ contract, post (.ok ()) { w with contract := contract }) :
    Ends (downgrade change fault) post w := by
  unfold downgrade
  cases fault with
  | rejected status =>
      simp only
      split_ifs
      · exact leads_effect.mpr ⟨trivial, h _⟩
      · exact leads_pure.mpr (h w.contract)
  | refused code message => exact leads_pure.mpr (h w.contract)

/-! ### Sessions -/

theorem lookup_update {sessions : Sessions} {id asked : Text} {change : Session → Session} :
    (sessions.update id change).lookup asked =
      (sessions.lookup asked).map (if asked = id then change else fun session => session) := by
  induction sessions with
  | nil => rfl
  | cons item sessions ih =>
      rw [Sessions.update, List.map_cons, ← Sessions.update]
      by_cases hitem : item.1 = id
      · rw [if_pos hitem, Dict.lookup_item, Dict.lookup_item, ih]
        split_ifs with hasked hid hid
        · rfl
        · exact absurd (hasked.trans hitem) hid
        · rfl
        · rfl
      · rw [if_neg hitem, Dict.lookup_item, Dict.lookup_item, ih]
        split_ifs with hasked hid hid
        · exact absurd (hasked.symm.trans hid) hitem
        · rfl
        · rfl
        · rfl

theorem Unharmed.refl (sessions : Sessions) : Unharmed sessions sessions where
  messages := fun id session h => by rw [h]; rfl
  branches := fun id session h _ => Dict.lookup_isSome.mp (by rw [h]; rfl)

theorem Unharmed.congr {before after after' : Sessions} (h : Unharmed before after)
    (hsame : ∀ id, after'.lookup id = after.lookup id) : Unharmed before after' where
  messages := fun id session hid => by rw [hsame]; exact h.messages id session hid
  branches := fun id session hid => h.branches id session (hsame id ▸ hid)

theorem Unharmed.keys {before after : Sessions} (h : Unharmed before after) {id : Text}
    (hid : id ∈ Dict.keys before) : id ∈ Dict.keys after := by
  obtain ⟨session, hsession⟩ := Option.isSome_iff_exists.mp (Dict.lookup_isSome.mpr hid)
  have hafter := h.messages id session hsession
  refine Dict.lookup_isSome.mp ?_
  cases hlookup : after.lookup id with
  | none =>
      rw [hlookup] at hafter
      cases hafter
  | some found => rfl

/-- Cutting a session harms it exactly when it had more messages. -/
theorem unharmed_truncate {before after : Sessions} (h : Unharmed before after) (id : Text)
    (keep : ℕ) :
    Unharmed before (after.update id fun session =>
        { session with messages := session.messages.take keep }) ↔
      ∀ session, before.lookup id = some session → session.messages.length ≤ keep := by
  constructor
  · intro hcut session hsession
    have hkept := hcut.messages id session hsession
    rw [lookup_update, if_pos rfl, Option.map_map] at hkept
    have hheld := h.messages id session hsession
    cases hlookup : after.lookup id with
    | none =>
        rw [hlookup] at hkept
        cases hkept
    | some found =>
        rw [hlookup] at hkept hheld
        have htake : found.messages.take keep = session.messages := Option.some.inj hkept
        have hsame : found.messages = session.messages := Option.some.inj hheld
        rw [hsame] at htake
        exact List.take_eq_self_iff _ |>.mp htake
  · intro hall
    refine ⟨fun asked session hsession => ?_, fun asked session hsession hbranch => ?_⟩
    · have hheld := h.messages asked session hsession
      rw [lookup_update]
      split_ifs with hasked
      · subst hasked
        cases hlookup : after.lookup asked with
        | none =>
            rw [hlookup] at hheld
            cases hheld
        | some found =>
            rw [hlookup] at hheld
            have hsame : found.messages = session.messages := Option.some.inj hheld
            simp only [Option.map_some, hsame]
            rw [List.take_of_length_le (hall session hsession)]
      · rw [Option.map_map]
        exact hheld
    · rw [lookup_update] at hsession
      obtain ⟨found, hfound, hsame⟩ := Option.map_eq_some_iff.mp hsession
      refine h.branches asked found hfound ?_
      rw [← hbranch, ← hsame]
      split_ifs <;> rfl

/-! ### The session of a conversation -/

/-- What is known once a conversation has its session. -/
structure Ensured (host : Host) (before after : World) (id : Text) : Prop where
  connected : host.connected = true
  named : id ≠ []
  session : after.conversation.session = id
  mapped : after.conversation.mapped = true
  unharmed : Unharmed before.sessions after.sessions

theorem unharmed_create {sessions : Sessions} {id : Text} (hid : id ∉ Dict.keys sessions) :
    Unharmed sessions (Dict.set sessions id ⟨[], [], false⟩) where
  messages := by
    intro asked session hsession
    have hne : asked ≠ id := fun heq =>
      hid (heq ▸ Dict.lookup_isSome.mp (by rw [hsession]; rfl))
    rw [Dict.lookup_set, if_neg hne, hsession]
    rfl
  branches := by
    intro asked session hsession hbranch
    rw [Dict.lookup_set] at hsession
    split_ifs at hsession with heq
    · obtain rfl := Option.some.inj hsession
      cases hbranch
    · exact Dict.lookup_isSome.mp (by rw [hsession]; rfl)

theorem ensureRemoteSession_spec (hnew : ∀ sessions, host.newId sessions ∉ Dict.keys sessions) :
    Ends (ensureRemoteSession host) (fun result t =>
      (∀ id, result = .ok id → Ensured host w t id) ∧
        ∀ status, result = .error (.rejected status) → t.sessions = w.sessions) w := by
  unfold ensureRemoteSession
  split_ifs with hoff
  · exact leads_fail.mpr ⟨fun _ h => (by cases h), fun _ h => (by cases h)⟩
  have hconnected : host.connected = true := by simpa using hoff
  refine leads_look_bind.mpr ?_
  split_ifs with hmapped
  · refine leads_pure.mpr ⟨fun id h => ?_, fun _ h => (by cases h)⟩
    obtain rfl := Except.ok.inj h
    exact ⟨hconnected, hmapped.1, rfl, hmapped.2, Unharmed.refl _⟩
  -- the id that is written down
  have hdone : ∀ id t, id ≠ [] → Unharmed w.sessions t.sessions →
      Ends (do
        effect fun w => { w with conversation :=
          { w.conversation with session := id, mapped := true } }
        pure id : Bridge Text) (fun result t =>
          (∀ id, result = .ok id → Ensured host w t id) ∧
            ∀ status, result = .error (.rejected status) → t.sessions = w.sessions) t := by
    intro id t hid hunharmed
    refine leads_effect_bind.mpr ⟨trivial, leads_pure.mpr ⟨fun id' h => ?_, fun _ h => (by cases h)⟩⟩
    obtain rfl := Except.ok.inj h
    exact ⟨hconnected, hid, rfl, rfl, hunharmed⟩
  have hcreate : Ends (createRemoteSession host >>= fun id => (do
      effect fun w => { w with conversation :=
        { w.conversation with session := id, mapped := true } }
      pure id : Bridge Text)) (fun result t =>
        (∀ id, result = .ok id → Ensured host w t id) ∧
          ∀ status, result = .error (.rejected status) → t.sessions = w.sessions) w := by
    refine leads_bind.mpr ?_
    unfold createRemoteSession
    refine leads_bind.mpr ?_
    cases hreject : host.rejects .create with
    | some status => exact (ends_rejected hreject).mpr ⟨fun _ h => (by cases h), fun _ _ => rfl⟩
    | none =>
        refine (ends_accepted hreject).mpr ?_
        simp only [leads_ite]
        split_ifs with hempty
        · exact leads_fail.mpr ⟨fun _ h => (by cases h), fun _ h => (by cases h)⟩
        · exact leads_pure.mpr (hdone _ _ hempty (unharmed_create (hnew _)))
  refine leads_bind.mpr ?_
  unfold knownSession
  split_ifs with hnone
  · refine leads_pure.mpr ?_
    simp only [if_true]
    exact hcreate
  · refine leads_catching.mpr (leads_bind.mpr ?_)
    cases hreject : host.rejects (.status w.conversation.session) with
    | some status =>
        refine (ends_rejected hreject).mpr ?_
        simp only [leads_ite, leads_pure, leads_fail]
        split_ifs with hgone
        · exact hcreate
        · exact ⟨fun _ h => (by cases h), fun _ _ => trivial⟩
    | none =>
        refine (ends_accepted hreject).mpr (leads_pure.mpr ?_)
        simp only [if_neg hnone]
        exact leads_bind.mpr (leads_pure.mpr (hdone _ _ hnone (Unharmed.refl _)))

/-- A session once ensured is taken as it is. -/
theorem ends_ensured {before : World} {id : Text} (h : Ensured host before t id)
    {post : Except Fault Text → World → Prop} :
    Ends (ensureRemoteSession host) post t ↔ post (.ok id) t := by
  have hmapped : t.conversation.session ≠ [] ∧ t.conversation.mapped = true :=
    ⟨h.session.symm ▸ h.named, h.mapped⟩
  unfold ensureRemoteSession
  rw [if_neg (by rw [h.connected]; simp)]
  refine leads_look_bind.trans ?_
  rw [if_pos hmapped, leads_pure, h.session]

/-! ### Editing -/

def Host.readable (host : Host) (path : Text) : Bool := (host.localAttachment path).toBool

/-- The first rejected request of a prompt comes before any file that cannot be
read: an upload, or the start of the response. -/
def PromptRejected (host : Host) (id text : Text) (attachments : List (Option Text)) : Prop :=
  attachments.length ≤ MAX_REMOTE_ATTACHMENTS ∧
    ((∃ path ∈ (uploadPaths attachments).takeWhile host.readable,
        (host.rejects (.upload id path)).isSome) ∨
      ∃ names, (uploadPaths attachments).mapM host.localAttachment = .ok names ∧
        (host.rejects (.start id (agentText text names) names)).isSome)

/-- Uploads touch no session; the first one rejected ends them. -/
theorem uploads_spec (id : Text) (paths : List Text) :
    Ends (paths.mapM (uploadAttachment host id)) (fun result u => u.sessions = t.sessions ∧
      ((∃ status, result = .error (.rejected status)) ↔
        ∃ path ∈ paths.takeWhile host.readable, (host.rejects (.upload id path)).isSome) ∧
      ∀ names, result = .ok names ↔ paths.mapM host.localAttachment = .ok names ∧
        ∀ path ∈ paths, host.rejects (.upload id path) = none) t := by
  induction paths generalizing t with
  | nil =>
      refine leads_pure.mpr ⟨rfl, by simp, fun names => ?_⟩
      simp [pure, Except.pure]
  | cons path paths ih =>
      rw [List.mapM_cons, List.mapM_cons]
      refine leads_bind.mpr ?_
      unfold uploadAttachment
      refine leads_bind.mpr (leads_ofExcept.mpr ?_)
      cases hfile : host.localAttachment path with
      | error message =>
          have hunread : ¬host.readable path = true := by simp [Host.readable, hfile, Except.toBool]
          refine ⟨rfl, ?_, fun names => ?_⟩
          · simp [List.takeWhile_cons_of_neg hunread]
          · simp [bind, Except.bind]
      | ok filename =>
          have hread : host.readable path = true := by simp [Host.readable, hfile, Except.toBool]
          rw [List.takeWhile_cons_of_pos hread]
          refine leads_bind.mpr (leads_catching.mpr ?_)
          cases hreject : host.rejects (.upload id path) with
          | some status =>
              refine (ends_rejected hreject).mpr (leads_bind.mpr (ends_downgrade fun contract => ?_))
              refine leads_fail.mpr ⟨rfl, ?_, fun names => ?_⟩
              · exact iff_of_true ⟨status, rfl⟩ ⟨path, List.mem_cons_self, by rw [hreject]; rfl⟩
              · simp [hreject]
          | none =>
              refine (ends_accepted hreject).mpr (leads_pure.mpr (leads_bind.mpr ?_))
              have hlater : (∃ other ∈ path :: paths.takeWhile host.readable,
                  (host.rejects (.upload id other)).isSome) ↔
                    ∃ other ∈ paths.takeWhile host.readable,
                      (host.rejects (.upload id other)).isSome := by
                rw [List.exists_mem_cons_iff, hreject]
                exact or_iff_right Bool.false_ne_true
              refine Leads.imp ih ?_
              rintro (fault | names) u ⟨hsame, hrejected, hnames⟩
              · refine ⟨hsame, ?_, fun names => ?_⟩
                · rw [hlater, ← hrejected]
                · cases hmap : paths.mapM host.localAttachment with
                  | error message => simp [bind, Except.bind]
                  | ok names' =>
                      have hthis := hnames names'
                      rw [hmap] at hthis
                      simp only [reduceCtorEq, true_and, false_iff, not_forall] at hthis
                      obtain ⟨other, hother, hrejects⟩ := hthis
                      refine iff_of_false (by simp) fun hall => hrejects ?_
                      exact hall.2 other (List.mem_cons_of_mem _ hother)
              · refine leads_pure.mpr ⟨hsame, ?_, fun names' => ?_⟩
                · rw [hlater, ← hrejected]
                  simp
                · obtain ⟨hmap, hall⟩ := (hnames names).mp rfl
                  rw [hmap]
                  have hboth : ∀ other ∈ path :: paths,
                      host.rejects (.upload id other) = none :=
                    List.forall_mem_cons.mpr ⟨hreject, hall⟩
                  exact ⟨fun hsame => ⟨congrArg Except.ok (Except.ok.inj hsame), hboth⟩,
                    fun hsame => congrArg Except.ok (Except.ok.inj hsame.1)⟩

theorem readable_of_mapM {paths names : List Text}
    (h : paths.mapM host.localAttachment = .ok names) {path : Text} (hpath : path ∈ paths) :
    host.readable path = true := by
  induction paths generalizing names with
  | nil => cases hpath
  | cons first paths ih =>
      rw [List.mapM_cons] at h
      cases hfile : host.localAttachment first with
      | error message =>
          rw [hfile] at h
          cases h
      | ok name =>
          rw [hfile] at h
          rcases List.mem_cons.mp hpath with rfl | hrest
          · simp [Host.readable, hfile, Except.toBool]
          · cases hmap : paths.mapM host.localAttachment with
            | error message =>
                rw [hmap] at h
                cases h
            | ok names => exact ih hmap hrest

theorem promptSubmit_spec {before : World} {id : Text} (h : Ensured host before t id)
    (text : Text) (attachments : List (Option Text)) :
    Ends (promptSubmit host text attachments) (fun result u =>
      ((∃ status, result = .error (.rejected status)) ↔
        PromptRejected host id text attachments) ∧
      ∀ fault, result = .error fault → u.sessions = t.sessions) t := by
  unfold promptSubmit
  refine leads_bind.mpr ((ends_ensured h).mpr ?_)
  have hstart : ∀ (names : List Text) (u : World), u.sessions = t.sessions →
      attachments.length ≤ MAX_REMOTE_ATTACHMENTS →
      (uploadPaths attachments).mapM host.localAttachment = .ok names →
      (∀ path ∈ uploadPaths attachments, host.rejects (.upload id path) = none) →
      Ends (do
        let _ ← remoteRequest host (.start id (agentText text names) names)
        effect fun w => { w with
          conversation := { w.conversation with hasMessages := true } } : Bridge Unit)
        (fun result u => ((∃ status, result = .error (.rejected status)) ↔
          PromptRejected host id text attachments) ∧
          ∀ fault, result = .error fault → u.sessions = t.sessions) u := by
    intro names u hsame hlength hnames haccepted
    have hprompt : PromptRejected host id text attachments ↔
        (host.rejects (.start id (agentText text names) names)).isSome := by
      constructor
      · rintro ⟨-, hupload | ⟨names', hnames', hrejects⟩⟩
        · obtain ⟨path, hpath, hrejects⟩ := hupload
          rw [haccepted path ((List.takeWhile_sublist _).subset hpath)] at hrejects
          cases hrejects
        · rw [hnames] at hnames'
          obtain rfl := Except.ok.inj hnames'
          exact hrejects
      · exact fun hrejects => ⟨hlength, Or.inr ⟨names, hnames, hrejects⟩⟩
    refine leads_bind.mpr ?_
    cases hreject : host.rejects (.start id (agentText text names) names) with
    | some status =>
        refine (ends_rejected hreject).mpr ⟨iff_of_true ⟨status, rfl⟩ ?_, fun _ _ => hsame⟩
        rw [hprompt, hreject]
        rfl
    | none =>
        refine (ends_accepted hreject).mpr (leads_effect.mpr ⟨trivial, ?_, fun _ hfault => ?_⟩)
        · rw [hprompt, hreject]
          simp
        · cases hfault
  by_cases hempty : attachments = []
  · simp only [if_pos hempty]
    refine leads_bind.mpr (leads_pure.mpr (hstart [] t rfl ?_ ?_ ?_))
    · rw [hempty]
      exact Nat.zero_le _
    · rw [hempty]
      rfl
    · rw [hempty]
      intro path hpath
      cases hpath
  · simp only [if_neg hempty]
    refine leads_bind.mpr ?_
    unfold uploadAttachments
    by_cases hmany : MAX_REMOTE_ATTACHMENTS < attachments.length
    · rw [if_pos hmany]
      refine leads_fail.mpr ⟨iff_of_false (by simp) ?_, fun _ _ => rfl⟩
      exact fun hprompt => absurd hprompt.1 (Nat.not_le.mpr hmany)
    · rw [if_neg hmany]
      refine leads_bind.mpr (Leads.imp (uploads_spec id (uploadPaths attachments)) ?_)
      rintro (fault | names) u ⟨hsame, hrejected, hnames⟩
      · refine ⟨⟨fun hfault => ⟨Nat.not_lt.mp hmany, Or.inl ?_⟩, ?_⟩, fun _ _ => hsame⟩
        · obtain ⟨status, hstatus⟩ := hfault
          exact hrejected.mp ⟨status, congrArg _ (Except.error.inj hstatus)⟩
        · rintro ⟨-, hupload | ⟨names, hmap, -⟩⟩
          · exact (hrejected.mpr hupload).imp fun status hstatus =>
              congrArg _ (Except.error.inj hstatus)
          · -- every file can be read, so the uploads stopped at a rejected one
            have hstopped : ¬∀ path ∈ uploadPaths attachments,
                host.rejects (.upload id path) = none := fun hall =>
              absurd ((hnames names).mpr ⟨hmap, hall⟩) (by simp)
            simp only [not_forall] at hstopped
            obtain ⟨path, hpath, hreject⟩ := hstopped
            have hreadable : (uploadPaths attachments).takeWhile host.readable =
                uploadPaths attachments :=
              List.takeWhile_eq_self_iff.mpr fun other hother => readable_of_mapM hmap hother
            refine (hrejected.mpr ⟨path, hreadable.symm ▸ hpath, ?_⟩).imp fun status hstatus =>
              congrArg _ (Except.error.inj hstatus)
            exact Option.isSome_iff_ne_none.mpr hreject
      · obtain ⟨hmap, hall⟩ := (hnames names).mp rfl
        simp only [leads_ite]
        split_ifs
        · exact leads_pure.mpr (hstart names u hsame (Nat.not_lt.mp hmany) hmap hall)
        · refine leads_bind.mpr (leads_effect.mpr ⟨trivial, leads_pure.mpr ?_⟩)
          exact hstart names _ hsame (Nat.not_lt.mp hmany) hmap hall

theorem checkText_refused {params : EditParams} {fault : Fault}
    (h : params.checkText = .error fault) (status : ℕ) : fault ≠ .rejected status := by
  rintro rfl
  unfold EditParams.checkText at h
  split at h
  · cases h
  · split_ifs at h <;> cases h

theorem checkSource_refused {params : EditParams} {fault : Fault}
    (h : params.checkSource = .error fault) (status : ℕ) : fault ≠ .rejected status := by
  rintro rfl
  unfold EditParams.checkSource at h
  split at h
  · cases h
  · split_ifs at h
    cases h

/-- The edit of a message once its session is there. -/
theorem editMessage_ends {id : Text} (h : Ensured host w t id) (text : Text) (keep : ℕ)
    (attachments : List (Option Text)) :
    Ends (do
      let _ ← (remoteRequest host (.truncate id keep)).catching fun fault => do
        downgrade (fun contract => { contract with messageEditing := false }) fault
        fail fault
      updateContract fun contract => { contract with messageEditing := true }
      promptSubmit host text attachments : Bridge Unit) (fun result t =>
        ∀ status, result = .error (.rejected status) → Unharmed w.sessions t.sessions) t ↔
      (host.rejects (.truncate id keep) = none → PromptRejected host id text attachments →
        ∀ session, w.sessions.lookup id = some session → session.messages.length ≤ keep) := by
  rw [Ends, leads_bind, leads_catching]
  cases hreject : host.rejects (.truncate id keep) with
  | some status =>
      refine iff_of_true ((ends_rejected hreject).mpr (leads_bind.mpr
        (ends_downgrade fun contract => leads_fail.mpr fun _ _ => h.unharmed))) fun hnone => ?_
      cases hnone
  | none =>
      refine (ends_accepted hreject).trans ?_
      simp only [updateContract, leads_effect_bind, true_and, true_imp_iff]
      have hcut : Ensured host
          { w with sessions := Request.exec host.newId t.sessions (.truncate id keep) }
          { t with
            sessions := Request.exec host.newId t.sessions (.truncate id keep)
            contract := { t.contract with messageEditing := true } } id :=
        ⟨h.connected, h.named, h.session, h.mapped, Unharmed.refl _⟩
      obtain ⟨hrejected, hsame⟩ := ends_iff.mp (promptSubmit_spec hcut text attachments)
      refine ends_iff.trans ⟨fun hall hprompt => ?_, fun hall status hstatus => ?_⟩
      · obtain ⟨status, hstatus⟩ := hrejected.mpr hprompt
        have hend := hall status hstatus
        rw [hsame _ hstatus] at hend
        exact (unharmed_truncate h.unharmed id keep).mp hend
      · rw [hsame _ hstatus]
        exact (unharmed_truncate h.unharmed id keep).mpr (hall (hrejected.mp ⟨status, hstatus⟩))

/-- No message is cut off before a prompt that is rejected. -/
def EditHolds (host : Host) (params : EditParams) (w : World) : Prop :=
  ∀ text keep id, params.checkText = .ok text → params.checkSource = .ok keep →
    (ensureRemoteSession host).result w = .ok id →
    host.rejects (.truncate id keep) = none → PromptRejected host id text params.attachments →
    ∀ session, w.sessions.lookup id = some session → session.messages.length ≤ keep

theorem editMessage_whole_iff (hnew : ∀ sessions, host.newId sessions ∉ Dict.keys sessions)
    (params : EditParams) (w : World) :
    Whole (editMessage host params) w ↔ EditHolds host params w := by
  rw [whole_iff]
  unfold editMessage EditHolds
  rw [Ends, leads_bind, leads_ofExcept]
  cases htext : params.checkText with
  | error fault =>
      refine iff_of_true (fun status hstatus => ?_) fun _ _ _ h => by cases h
      exact absurd (Except.error.inj hstatus) (checkText_refused htext status)
  | ok text =>
      simp only
      rw [leads_bind, leads_ofExcept]
      cases hsource : params.checkSource with
      | error fault =>
          refine iff_of_true (fun status hstatus => ?_) fun _ _ _ _ h => by cases h
          exact absurd (Except.error.inj hstatus) (checkSource_refused hsource status)
      | ok keep =>
          refine ends_bind.trans ?_
          obtain ⟨hok, hrejected⟩ := ends_iff.mp (@ensureRemoteSession_spec host w hnew)
          cases hid : (ensureRemoteSession host).result w with
          | error fault =>
              refine iff_of_true ⟨fun _ h => (by cases h), fun _ hfault status hstatus => ?_⟩
                fun _ _ _ _ _ h => by cases h
              obtain rfl := Except.error.inj hfault
              obtain rfl := Except.error.inj hstatus
              rw [hrejected status hid]
              exact Unharmed.refl _
          | ok id =>
              have hensured := hok id hid
              have hend := @editMessage_ends host w _ id hensured text keep params.attachments
              constructor
              · rintro ⟨hnext, -⟩ text' keep' id' htext' hsource' hid'
                obtain rfl := Except.ok.inj htext'
                obtain rfl := Except.ok.inj hsource'
                obtain rfl := Except.ok.inj hid'
                exact hend.mp (hnext id rfl)
              · intro hholds
                refine ⟨fun id' hid' => ?_, fun _ h => (by cases h)⟩
                obtain rfl := Except.ok.inj hid'
                exact hend.mpr (hholds text keep id rfl rfl rfl)

/-! ### Branching -/

/-- The server does the duplicating itself. -/
def NativeMade (host : Host) (t : World) (id : Text) (keep : Option ℕ) (title : Option Text) :
    Prop :=
  t.contract.nativeBranches = true ∧ host.rejects (.branch id keep title) = none

/-- The bridge duplicates: the server cannot branch, and takes what the bridge
does to the duplicate. -/
def DuplicateMade (host : Host) (t : World) (id : Text) (keep : Option ℕ) (title : Option Text) :
    Prop :=
  (t.contract.nativeBranches = false ∨ ∃ status,
      host.rejects (.branch id keep title) = some status ∧ unsupported status = true) ∧
    t.contract.duplicateSessions = true ∧ t.contract.messageEditing = true ∧
    host.rejects (.duplicate id) = none ∧
    (∀ count, keep = some count →
      host.rejects (.truncate (host.newId t.sessions) count) = none) ∧
    host.rejects (.rename (host.newId t.sessions) (branchTitle title t.conversation)) = none

/-- The new branch is there when it is to be read. -/
def BranchMade (host : Host) (t : World) (id : Text) (keep : Option ℕ) (title : Option Text) :
    Prop :=
  isConversationId (host.newId t.sessions) = true ∧
    (NativeMade host t id keep title ∨ DuplicateMade host t id keep title)

theorem check_refused {params : BranchParams} {fault : Fault} (h : params.check = .error fault)
    (status : ℕ) : fault ≠ .rejected status := by
  rintro rfl
  unfold BranchParams.check at h
  split at h
  · cases h
  · cases h
  · split_ifs at h
    cases h

/-- The server holds a new branch. -/
structure Branched (host : Host) (t u : World) (branch : Text) : Prop where
  named : branch = host.newId t.sessions
  held : ∃ session, u.sessions.lookup branch = some session ∧ session.branch = true

theorem branched_unharmed {u v : World} (h : Branched host t u (host.newId t.sessions))
    (hnew : ∀ sessions, host.newId sessions ∉ Dict.keys sessions)
    (hunharmed : Unharmed w.sessions t.sessions) (hsame : v.sessions = u.sessions) :
    ¬Unharmed w.sessions v.sessions := by
  intro hwhole
  obtain ⟨session, hsession, hbranch⟩ := h.held
  rw [hsame] at hwhole
  exact hnew t.sessions (hunharmed.keys (hwhole.branches _ session hsession hbranch))

theorem nativeBranch_spec (id : Text) (keep : Option ℕ) (title : Option Text) :
    Ends (nativeBranch host id keep title) (fun result u =>
      (∀ branch, result = .ok (some branch) →
        Branched host t u branch ∧ NativeMade host t id keep title) ∧
      (result = .ok none → u.sessions = t.sessions ∧ u.conversation = t.conversation ∧
        u.contract.duplicateSessions = t.contract.duplicateSessions ∧
        u.contract.messageEditing = t.contract.messageEditing ∧
        (t.contract.nativeBranches = false ∨ ∃ status,
          host.rejects (.branch id keep title) = some status ∧ unsupported status = true)) ∧
      ∀ fault, result = .error fault → u.sessions = t.sessions ∧
        ∃ status, host.rejects (.branch id keep title) = some status ∧
          unsupported status = false ∧ t.contract.nativeBranches = true) t := by
  unfold nativeBranch
  refine leads_look_bind.mpr ?_
  split_ifs with hnative
  · exact leads_pure.mpr ⟨fun _ h => (by cases h),
      fun _ => ⟨rfl, rfl, rfl, rfl, Or.inl hnative⟩, fun _ h => (by cases h)⟩
  have hnative' : t.contract.nativeBranches = true := by simpa using hnative
  refine leads_catching.mpr (leads_bind.mpr ?_)
  cases hreject : host.rejects (.branch id keep title) with
  | some status =>
      refine (ends_rejected hreject).mpr ?_
      simp only [leads_ite]
      split_ifs with hunsupported
      · refine leads_bind.mpr (leads_effect.mpr ⟨trivial, leads_pure.mpr ?_⟩)
        exact ⟨fun _ h => (by cases h),
          fun _ => ⟨rfl, rfl, rfl, rfl, Or.inr ⟨status, rfl, hunsupported⟩⟩,
          fun _ h => (by cases h)⟩
      · exact leads_fail.mpr ⟨fun _ h => (by cases h), fun h => (by cases h),
          fun _ _ => ⟨rfl, status, rfl, Bool.eq_false_iff.mpr hunsupported, hnative'⟩⟩
  | none =>
      refine (ends_accepted hreject).mpr (leads_pure.mpr ⟨fun branch h => ?_, fun h => (by cases h),
        fun _ h => (by cases h)⟩)
      obtain rfl := Option.some.inj (Except.ok.inj h)
      refine ⟨⟨rfl, _, Dict.lookup_set.trans (if_pos rfl), ?_⟩, hnative', hreject⟩
      rfl

/-- The server takes what the bridge does to a duplicate. -/
def ShapeAccepted (host : Host) (branch : Text) (keep : Option ℕ) (title : Text) : Prop :=
  (∀ count, keep = some count → host.rejects (.truncate branch count) = none) ∧
    host.rejects (.rename branch title) = none

/-- The duplicate is still there, and nothing else changed. -/
structure Shaping (t u : World) (branch : Text) : Prop where
  held : ∀ session, t.sessions.lookup branch = some session →
    ∃ shaped, u.sessions.lookup branch = some shaped ∧ shaped.branch = session.branch
  others : ∀ asked, asked ≠ branch → u.sessions.lookup asked = t.sessions.lookup asked

theorem Shaping.update {u : World} {branch : Text} (h : Shaping t u branch)
    {change : Session → Session} (hchange : ∀ session, (change session).branch = session.branch) :
    Shaping t { u with sessions := u.sessions.update branch change } branch where
  held := by
    intro session hsession
    obtain ⟨shaped, hshaped, hbranch⟩ := h.held session hsession
    refine ⟨change shaped, ?_, (hchange shaped).trans hbranch⟩
    refine lookup_update.trans ?_
    rw [if_pos rfl, hshaped]
    rfl
  others := by
    intro asked hasked
    refine lookup_update.trans ?_
    rw [if_neg hasked, h.others asked hasked]
    cases t.sessions.lookup asked <;> rfl

theorem rename_spec {u : World} {branch title : Text} (h : Shaping t u branch) :
    Ends (do
      let _ ← remoteRequest host (.rename branch title)
      pure () : Bridge Unit) (fun result v =>
        (result = .ok () ↔ host.rejects (.rename branch title) = none) ∧ Shaping t v branch) u := by
  refine leads_bind.mpr ?_
  rcases Option.eq_none_or_eq_some (host.rejects (.rename branch title)) with
    hnone | ⟨status, hsome⟩
  · have hrenamed := @Shaping.update t u branch h
      (fun session => { session with title := title }) fun _ => rfl
    exact (ends_accepted hnone).mpr (leads_pure.mpr ⟨iff_of_true rfl hnone, hrenamed⟩)
  · exact (ends_rejected hsome).mpr ⟨iff_of_false (by simp) (by simp [hsome]), h⟩

/-- A duplicate is shaped, or taken back. -/
theorem shapeDuplicate_spec (hdelete : ∀ id, host.rejects (.delete id) = none) (branch : Text)
    (keep : Option ℕ) (title : Text) :
    Ends (shapeDuplicate host branch keep title) (fun result v =>
      (result = .ok () ↔ ShapeAccepted host branch keep title) ∧
      (result = .ok () → Shaping t v branch) ∧
      ∀ fault, result = .error fault → ∀ asked, v.sessions.lookup asked =
        if asked = branch then none else t.sessions.lookup asked) t := by
  have hstart : Shaping t t branch := ⟨fun session h => ⟨session, h, rfl⟩, fun _ _ => rfl⟩
  unfold shapeDuplicate
  refine leads_catching.mpr (@Leads.imp _ _ _ _
    (fun result u => (result = .ok () ↔ ShapeAccepted host branch keep title) ∧ Shaping t u branch)
    _ _ ?_ _ ?_)
  · cases keep with
    | none =>
        refine Leads.imp (rename_spec hstart) ?_
        rintro result v ⟨hresult, hshaping⟩
        exact ⟨hresult.trans (and_iff_right fun _ h => by cases h).symm, hshaping⟩
    | some count =>
        refine leads_bind.mpr ?_
        rcases Option.eq_none_or_eq_some (host.rejects (.truncate branch count)) with
          hnone | ⟨status, hsome⟩
        · have hcut := @Shaping.update t t branch hstart
            (fun session => { session with messages := session.messages.take count }) fun _ => rfl
          refine (ends_accepted hnone).mpr (Leads.imp (rename_spec hcut) ?_)
          rintro result v ⟨hresult, hshaping⟩
          refine ⟨hresult.trans (and_iff_right fun count' hcount => ?_).symm, hshaping⟩
          obtain rfl := Option.some.inj hcount
          exact hnone
        · refine (ends_rejected hsome).mpr ⟨iff_of_false (by simp) fun hall => ?_, hstart⟩
          have hnone := hall.1 count rfl
          rw [hsome] at hnone
          cases hnone
  · rintro (fault | value) u ⟨hresult, hshaping⟩
    · refine leads_bind.mpr (leads_catching.mpr (leads_bind.mpr
        ((ends_accepted (hdelete branch)).mpr (leads_pure.mpr (leads_fail.mpr ?_)))))
      refine ⟨iff_of_false (by simp) fun hall => ?_, fun h => (by cases h), fun _ _ asked => ?_⟩
      · cases hresult.mpr hall
      · refine Dict.lookup_pop.trans ?_
        split_ifs with hasked
        · rfl
        · exact hshaping.others asked hasked
    · exact ⟨hresult, fun _ => hshaping, fun _ h => by cases h⟩

/-- The server takes the duplicate and what is done to it. -/
def DuplicateAccepted (host : Host) (t : World) (id : Text) (keep : Option ℕ)
    (title : Option Text) : Prop :=
  t.contract.duplicateSessions = true ∧ t.contract.messageEditing = true ∧
    host.rejects (.duplicate id) = none ∧
    ShapeAccepted host (host.newId t.sessions) keep (branchTitle title t.conversation)

theorem duplicateBranch_spec (hdelete : ∀ id, host.rejects (.delete id) = none)
    (hnew : ∀ sessions, host.newId sessions ∉ Dict.keys sessions) (id : Text) (keep : Option ℕ)
    (title : Option Text) :
    Ends (duplicateBranch host id keep title) (fun result v =>
      (∀ branch, result = .ok branch → Branched host t v branch ∧
        DuplicateAccepted host t id keep title) ∧
      (DuplicateAccepted host t id keep title →
        isConversationId (host.newId t.sessions) = true → ∃ branch, result = .ok branch) ∧
      ∀ status, result = .error (.rejected status) →
        ∀ asked, v.sessions.lookup asked = t.sessions.lookup asked) t := by
  unfold duplicateBranch
  refine leads_look_bind.mpr ?_
  split_ifs with hmissing
  · refine leads_bind.mpr (leads_effect.mpr ⟨trivial, leads_fail.mpr ?_⟩)
    refine ⟨fun _ h => (by cases h), fun haccepted => ?_, fun _ h => (by cases h)⟩
    obtain ⟨hduplicate, hediting, -⟩ := haccepted
    rw [hduplicate, hediting] at hmissing
    simp at hmissing
  have hable : t.contract.duplicateSessions = true ∧ t.contract.messageEditing = true := by
    simpa using hmissing
  refine leads_bind.mpr (leads_catching.mpr ?_)
  rcases Option.eq_none_or_eq_some (host.rejects (.duplicate id)) with hnone | ⟨status, hsome⟩
  · refine (ends_accepted hnone).mpr ?_
    simp only [leads_ite]
    split_ifs with hinvalid
    · refine leads_fail.mpr ⟨fun _ h => (by cases h), fun _ hvalid => ?_, fun _ h => (by cases h)⟩
      exact absurd (hinvalid.symm.trans hvalid) Bool.false_ne_true
    · refine leads_look_bind.mpr (leads_bind.mpr (Leads.imp
        (shapeDuplicate_spec hdelete (host.newId t.sessions) keep _) ?_))
      rintro (fault | value) v ⟨hresult, hshaping, hundone⟩
      · refine ⟨fun _ h => (by cases h), fun haccepted _ => ?_, fun status hstatus asked => ?_⟩
        · cases hresult.mpr haccepted.2.2.2
        · refine (hundone fault rfl asked).trans ?_
          split_ifs with hasked
          · rw [hasked]
            exact (Dict.lookup_eq_none.mpr (hnew t.sessions)).symm
          · exact Dict.lookup_set.trans (if_neg hasked)
      · refine leads_pure.mpr ⟨fun branch h => ?_, fun _ _ => ⟨_, rfl⟩, fun _ h => (by cases h)⟩
        obtain rfl := Except.ok.inj h
        obtain ⟨shaped, hshaped, hbranch⟩ := (hshaping rfl).held (t.sessions.copy id)
          (Dict.lookup_set.trans (if_pos rfl))
        exact ⟨⟨rfl, shaped, hshaped, hbranch⟩, hable.1, hable.2, hnone, hresult.mp rfl⟩
  · refine (ends_rejected hsome).mpr (leads_bind.mpr (ends_downgrade fun contract =>
      leads_fail.mpr ⟨fun _ h => (by cases h), fun haccepted => ?_, fun _ _ _ => rfl⟩))
    have hnone := haccepted.2.2.1
    rw [hsome] at hnone
    cases hnone

/-- A branch that was made can be read. -/
def BranchHolds (host : Host) (params : BranchParams) (w : World) : Prop :=
  ∀ id keep, (ensureRemoteSession host).result w = .ok id → params.check = .ok keep →
    BranchMade host ((ensureRemoteSession host).last w) id keep params.bodyTitle →
    host.rejects (.read (host.newId ((ensureRemoteSession host).last w).sessions)) = none

/-- The last request of a branch. -/
theorem readBranch_ends {u : World} (hbranched : Branched host t u (host.newId t.sessions))
    (hnew : ∀ sessions, host.newId sessions ∉ Dict.keys sessions)
    (hunharmed : Unharmed w.sessions t.sessions) {made : Prop}
    (hmade : made ↔ isConversationId (host.newId t.sessions) = true) :
    Ends (if isConversationId (host.newId t.sessions) = false then fail invalidBranch
      else do
        let _ ← remoteRequest host (.read (host.newId t.sessions))
        updateContract fun contract => { contract with branches := true }
        pure (host.newId t.sessions) : Bridge Text) (fun result v =>
          ∀ status, result = .error (.rejected status) → Unharmed w.sessions v.sessions) u ↔
      (made → host.rejects (.read (host.newId t.sessions)) = none) := by
  rw [hmade]
  split_ifs with hinvalid
  · refine iff_of_true (leads_fail.mpr fun _ h => (by cases h)) fun hvalid => ?_
    exact absurd (hinvalid.symm.trans hvalid) Bool.false_ne_true
  have hvalid : isConversationId (host.newId t.sessions) = true := by simpa using hinvalid
  rw [Ends, leads_bind]
  rcases Option.eq_none_or_eq_some (host.rejects (.read (host.newId t.sessions))) with
    hnone | ⟨status, hsome⟩
  · refine iff_of_true ((ends_accepted hnone).mpr ?_) fun _ => hnone
    exact leads_bind.mpr (leads_effect.mpr ⟨trivial, leads_pure.mpr fun _ h => (by cases h)⟩)
  · refine iff_of_false (fun hends => ?_) fun hread => ?_
    · exact branched_unharmed hbranched hnew hunharmed rfl ((ends_rejected hsome).mp hends status rfl)
    · rw [hsome] at hread
      cases hread hvalid

theorem branchMade_iff_native {id : Text} {keep : Option ℕ} {title : Option Text}
    (h : NativeMade host t id keep title) :
    BranchMade host t id keep title ↔ isConversationId (host.newId t.sessions) = true :=
  and_iff_left (Or.inl h)

/-- Once the server was found unable to branch, the branch is what the bridge
makes of a duplicate. -/
theorem branchMade_iff_duplicate {id : Text} {keep : Option ℕ} {title : Option Text}
    (h : t.contract.nativeBranches = false ∨ ∃ status,
      host.rejects (.branch id keep title) = some status ∧ unsupported status = true) :
    BranchMade host t id keep title ↔ isConversationId (host.newId t.sessions) = true ∧
      DuplicateAccepted host t id keep title := by
  refine and_congr_right fun _ => ⟨?_, fun haccepted => Or.inr ⟨h, haccepted⟩⟩
  rintro (⟨hnative, hnone⟩ | ⟨-, haccepted⟩)
  · rcases h with hoff | ⟨status, hsome, -⟩
    · exact absurd (hoff.symm.trans hnative) Bool.false_ne_true
    · rw [hsome] at hnone
      cases hnone
  · exact haccepted

theorem DuplicateAccepted.congr {u : World} {id : Text} {keep : Option ℕ} {title : Option Text}
    (hsessions : u.sessions = t.sessions) (hconversation : u.conversation = t.conversation)
    (hduplicate : u.contract.duplicateSessions = t.contract.duplicateSessions)
    (hediting : u.contract.messageEditing = t.contract.messageEditing) :
    DuplicateAccepted host u id keep title ↔ DuplicateAccepted host t id keep title := by
  unfold DuplicateAccepted
  rw [hsessions, hconversation, hduplicate, hediting]

/-- A branch once its session is there. -/
theorem branchConversation_ends (hdelete : ∀ id, host.rejects (.delete id) = none)
    (hnew : ∀ sessions, host.newId sessions ∉ Dict.keys sessions)
    (hunharmed : Unharmed w.sessions t.sessions) (id : Text) (keep : Option ℕ)
    (title : Option Text) :
    Ends (do
      let native ← nativeBranch host id keep title
      let branch ← orDuplicate host id keep title native
      if isConversationId branch = false then fail invalidBranch
      else do
        let _ ← remoteRequest host (.read branch)
        updateContract fun contract => { contract with branches := true }
        pure branch : Bridge Text) (fun result v =>
          ∀ status, result = .error (.rejected status) → Unharmed w.sessions v.sessions) t ↔
      (BranchMade host t id keep title → host.rejects (.read (host.newId t.sessions)) = none) := by
  refine ends_bind.trans ?_
  obtain ⟨hbranch, hnone, herror⟩ := ends_iff.mp (@nativeBranch_spec host t id keep title)
  cases hnative : (nativeBranch host id keep title).result t with
  | error fault =>
      obtain ⟨hsame, status, hsome, hsupported, hon⟩ := herror fault hnative
      refine iff_of_true ⟨fun _ h => (by cases h), fun _ _ _ _ => hsame.symm ▸ hunharmed⟩ ?_
      rintro ⟨-, ⟨-, hreject⟩ | ⟨hoff | ⟨status', hsome', hunsupported⟩, -⟩⟩
      · rw [hsome] at hreject
        cases hreject
      · exact absurd (hoff.symm.trans hon) Bool.false_ne_true
      · obtain rfl := Option.some.inj (hsome.symm.trans hsome')
        exact absurd (hsupported.symm.trans hunsupported) Bool.false_ne_true
  | ok native =>
      cases native with
      | some branch =>
          obtain ⟨hbranched, hmade⟩ := hbranch branch hnative
          obtain rfl := hbranched.named
          have hread := readBranch_ends hbranched hnew hunharmed (branchMade_iff_native hmade)
          refine ⟨fun h => hread.mp (h.1 _ rfl), fun h => ⟨fun native hsame => ?_,
            fun _ hfault => (by cases hfault)⟩⟩
          obtain rfl := Except.ok.inj hsame
          exact hread.mpr h
      | none =>
          obtain ⟨hsessions, hconversation, hduplicate, hediting, hable⟩ := hnone hnative
          have haccepted := @DuplicateAccepted.congr host t _ id keep title hsessions
            hconversation hduplicate hediting
          have hmade := branchMade_iff_duplicate hable
          obtain ⟨hok, hall, hrejected⟩ := ends_iff.mp (@duplicateBranch_spec host
            ((nativeBranch host id keep title).last t) hdelete hnew id keep title)
          rw [haccepted, hsessions] at hall
          have hrest : Ends (duplicateBranch host id keep title >>= fun branch =>
              (if isConversationId branch = false then fail invalidBranch
              else do
                let _ ← remoteRequest host (.read branch)
                updateContract fun contract => { contract with branches := true }
                pure branch : Bridge Text)) (fun result v =>
                  ∀ status, result = .error (.rejected status) →
                    Unharmed w.sessions v.sessions)
                ((nativeBranch host id keep title).last t) ↔
              (BranchMade host t id keep title →
                host.rejects (.read (host.newId t.sessions)) = none) := by
            refine ends_bind.trans ?_
            cases hduplicated : (duplicateBranch host id keep title).result
              ((nativeBranch host id keep title).last t) with
            | error fault =>
                refine iff_of_true ⟨fun _ h => (by cases h), fun _ hfault status hstatus => ?_⟩
                  fun hbranch => ?_
                · obtain rfl := Except.error.inj hfault
                  obtain rfl := Except.error.inj hstatus
                  refine hunharmed.congr fun asked => (hrejected status hduplicated asked).trans ?_
                  rw [hsessions]
                · obtain ⟨hvalid, hdone⟩ := hmade.mp hbranch
                  obtain ⟨branch, hsome⟩ := hall hdone hvalid
                  rw [hduplicated] at hsome
                  cases hsome
            | ok branch =>
                obtain ⟨hbranched, hdone⟩ := hok branch hduplicated
                have hbranched' : Branched host t ((duplicateBranch host id keep title).last
                    ((nativeBranch host id keep title).last t)) branch :=
                  ⟨hbranched.named.trans (congrArg _ hsessions), hbranched.held⟩
                obtain rfl := hbranched'.named
                have hread := readBranch_ends hbranched' hnew hunharmed
                  (hmade.trans (and_iff_left (haccepted.mp hdone)))
                refine ⟨fun h => hread.mp (h.1 _ rfl), fun h => ⟨fun branch hsame => ?_,
                  fun _ hfault => (by cases hfault)⟩⟩
                obtain rfl := Except.ok.inj hsame
                exact hread.mpr h
          refine ⟨fun h => hrest.mp (h.1 _ rfl), fun h => ⟨fun native hsame => ?_,
            fun _ hfault => (by cases hfault)⟩⟩
          obtain rfl := Except.ok.inj hsame
          exact hrest.mpr h

theorem branchConversation_whole_iff (hdelete : ∀ id, host.rejects (.delete id) = none)
    (hnew : ∀ sessions, host.newId sessions ∉ Dict.keys sessions) (params : BranchParams)
    (w : World) : Whole (branchConversation host params) w ↔ BranchHolds host params w := by
  rw [whole_iff]
  unfold branchConversation BranchHolds
  refine ends_bind.trans ?_
  obtain ⟨hok, hrejected⟩ := ends_iff.mp (@ensureRemoteSession_spec host w hnew)
  cases hid : (ensureRemoteSession host).result w with
  | error fault =>
      refine iff_of_true ⟨fun _ h => (by cases h), fun _ hfault status hstatus => ?_⟩
        fun _ _ h => by cases h
      obtain rfl := Except.error.inj hfault
      obtain rfl := Except.error.inj hstatus
      rw [hrejected status hid]
      exact Unharmed.refl _
  | ok id =>
      have hensured := hok id hid
      have hnext : Ends (do
          let keep ← Program.ofExcept params.check
          let native ← nativeBranch host id keep params.bodyTitle
          let branch ← orDuplicate host id keep params.bodyTitle native
          if isConversationId branch = false then fail invalidBranch
          else do
            let _ ← remoteRequest host (.read branch)
            updateContract fun contract => { contract with branches := true }
            pure branch : Bridge Text) (fun result v =>
              ∀ status, result = .error (.rejected status) → Unharmed w.sessions v.sessions)
            ((ensureRemoteSession host).last w) ↔
          ∀ keep, params.check = .ok keep →
            BranchMade host ((ensureRemoteSession host).last w) id keep params.bodyTitle →
            host.rejects (.read (host.newId ((ensureRemoteSession host).last w).sessions)) =
              none := by
        rw [Ends, leads_bind, leads_ofExcept]
        cases hkeep : params.check with
        | error fault =>
            refine iff_of_true (fun status hstatus => ?_) fun _ h => by cases h
            exact absurd (Except.error.inj hstatus) (check_refused hkeep status)
        | ok keep =>
            refine (branchConversation_ends hdelete hnew hensured.unharmed id keep
              params.bodyTitle).trans ⟨fun h keep' hsame => ?_, fun h => h keep rfl⟩
            obtain rfl := Except.ok.inj hsame
            exact h
      constructor
      · rintro ⟨hall, -⟩ id' keep hid' hkeep
        obtain rfl := Except.ok.inj hid'
        exact hnext.mp (hall id rfl) keep hkeep
      · refine fun hall => ⟨fun id' hid' => ?_, fun _ h => (by cases h)⟩
        obtain rfl := Except.ok.inj hid'
        exact hnext.mpr fun keep hkeep => hall id keep rfl hkeep

/-- An edit or a branch that the server rejects leaves it unharmed, unless a
message was cut off before, or the new branch is there and cannot be read. -/
theorem remoteEdits_whole_iff (hdelete : ∀ id, host.rejects (.delete id) = none)
    (hnew : ∀ sessions, host.newId sessions ∉ Dict.keys sessions) (edit : EditParams)
    (branch : BranchParams) (w : World) :
    (Whole (editMessage host edit) w ↔ EditHolds host edit w) ∧
      (Whole (branchConversation host branch) w ↔ BranchHolds host branch w) :=
  ⟨editMessage_whole_iff hnew edit w, branchConversation_whole_iff hdelete hnew branch w⟩

/-! ### A server that is busy -/

/-- A name longer than all that there are. -/
def longerId (sessions : Sessions) : Text :=
  List.replicate ((Dict.keys sessions).map List.length).sum.succ 97

theorem longerId_new (sessions : Sessions) : longerId sessions ∉ Dict.keys sessions := by
  intro hmem
  have hle := List.single_le_sum (fun _ _ => Nat.zero_le _) _
    (List.mem_map_of_mem (f := List.length) hmem)
  rw [longerId, List.length_replicate] at hle
  exact absurd hle (Nat.not_succ_le_self _)

/-- It takes every request but new prompts and reading the branch. -/
def busy : Host where
  connected := true
  rejects
    | .start _ _ _ => some 503
    | .read _ => some 503
    | _ => none
  newId := longerId
  localAttachment := fun _ => .error (ascii "Attachment could not be opened")

/-- A conversation of two messages on a server that branches itself. -/
def twoMessages : World where
  sessions := [(ascii "s", ⟨ascii "Chat", [ascii "Hi", ascii "Hello"], false⟩)]
  contract := ⟨true, true, true, true, true⟩
  conversation := ⟨ascii "s", true, true, ascii "Chat"⟩

/-- The first message is edited: both are gone, and the new one is not there. -/
theorem twoMessages_lost :
    (editMessage busy ⟨some (ascii "Hey"), some 0, []⟩).result twoMessages =
        .error (.rejected 503) ∧
      ((editMessage busy ⟨some (ascii "Hey"), some 0, []⟩).last twoMessages).sessions =
        [(ascii "s", ⟨ascii "Chat", [], false⟩)] ∧
      (branchConversation busy ⟨none, none⟩).result twoMessages = .error (.rejected 503) ∧
      ((branchConversation busy ⟨none, none⟩).last twoMessages).sessions =
        [(ascii "s", ⟨ascii "Chat", [ascii "Hi", ascii "Hello"], false⟩),
          (ascii "aa", ⟨ascii "Chat", [ascii "Hi", ascii "Hello"], true⟩)] := by
  decide +kernel

theorem remoteEdits_whole_iff_busy :
    Whole (editMessage busy ⟨some (ascii "Hey"), some 2, []⟩) twoMessages := by
  refine (remoteEdits_whole_iff (fun _ => rfl) longerId_new _ ⟨none, none⟩ twoMessages).1.mpr ?_
  intro text keep id htext hsource hid _ _ session hsession
  obtain rfl := Except.ok.inj hsource
  have hone : ∀ item ∈ twoMessages.sessions, item.2.messages.length ≤ 2 := by decide +kernel
  exact hone _ (Dict.mem_of_lookup hsession)

end RemoteEdit

end Hermes

end CybexOS
