/-
The runs of one boot: what SDDM is left with whenever they are killed, whom they log in
automatically, and how often.
-/
import CybexOS.Login.Prepare
import CybexOS.Login.RootSound

namespace CybexOS

namespace Login

open Displays.Py (isSpace)
open Json (PyValue)
open Regex (findAll)
open Words (words)
open Program (leads_bind leads_ofExcept leads_pure leads_fail leads_effect leads_look
  leads_look_bind leads_effect_bind leads_catching)

section

variable {python : Python} {uid : ℕ} {met : Met} {user : Text} {s t : Boot}

/-! ### What a policy promises -/

/-- A file that only its owner can have written. -/
def Trusted (uid : ℕ) (file : File) (text : Text) : Prop :=
  file.text = .ok text ∧ ∃ info, file.lstat = .ok info ∧ info.regular = true ∧ info.uid = uid ∧
    has info.mode WRITABLE = false

/-- The account is a regular one. -/
def Installed (python : Python) (passwd user : Text) : Prop :=
  ∃ password number group gecos home shell,
    [user, password, number, group, gecos, home, shell] ∈ rowsOf passwd ∧
      ∃ id, python.int number = some id ∧ 1000 ≤ id ∧ id < 65534

/-- The live system's account, on a system that was booted live. -/
structure Live (uid : ℕ) (met : Met) (user : Text) : Prop where
  marked : ∃ text, Trusted uid met.live text ∧ trimWith isSpace text = user
  liveuser : user = ascii "liveuser"
  booted : ∃ cmdline, met.cmdline = .ok cmdline ∧ ∃ part ∈ words isSpace cmdline, part ∈ LIVE

/-- The devices of a member, as `lsblk` reports them. -/
def treeOf (python : Python) (devices : Devices) (member : Text) : Except Exc PyValue := do
  let output ← devices.lsblk member
  let value ← parse python output
  item value "blockdevices"

/-- The members that a Btrfs report lists: each device that a line declares, and as many
different ones as its total. -/
structure Reported (python : Python) (output : Text) (members : List Text) : Prop where
  declared : ∀ line device, IsLine output line → declared line = some device → device ∈ members
  total : ∃ total, findAll TOTAL output = [total] ∧ members.length = decimal (totalOf total)
  nodup : members.Nodup
  missing : contains (ascii "missing") (python.lower output) = false

/-- The member devices of the root: its own device, or all that a complete report lists. -/
inductive Members (python : Python) (devices : Devices) (device : Text) : PyValue → List Text → Prop
  | plain (fstype : PyValue) (h : isText fstype "btrfs" = false) :
      Members python devices device fstype [device]
  | btrfs (fstype : PyValue) (h : isText fstype "btrfs" = true) (output : Text)
      (members : List Text) (houtput : devices.btrfs = .ok output)
      (hreported : Reported python output members) :
      Members python devices device fstype members

/-- What `findmnt` reports of the root. -/
structure RootMount (python : Python) (devices : Devices) (mount : PyValue) : Prop where
  only : ∃ output value mounts, devices.findmnt = .ok output ∧ parse python output = .ok value ∧
    item value "filesystems" = .ok mounts ∧ onlyOf mounts = .ok (some mount)
  target : ∃ target, item mount "target" = .ok target ∧ isText target "/" = true

/-- Each path of devices below each member of the root passes through a mapping. -/
def RootMapped (python : Python) (devices : Devices) : Prop :=
  ∃ mount source device fstype members, RootMount python devices mount ∧
    item mount "source" = .ok source ∧ deviceOf source = .ok device ∧
    item mount "fstype" = .ok fstype ∧ Members python devices device fstype members ∧
    ∀ member ∈ members, ∃ nodes, treeOf python devices member = .ok (.arr nodes) ∧ nodes ≠ [] ∧
      ∀ path, IsPath nodes path → ∃ node ∈ path, isCrypt node = true

/-- The user may be logged in without a password. -/
structure Entitled (python : Python) (uid : ℕ) (met : Met) (user : Text) : Prop where
  policy : ∃ text fields, Trusted uid met.login text ∧ python.loads text = some (.obj fields) ∧
    fields.lookup (ascii "version") = some (.num (.int 1)) ∧
    fields.lookup (ascii "user") = some (.str user) ∧
    fields.lookup (ascii "autologin") = some (.bool true)
  name : validOwner user = true
  account : ∃ passwd, met.passwd = .ok passwd ∧ Installed python passwd user
  root : Live uid met user ∨ RootMapped python met.devices

theorem trusted_of_trustedFile {file : File} {text : Text} (h : trustedFile file uid = .ok text) :
    Trusted uid file text := by
  unfold trustedFile at h
  obtain ⟨info, hinfo, h⟩ := bind_eq_ok.mp h
  split_ifs at h with hunsafe
  simp only [not_or, not_not, Bool.not_eq_false, Bool.not_eq_true] at hunsafe
  exact ⟨h, info, hinfo, hunsafe⟩

theorem installed_of_ok {rows : List (List Text)} (h : installed python user rows = .ok true) :
    ∃ password number group gecos home shell,
      [user, password, number, group, gecos, home, shell] ∈ rows ∧
        ∃ id, python.int number = some id ∧ 1000 ≤ id ∧ id < 65534 := by
  induction rows using installed.induct python user with
  | case1 =>
      unfold installed at h
      cases h
  | case2 password number group gecos home shell rows hint =>
      unfold installed at h
      rw [if_pos rfl, hint] at h
      cases h
  | case3 password number group gecos home shell rows id hint hrange =>
      exact ⟨password, number, group, gecos, home, shell, List.mem_cons_self, id, hint, hrange⟩
  | case4 password number group gecos home shell rows id hint hrange ih =>
      unfold installed at h
      rw [if_pos rfl, hint] at h
      dsimp only at h
      rw [if_neg hrange] at h
      obtain ⟨password, number, group, gecos, home, shell, hrow, hid⟩ := ih h
      exact ⟨password, number, group, gecos, home, shell, List.mem_cons_of_mem _ hrow, hid⟩
  | case5 name password number group gecos home shell rows hname ih =>
      unfold installed at h
      rw [if_neg hname] at h
      obtain ⟨password, number, group, gecos, home, shell, hrow, hid⟩ := ih h
      exact ⟨password, number, group, gecos, home, shell, List.mem_cons_of_mem _ hrow, hid⟩
  | case6 row rows hrow ih =>
      rw [installed] at h
      · obtain ⟨password, number, group, gecos, home, shell, hrow, hid⟩ := ih h
        exact ⟨password, number, group, gecos, home, shell, List.mem_cons_of_mem _ hrow, hid⟩
      · exact hrow

theorem flagOf_eq_ok {value : Option PyValue} {flag : Bool} (h : flagOf value = .ok flag) :
    value = some (.bool flag) := by
  unfold flagOf at h
  split at h
  · rw [Except.ok.inj h]
  · cases h

theorem ownerOf_eq_ok {value : Option PyValue} (h : ownerOf value = .ok user) :
    value = some (.str user) ∧ validOwner user = true := by
  unfold ownerOf at h
  split at h
  · split_ifs at h with hvalid
    rw [← Except.ok.inj h]
    exact ⟨rfl, hvalid⟩
  · cases h

theorem isFirstVersion_iff {value : Option PyValue} (h : isFirstVersion value = true) :
    value = some (.num (.int 1)) := by
  unfold isFirstVersion at h
  split at h
  · rw [eq_of_beq h]
  · cases h

/-- A policy that is accepted. -/
theorem policy_sound {settings : Policy} (h : policy python uid met = .ok settings) :
    (∃ text fields, Trusted uid met.login text ∧ python.loads text = some (.obj fields) ∧
      fields.lookup (ascii "version") = some (.num (.int 1)) ∧
      fields.lookup (ascii "user") = some (.str settings.user) ∧
      fields.lookup (ascii "autologin") = some (.bool settings.autologin)) ∧
    validOwner settings.user = true ∧
    ∃ passwd, met.passwd = .ok passwd ∧ Installed python passwd settings.user := by
  unfold policy at h
  obtain ⟨text, htext, h⟩ := bind_eq_ok.mp h
  obtain ⟨value, hvalue, h⟩ := bind_eq_ok.mp h
  cases value with
  | obj fields =>
      dsimp only at h
      split_ifs at h with hversion
      obtain ⟨user, huser, h⟩ := bind_eq_ok.mp h
      obtain ⟨autologin, hautologin, h⟩ := bind_eq_ok.mp h
      obtain ⟨live, -, h⟩ := bind_eq_ok.mp h
      obtain ⟨passwd, hpasswd, h⟩ := bind_eq_ok.mp h
      obtain ⟨regular, hregular, h⟩ := bind_eq_ok.mp h
      split_ifs at h with hinstalled
      rw [hinstalled] at hregular
      obtain ⟨hfound, hvalid⟩ := ownerOf_eq_ok huser
      have hloads : python.loads text = some (.obj fields) := by
        unfold parse at hvalue
        split at hvalue
        · rename_i hloads
          rw [hloads, Except.ok.inj hvalue]
        · cases hvalue
      rw [← Except.ok.inj h]
      exact ⟨⟨text, fields, trusted_of_trustedFile htext, hloads,
        isFirstVersion_iff (Bool.not_eq_false _ ▸ hversion), hfound, flagOf_eq_ok hautologin⟩,
        hvalid, passwd, hpasswd, installed_of_ok hregular⟩
  | _ => cases h

theorem verifiedLive_sound (h : verifiedLive uid met user = .ok true) : Live uid met user := by
  unfold verifiedLive at h
  obtain ⟨text, htext, h⟩ := bind_eq_ok.mp h
  obtain ⟨cmdline, hcmdline, h⟩ := bind_eq_ok.mp h
  have hall := pure_eq_ok.mp h
  simp only [Bool.and_eq_true, decide_eq_true_eq, List.any_eq_true] at hall
  obtain ⟨⟨hmarked, hliveuser⟩, hbooted⟩ := hall
  exact ⟨⟨text, trusted_of_trustedFile htext, hmarked⟩, hliveuser, cmdline, hcmdline, hbooted⟩

/-! ### An encrypted root -/

theorem btrfsMembers_reported {output : Text} {members : List Text}
    (h : btrfsMembers python output = .ok members) : Reported python output members := by
  unfold btrfsMembers at h
  split at h
  · rename_i total _ htotal
    dsimp only at h
    split_ifs at h with hpartial
    simp only [not_or, not_not, Bool.not_eq_true] at hpartial
    obtain ⟨-, hlength, -, hnodup, hmissing⟩ := hpartial
    rw [← Except.ok.inj h]
    exact ⟨fun line device => device_found, ⟨total, htotal, (List.length_map _).trans hlength⟩,
      hnodup, hmissing⟩
  · cases h

theorem members_of_ok {devices : Devices} {fstype : PyValue} {device : Text} {members : List Text}
    (h : membersOf python devices fstype device = .ok members) :
    Members python devices device fstype members := by
  unfold membersOf at h
  split_ifs at h with hbtrfs
  · obtain ⟨output, houtput, h⟩ := bind_eq_ok.mp h
    exact .btrfs fstype hbtrfs output members houtput (btrfsMembers_reported h)
  · rw [← Except.ok.inj h]
    exact .plain fstype (Bool.eq_false_iff.mpr hbtrfs)

theorem allTrees_mem {devices : Devices} {members : List Text}
    (h : allTrees python devices members = .ok true) {member : Text} (hmember : member ∈ members) :
    treeEncrypted python devices member = .ok true := by
  induction members with
  | nil => cases hmember
  | cons first members ih =>
      unfold allTrees at h
      obtain ⟨encrypted, hfirst, h⟩ := bind_eq_ok.mp h
      split_ifs at h with hencrypted
      · rcases List.mem_cons.mp hmember with rfl | hmem
        · rw [hfirst, hencrypted]
        · exact ih h hmem
      · cases pure_eq_ok.mp h

/-- A tree that is taken for encrypted is a list of devices, all of them encrypted. -/
theorem treeEncrypted_mapped {devices : Devices} {member : Text}
    (h : treeEncrypted python devices member = .ok true) :
    ∃ nodes, treeOf python devices member = .ok (.arr nodes) ∧ nodes ≠ [] ∧
      ∀ path, IsPath nodes path → ∃ node ∈ path, isCrypt node = true := by
  unfold treeEncrypted at h
  obtain ⟨output, houtput, h⟩ := bind_eq_ok.mp h
  obtain ⟨value, hvalue, h⟩ := bind_eq_ok.mp h
  obtain ⟨tree, htree, h⟩ := bind_eq_ok.mp h
  have hall : treeOf python devices member = .ok tree :=
    bind_eq_ok.mpr ⟨output, houtput, bind_eq_ok.mpr ⟨value, hvalue, htree⟩⟩
  cases tree with
  | arr nodes =>
      unfold encryptedPaths at h
      split_ifs at h with hempty
      · cases h
      · exact ⟨nodes, hall, by simpa using hempty, fun path hpath => hpath.mapped h⟩
  | _ =>
      unfold encryptedPaths at h
      try split_ifs at h
      all_goals cases h

theorem encryptedRoot_mapped {devices : Devices} (h : encryptedRoot python devices = .ok true) :
    RootMapped python devices := by
  have hroot : rootEncrypted python devices = .ok true := by
    unfold encryptedRoot at h
    split at h
    · rename_i hok
      rw [hok, h]
    · cases h
    · cases h
  unfold rootEncrypted at hroot
  obtain ⟨output, houtput, hroot⟩ := bind_eq_ok.mp hroot
  obtain ⟨value, hvalue, hroot⟩ := bind_eq_ok.mp hroot
  obtain ⟨mounts, hmounts, hroot⟩ := bind_eq_ok.mp hroot
  obtain ⟨mount, hmount, hroot⟩ := bind_eq_ok.mp hroot
  cases mount with
  | none => cases pure_eq_ok.mp hroot
  | some mount =>
      dsimp only at hroot
      unfold mountEncrypted at hroot
      obtain ⟨target, htarget, hroot⟩ := bind_eq_ok.mp hroot
      split_ifs at hroot with hslash
      · cases pure_eq_ok.mp hroot
      obtain ⟨source, hsource, hroot⟩ := bind_eq_ok.mp hroot
      obtain ⟨device, hdevice, hroot⟩ := bind_eq_ok.mp hroot
      split_ifs at hroot with hdev
      · cases pure_eq_ok.mp hroot
      obtain ⟨fstype, hfstype, hroot⟩ := bind_eq_ok.mp hroot
      obtain ⟨members, hmembers, hroot⟩ := bind_eq_ok.mp hroot
      refine ⟨mount, source, device, fstype, members,
        ⟨⟨output, value, mounts, houtput, hvalue, hmounts, hmount⟩, target, htarget,
          Bool.not_eq_false _ ▸ hslash⟩, hsource, hdevice, hfstype, members_of_ok hmembers,
        fun member hmember => treeEncrypted_mapped (allTrees_mem hroot hmember)⟩

/-- What makes a policy's user eligible. -/
theorem eligibility_sound {settings : Policy} {reason : Reason}
    (h : eligibility python uid met settings = .ok (true, reason)) :
    settings.autologin = true ∧
      (Live uid met settings.user ∨ RootMapped python met.devices) := by
  unfold eligibility at h
  split_ifs at h with hlive hautologin
  · split at h
    · rename_i verified hverified
      split_ifs at h with hboth
      · obtain ⟨hautologin, rfl⟩ := Bool.and_eq_true_iff.mp hboth
        exact ⟨hautologin, .inl (verifiedLive_sound hverified)⟩
      · cases h
    · cases h
    · cases h
    · cases h
  · obtain ⟨encrypted, hencrypted, h⟩ := bind_eq_ok.mp h
    split_ifs at h with hyes
    · rw [hyes] at hencrypted
      exact ⟨hautologin, .inr (encryptedRoot_mapped hencrypted)⟩
    · cases pure_eq_ok.mp h
  · cases h

/-! ### A run -/

/-- SDDM's session is created at most, by SDDM itself or with the whole first choice. -/
def SessionKept (met : Met) (s t : Boot) : Prop :=
  t.session = s.session ∨ s.session = none ∧
    (t.session = some (.file SESSION) ∨ ∃ own ∈ met.sddm.update, t.session = some own)

/-- A moment of a run: nobody is logged in automatically, or one who is entitled to it, and
for whom the boot's only autologin is used. -/
structure Between (python : Python) (uid : ℕ) (met : Met) (s t : Boot) : Prop where
  sddm : t.sddm = some (config []) ∨ ∃ user, user ≠ [] ∧ t.sddm = some (config user) ∧
    Entitled python uid met user ∧ s.used = false ∧ t.used = true
  used : s.used = true → t.used = true
  session : SessionKept met s t

/-- The configuration is empty, and the autologin is as before or is used for this user. -/
structure Selecting (python : Python) (uid : ℕ) (met : Met) (s t : Boot) : Prop where
  sddm : t.sddm = some (config [])
  used : s.used = true → t.used = true
  session : SessionKept met s t

/-- From one moment of a run to the next. -/
def Ahead (python : Python) (uid : ℕ) (met : Met) (s t u : Boot) : Prop :=
  (t.used = true → u.used = true) ∧ Between python uid met s u

theorem Selecting.between (h : Selecting python uid met s t) : Between python uid met s t :=
  ⟨.inl h.sddm, h.used, h.session⟩

theorem validOwner_ne_nil (h : validOwner user = true) : user ≠ [] := by
  rintro rfl
  cases h

/-- The session is left as it is, or created. -/
theorem leads_seedSession (hs : t.sddm = some (config []) ∧ t.used = s.used)
    (hsession : t.session = s.session) :
    (seedSession uid met.sddm).Leads (Ahead python uid met s)
      (fun _ u => u.used = s.used ∧ Selecting python uid met s u) t := by
  obtain ⟨hsddm, hused⟩ := hs
  have hkept : t.used = s.used ∧ Selecting python uid met s t :=
    ⟨hused, hsddm, fun h => hused.trans h, .inl hsession⟩
  have hnew (own : Session)
      (hown : own = .file SESSION ∨ own ∈ met.sddm.update) (hnone : t.session = none) :
      Selecting python uid met s { t with session := some own } := by
    refine ⟨hsddm, fun h => hused.trans h, .inr ⟨hsession.symm.trans hnone, ?_⟩⟩
    rcases hown with rfl | hown
    · exact .inl rfl
    · exact .inr ⟨own, hown, rfl⟩
  unfold seedSession
  rw [leads_bind, leads_ofExcept]
  cases met.sddm.account with
  | error error => exact hkept
  | ok account =>
      dsimp only
      refine Program.Leads.bind (Program.leads_forEach (fun u => u = t) rfl
        fun parent _ u hu => leads_ofExcept.mpr hu) ?_ fun _ u hu => hu ▸ hkept
      rintro - u rfl
      rw [leads_bind, leads_ofExcept]
      cases met.sddm.directory with
      | error error => exact hkept
      | ok info =>
          dsimp only
          rw [Program.leads_ite]
          split_ifs with hunsafe
          · exact leads_fail.mpr hkept
          · rw [leads_look_bind]
            cases hheld : u.session with
            | some held =>
                cases held with
                | other => exact leads_fail.mpr hkept
                | file text => exact leads_pure.mpr hkept
            | none =>
                dsimp only
                rw [leads_bind, leads_ofExcept]
                cases met.sddm.temporary with
                | error error => exact hkept
                | ok _ =>
                    dsimp only
                    cases hupdate : met.sddm.update with
                    | none =>
                        have hseeded := hnew (.file SESSION) (.inl rfl) hheld
                        exact leads_effect.mpr ⟨⟨id, hseeded.between⟩, hused, hseeded⟩
                    | some own =>
                        have hown := hnew own (.inr hupdate) hheld
                        exact leads_effect.mpr ⟨⟨id, hown.between⟩, hused, hown⟩

/-- Nobody is selected, or one who is entitled, with the boot's autologin. -/
def Selected (python : Python) (uid : ℕ) (met : Met) (s : Boot)
    (result : Except Exc (Text × Reason)) (t : Boot) : Prop :=
  Selecting python uid met s t ∧ ∀ value, result = .ok value → value.1 = [] ∨
    value.1 ≠ [] ∧ Entitled python uid met value.1 ∧ s.used = false ∧ t.used = true

/-- A user is selected once in a boot, and only one who is entitled. -/
theorem leads_select (hused : t.used = s.used) (h : Selecting python uid met s t) :
    (select python uid met).Leads (Ahead python uid met s)
      (Selected python uid met s) t := by
  unfold select
  rw [leads_bind, leads_ofExcept]
  cases hpolicy : policy python uid met with
  | error error => exact ⟨h, nofun⟩
  | ok settings =>
      dsimp only
      rw [leads_bind, leads_ofExcept]
      cases heligible : eligibility python uid met settings with
      | error error => exact ⟨h, nofun⟩
      | ok answer =>
          obtain ⟨eligible, reason⟩ := answer
          dsimp only
          rw [Program.leads_ite]
          split_ifs with hyes
          · rw [hyes] at heligible
            obtain ⟨hautologin, hroot⟩ := eligibility_sound heligible
            obtain ⟨⟨text, fields, htrusted, hloads, hversion, huser, hflag⟩, hvalid, haccount⟩ :=
              policy_sound hpolicy
            rw [hautologin] at hflag
            have hentitled : Entitled python uid met settings.user :=
              ⟨⟨text, fields, htrusted, hloads, hversion, huser, hflag⟩, hvalid, haccount, hroot⟩
            unfold takeMarker
            rw [leads_bind, leads_look_bind, Program.leads_ite]
            split_ifs with htaken
            · rw [leads_pure]
              refine leads_pure.mpr ⟨h, fun value hvalue => .inl ?_⟩
              rw [← Except.ok.inj hvalue]
            · rw [leads_bind, leads_ofExcept]
              cases met.marker with
              | error error => exact ⟨h, nofun⟩
              | ok _ =>
                  dsimp only
                  have hmarked : Selecting python uid met s { t with used := true } :=
                    ⟨h.sddm, fun _ => rfl, h.session⟩
                  rw [leads_effect_bind, leads_pure]
                  refine ⟨⟨fun _ => rfl, hmarked.between⟩,
                    leads_pure.mpr ⟨hmarked, fun value hvalue => .inr ?_⟩⟩
                  rw [← Except.ok.inj hvalue]
                  exact ⟨validOwner_ne_nil hvalid, hentitled,
                    hused.symm.trans (Bool.eq_false_iff.mpr htaken), rfl⟩
          · refine leads_pure.mpr ⟨h, fun value hvalue => .inl ?_⟩
            rw [← Except.ok.inj hvalue]

theorem leads_prepare :
    (prepare python uid met).Leads (Ahead python uid met s) (fun _ _ => True) s := by
  unfold prepare writeConfig
  rw [leads_bind, leads_ofExcept]
  cases safeRuntime uid met with
  | error error => trivial
  | ok _ =>
      dsimp only
      rw [leads_bind, leads_ofExcept]
      cases met.lock with
      | error error => trivial
      | ok _ =>
          dsimp only
          rw [leads_bind, leads_bind, leads_ofExcept]
          cases met.writes .disable with
          | error error => trivial
          | ok _ =>
              dsimp only
              rw [leads_effect]
              have hdisabled : Selecting python uid met s { s with sddm := some (config []) } :=
                ⟨rfl, id, .inl rfl⟩
              refine ⟨⟨id, hdisabled.between⟩, ?_⟩
              refine Program.Leads.bind (leads_seedSession (s := s) ⟨rfl, rfl⟩ rfl) ?_
                fun _ _ _ => trivial
              rintro - t ⟨hused, hseeded⟩
              have hselect : ((select python uid met).catching invalid).Leads
                  (Ahead python uid met s) (Selected python uid met s) t := by
                refine leads_catching.mpr ((leads_select hused hseeded).imp ?_)
                intro result u hselected
                cases result with
                | ok value => exact hselected
                | error error =>
                    cases error with
                    | subprocess => exact leads_fail.mpr ⟨hselected.1, nofun⟩
                    | «attribute» => exact leads_fail.mpr ⟨hselected.1, nofun⟩
                    | _ =>
                        refine leads_pure.mpr ⟨hselected.1, fun value hvalue => .inl ?_⟩
                        rw [← Except.ok.inj hvalue]
              refine hselect.bind ?_ fun _ _ _ => trivial
              rintro ⟨selected, reason⟩ u ⟨hselecting, hselected⟩
              dsimp only
              rw [leads_bind, leads_bind, leads_ofExcept]
              cases met.writes .select with
              | error error => trivial
              | ok _ =>
                  dsimp only
                  have hwritten :
                      Between python uid met s { u with sddm := some (config selected) } := by
                    refine ⟨?_, hselecting.used, hselecting.session⟩
                    rcases hselected _ rfl with hempty | ⟨hne, hentitled, hfree, hused⟩
                    · dsimp only at hempty
                      rw [hempty]
                      exact .inl rfl
                    · exact .inr ⟨selected, hne, rfl, hentitled, hfree, hused⟩
                  rw [leads_effect]
                  refine ⟨⟨id, hwritten⟩, ?_⟩
                  dsimp only
                  rw [leads_bind, leads_ofExcept]
                  cases met.writes .publish with
                  | error error => trivial
                  | ok _ =>
                      dsimp only
                      rw [leads_effect_bind, leads_pure]
                      exact ⟨⟨id, hwritten.sddm, hwritten.used, hwritten.session⟩, trivial⟩

/-! ### The runs of a boot -/

/-- The run logs a user in automatically, for some time. -/
def grants (python : Python) (uid : ℕ) (s : Boot) (run : Run) : Bool :=
  (run.passed python uid s).any fun t => t.sddm ≠ some (config [])

/-- How many runs do so. -/
def granted (python : Python) (uid : ℕ) (s : Boot) : List Run → ℕ
  | [] => 0
  | run :: runs =>
      (if grants python uid s run then 1 else 0) + granted python uid (s.step python uid run) runs

def Guarded (python : Python) (uid : ℕ) (s : Boot) (run : Run) : Prop :=
  ∀ t ∈ run.passed python uid s, Between python uid run.met s t

/-- The moments before a kill are those of a run that is not killed. -/
theorem isChain_passed (run : Run) :
    List.IsChain (Ahead python uid run.met s) (s :: run.passed python uid s) := by
  have hall : List.IsChain (Ahead python uid run.met s)
      (s :: (prepare python uid run.met).moments s) := leads_prepare.1
  unfold Run.passed
  cases run.killed with
  | none => exact hall
  | some effects => exact hall.take (effects + 1)

theorem guarded (run : Run) : Guarded python uid s run := by
  have hall : (prepare python uid run.met).Leads
      (fun _ t => Between python uid run.met s t) (fun _ _ => True) s :=
    leads_prepare.mono (fun _ _ hahead => hahead.2) fun _ _ => id
  refine fun t ht => Program.Leads.moments_of hall t ?_
  unfold Run.passed at ht
  cases hkilled : run.killed with
  | none =>
      rw [hkilled] at ht
      exact ht
  | some effects =>
      rw [hkilled] at ht
      exact List.mem_of_mem_take ht

theorem step_used (run : Run) (h : s.used = true) : (s.step python uid run).used = true := by
  rcases List.mem_cons.mp (Program.getLastD_mem s (run.passed python uid s)) with hsame | hmem
  · exact (congrArg Boot.used hsame).trans h
  · exact (guarded run _ hmem).used h

/-- Once the autologin is used it stays used. -/
theorem used_getLastD {passed : List Boot} {start : Boot}
    (hchain : List.IsChain (Ahead python uid met s) (start :: passed))
    (h : t ∈ start :: passed) (hused : t.used = true) : (passed.getLastD start).used = true := by
  induction passed generalizing start t with
  | nil =>
      rw [List.mem_singleton.mp h] at hused
      exact hused
  | cons next passed ih =>
      rw [List.isChain_cons_cons] at hchain
      rw [List.getLastD_cons]
      rcases List.mem_cons.mp h with rfl | hmem
      · exact ih hchain.2 List.mem_cons_self (hchain.1.1 hused)
      · exact ih hchain.2 hmem hused

/-- A run that logs a user in uses the boot's autologin. -/
theorem step_grants {run : Run} (h : grants python uid s run = true) :
    s.used = false ∧ (s.step python uid run).used = true := by
  obtain ⟨t, ht, hnone⟩ := List.any_eq_true.mp h
  rcases (guarded run t ht).sddm with hempty | ⟨user, -, -, -, hfree, hused⟩
  · simp [hempty] at hnone
  · exact ⟨hfree, used_getLastD (isChain_passed run) (List.mem_cons_of_mem _ ht) hused⟩

/-- In one boot, however often it is prepared and wherever a run is killed, at most one run
logs a user in automatically: at every moment past a run's first write nobody is, or one whom
a trusted policy names, whose account is regular and whose root is encrypted or live. -/
theorem prepare_once (python : Python) (uid : ℕ) (s : Boot) (runs : List Run) :
    EachStep (Boot.step python uid) (Guarded python uid) s runs ∧
      granted python uid s runs ≤ if s.used then 0 else 1 := by
  refine ⟨EachStep.of_forall (fun s run => guarded run) s runs, ?_⟩
  induction runs generalizing s with
  | nil => exact Nat.zero_le _
  | cons run runs ih =>
      have hrest := ih (s.step python uid run)
      unfold granted
      by_cases hgrants : grants python uid s run = true
      · obtain ⟨hfree, hused⟩ := step_grants hgrants
        rw [hused, if_pos rfl] at hrest
        rw [if_pos hgrants, hfree]
        simpa using hrest
      · rw [if_neg hgrants]
        cases hused : s.used with
        | true =>
            rw [step_used run hused, if_pos rfl] at hrest
            simpa using hrest
        | false =>
            have hone : (if (s.step python uid run).used then 0 else 1) ≤ 1 := by
              split_ifs <;> simp
            rw [Nat.zero_add]
            exact hrest.trans hone

end

/-! ### The live system -/

/-- The policy of the live system, whatever its text. -/
def livePython : Python where
  loads _ := some (.obj [(ascii "version", .num (.int 1)), (ascii "user", .str (ascii "liveuser")),
    (ascii "autologin", .bool true), (ascii "live", .bool true)])
  int _ := some 1000
  lower := id
  isWord _ := false

/-- A live boot, and what a run meets there. -/
def liveMet : Met where
  runtime := .ok ⟨false, true, 0, 0o700⟩
  lock := .ok ()
  sddm := ⟨.ok 982, [], .ok ⟨false, true, 982, 0o1770⟩, .ok (), none⟩
  login := ⟨.ok ⟨true, false, 0, 0o644⟩, .ok []⟩
  passwd := .ok (ascii "liveuser:x:1000:1000::/home/liveuser:/bin/bash\n")
  live := ⟨.ok ⟨true, false, 0, 0o644⟩, .ok (ascii "liveuser\n")⟩
  cmdline := .ok (ascii "quiet rd.live.image\n")
  devices := ⟨.error .os, .error .os, fun _ => .error .os⟩
  marker := .ok ()
  writes _ := .ok ()

/-- It logs its user in once, also when the first run is killed before its last write. -/
example : granted livePython 0 ⟨none, none, false, none⟩ [⟨liveMet, some 4⟩, ⟨liveMet, none⟩] = 1 :=
  by decide +kernel

end Login

end CybexOS
