/-
Retiring the kernels that a restored root cannot run: which entries and files of
/boot stay, what the boot loader is told, and when a second run has work left.
-/
import CybexOS.Dict
import CybexOS.Snapshot.RecoveryMenu
import CybexOS.Snapshot.Restore

namespace CybexOS

namespace Snapshot

open Program

/-! ### The lines of an entry -/

/-- `line.strip().split(None, 1)`, the value stripped; `none` where the line is
skipped. -/
def entryLine (line : Text) : Option (Text × Text) :=
  let line := trimWith isSpace line
  let key := line.takeWhile (!isSpace ·)
  let value := trimWith isSpace (line.drop key.length)
  if value.isEmpty || key.head? = some 35 then none else some (key, value)

/-- The value of the last line with this key. -/
def entryField (name content : Text) : Text :=
  ((((splitlines content).filterMap entryLine).filter (·.1 = name)).getLast?.map Prod.snd).getD []

/-- The version an entry names, by its own field or by its kernel's file name. -/
def entryVersion (content : Text) : Text :=
  let version := entryField (ascii "version") content
  let linux := nameOf (entryField (ascii "linux") content)
  if !version.isEmpty then version
  else if startsWith linux (ascii "vmlinuz-") then linux.drop 8
  else []

/-! ### The entries by version -/

/-- One file of the loop. -/
def addEntry (entries : List (Text × Text)) (file : Text × BootFile) : List (Text × Text) :=
  if kernelPattern file.2.version && file.2.version ∉ entries.map Prod.fst then
    entries ++ [(file.2.version, file.1)]
  else entries

/-- The first file of each version is kept. -/
structure FirstOfEach (files : Files) (before entries : List (Text × Text)) : Prop where
  nodup : (entries.map Prod.fst).Nodup
  keeps : ∀ entry ∈ before, entry ∈ entries
  from_file : ∀ entry ∈ entries, entry ∈ before ∨
    ∃ file ∈ files, kernelPattern entry.1 = true ∧ file.2.version = entry.1 ∧ file.1 = entry.2
  of_file : ∀ file ∈ files, kernelPattern file.2.version = true →
    file.2.version ∈ entries.map Prod.fst

theorem firstOfEach_addEntry {before : List (Text × Text)} (h : (before.map Prod.fst).Nodup)
    (file : Text × BootFile) : FirstOfEach [file] before (addEntry before file) := by
  unfold addEntry
  split
  · rename_i hnew
    rw [Bool.and_eq_true, decide_eq_true_eq] at hnew
    constructor
    · rw [List.map_append, List.nodup_append]
      refine ⟨h, by simp, ?_⟩
      intro version hversion other hother heq
      rw [List.map_singleton, List.mem_singleton] at hother
      rw [heq, hother] at hversion
      exact hnew.2 hversion
    · exact fun entry hentry => List.mem_append_left _ hentry
    · intro entry hentry
      rcases List.mem_append.mp hentry with hold | hfile
      · exact Or.inl hold
      · rw [List.mem_singleton] at hfile
        rw [hfile]
        exact Or.inr ⟨file, List.mem_cons_self, hnew.1, rfl, rfl⟩
    · intro other hother _
      rw [List.mem_singleton] at hother
      simp [hother]
  · rename_i hold
    constructor
    · exact h
    · exact fun entry hentry => hentry
    · exact fun entry hentry => Or.inl hentry
    · intro other hother hpattern
      rw [List.mem_singleton] at hother
      rw [hother] at hpattern ⊢
      simpa [hpattern] using hold

theorem FirstOfEach.trans {first second : Files} {before middle entries : List (Text × Text)}
    (hfirst : FirstOfEach first before middle) (hsecond : FirstOfEach second middle entries) :
    FirstOfEach (first ++ second) before entries where
  nodup := hsecond.nodup
  keeps := fun entry hentry => hsecond.keeps entry (hfirst.keeps entry hentry)
  from_file := by
    intro entry hentry
    rcases hsecond.from_file entry hentry with hmiddle | ⟨file, hfile, hnames⟩
    · rcases hfirst.from_file entry hmiddle with hbefore | ⟨file, hfile, hnames⟩
      · exact Or.inl hbefore
      · exact Or.inr ⟨file, List.mem_append_left _ hfile, hnames⟩
    · exact Or.inr ⟨file, List.mem_append_right _ hfile, hnames⟩
  of_file := by
    intro file hfile hpattern
    rcases List.mem_append.mp hfile with hfile | hfile
    · obtain ⟨entry, hentry, hversion⟩ := List.mem_map.mp (hfirst.of_file file hfile hpattern)
      exact List.mem_map.mpr ⟨entry, hsecond.keeps entry hentry, hversion⟩
    · exact hsecond.of_file file hfile hpattern

theorem firstOfEach_foldl (files : Files) {before : List (Text × Text)}
    (h : (before.map Prod.fst).Nodup) :
    FirstOfEach files before (files.foldl addEntry before) := by
  induction files generalizing before with
  | nil => exact ⟨h, fun _ h => h, fun _ h => Or.inl h, fun _ h => by cases h⟩
  | cons file files ih =>
      have hfirst := firstOfEach_addEntry h file
      exact hfirst.trans (ih hfirst.nodup)

/-- A boot entry that counts: its version is one. -/
def Names (file : Text × BootFile) (version : Text) : Prop :=
  isEntry file.1 = true ∧ file.2.version = version ∧ kernelPattern version = true

instance (file : Text × BootFile) (version : Text) : Decidable (Names file version) :=
  inferInstanceAs (Decidable (_ ∧ _ ∧ _))

theorem firstOfEach_bootEntries (boot : Files) :
    FirstOfEach ((boot.filter (isEntry ·.1)).insertionSort (·.1 ≤ ·.1)) [] (bootEntries boot) :=
  firstOfEach_foldl _ List.nodup_nil

theorem nodup_bootEntries (boot : Files) : ((bootEntries boot).map Prod.fst).Nodup :=
  (firstOfEach_bootEntries boot).nodup

theorem names_of_mem_bootEntries {boot : Files} {entry : Text × Text}
    (h : entry ∈ bootEntries boot) : ∃ file ∈ boot, Names file entry.1 ∧ file.1 = entry.2 := by
  rcases (firstOfEach_bootEntries boot).from_file entry h with
    hnone | ⟨file, hfile, hpattern, hversion, hpath⟩
  · cases hnone
  · rw [List.mem_insertionSort, List.mem_filter] at hfile
    exact ⟨file, hfile.1, ⟨hfile.2, hversion, hpattern⟩, hpath⟩

theorem mem_bootEntries_of_names {boot : Files} {file : Text × BootFile} {version : Text}
    (hfile : file ∈ boot) (h : Names file version) :
    ∃ path, (version, path) ∈ bootEntries boot := by
  obtain ⟨hentry, hversion, hpattern⟩ := h
  have hsorted : file ∈ (boot.filter (isEntry ·.1)).insertionSort (·.1 ≤ ·.1) :=
    (List.mem_insertionSort _).mpr (List.mem_filter.mpr ⟨hfile, hentry⟩)
  have hmem := (firstOfEach_bootEntries boot).of_file file hsorted (hversion ▸ hpattern)
  obtain ⟨entry, hmem, hfst⟩ := List.mem_map.mp hmem
  refine ⟨entry.2, ?_⟩
  rw [← hversion, ← hfst]
  exact hmem

/-! ### Kernel files -/

/-- A kernel's file names its kernel. -/
theorem kernelFiles_apart {path first second : Text} (hfirst : path ∈ KERNEL_FILES first)
    (hsecond : path ∈ KERNEL_FILES second) : first = second := by
  simp only [KERNEL_FILES, ascii, List.mem_cons, List.not_mem_nil, or_false] at hfirst hsecond
  rcases hfirst with rfl | rfl | rfl | rfl | rfl | rfl <;> simpa using hsecond

theorem kernelFiles_not_entry {path version : Text} (h : path ∈ KERNEL_FILES version) :
    isEntry path = false := by
  simp only [KERNEL_FILES, ascii, List.mem_cons, List.not_mem_nil, or_false] at h
  rcases h with rfl | rfl | rfl | rfl | rfl | rfl <;> simp [isEntry, ENTRIES, ascii]

/-! ### What is moved -/

/-- The paths that are moved for the entries. -/
def retired (kept : List Text) (entries : List (Text × Text)) : List Text :=
  entries.flatMap fun entry =>
    if isRescue entry.1 || entry.1 ∈ kept then [] else entry.2 :: KERNEL_FILES entry.1

theorem mem_retired {kept : List Text} {entries : List (Text × Text)} {path : Text} :
    path ∈ retired kept entries ↔ ∃ entry ∈ entries, isRescue entry.1 = false ∧
      entry.1 ∉ kept ∧ (path = entry.2 ∨ path ∈ KERNEL_FILES entry.1) := by
  rw [retired, List.mem_flatMap]
  constructor
  · rintro ⟨entry, hentry, hpath⟩
    by_cases hstays : (isRescue entry.1 || entry.1 ∈ kept) = true
    · rw [if_pos hstays] at hpath
      cases hpath
    · rw [if_neg hstays] at hpath
      rw [Bool.or_eq_true, not_or, Bool.not_eq_true, decide_eq_true_eq] at hstays
      exact ⟨entry, hentry, hstays.1, hstays.2, List.mem_cons.mp hpath⟩
  · rintro ⟨entry, hentry, hrescue, hkept, hpath⟩
    have hmoved : ¬ (isRescue entry.1 || entry.1 ∈ kept) = true := by simp [hrescue, hkept]
    refine ⟨entry, hentry, ?_⟩
    rw [if_neg hmoved]
    exact List.mem_cons.mpr hpath

def kernelsOf (s : System) : List Text := ((s.roots .root).map Subvolume.kernels).getD []

/-- What the moves leave in /boot. -/
def bootLeft (s : System) : Files :=
  s.boot.filter (·.1 ∉ retired (kernelsOf s) (bootEntries s.boot))

theorem retireFile_leads (stamp : Stamp) (path : Text) (s : System) :
    (retireFile stamp path).Leads (fun _ _ => True)
      (fun result t => result = .ok () ∧
        (t.boot, t.roots) = (remove s.boot path, s.roots)) s := by
  unfold retireFile
  rw [leads_look_bind]
  cases hlookup : s.boot.lookup path with
  | none =>
      have habsent : remove s.boot path = s.boot := by
        rw [remove, List.filter_eq_self]
        intro file hfile
        apply decide_eq_true
        intro heq
        exact Dict.lookup_eq_none.mp hlookup (List.mem_map.mpr ⟨file, hfile, heq⟩)
      exact leads_pure.mpr ⟨rfl, by rw [habsent]⟩
  | some file =>
      rw [leads_effect_bind, leads_effect]
      exact ⟨trivial, trivial, rfl, rfl⟩

/-- Removals one after another are one removal. -/
theorem foldl_filter {ι : Type} (paths : ι → List Text) (items : List ι) (boot : Files)
    (roots : RootName → Option Subvolume) :
    items.foldl (fun seen item => (seen.1.filter (·.1 ∉ paths item), seen.2)) (boot, roots) =
      (boot.filter (·.1 ∉ items.flatMap paths), roots) := by
  induction items generalizing boot with
  | nil => simp
  | cons item items ih =>
      rw [List.foldl_cons, ih, List.filter_filter]
      congr 1
      apply List.filter_congr
      intro file _
      simp [Bool.and_comm]

theorem retireFiles_leads (stamp : Stamp) (paths : List Text) (s : System) :
    (forEach paths (retireFile stamp)).Leads (fun _ _ => True)
      (fun result t => result = .ok () ∧
        (t.boot, t.roots) = (s.boot.filter (·.1 ∉ paths), s.roots)) s := by
  have hpaths := foldl_filter (fun path => [path]) paths s.boot s.roots
  rw [List.flatMap_singleton'] at hpaths
  rw [← hpaths]
  refine leads_forEach_foldl (fun t : System => (t.boot, t.roots)) _ ?_
  intro path _ t
  simpa [remove] using retireFile_leads stamp path t

/-- The files of all entries that go. -/
theorem retireEntries_leads (stamp : Stamp) (kept : List Text) (entries : List (Text × Text))
    (s : System) :
    (forEach entries fun entry =>
        if isRescue entry.1 || entry.1 ∈ kept then pure ()
        else forEach (entry.2 :: KERNEL_FILES entry.1) (retireFile stamp)).Leads
      (fun _ _ => True)
      (fun result t => result = .ok () ∧
        (t.boot, t.roots) = (s.boot.filter (·.1 ∉ retired kept entries), s.roots)) s := by
  rw [retired, ← foldl_filter]
  refine leads_forEach_foldl (fun t : System => (t.boot, t.roots)) _ ?_
  intro entry _ t
  by_cases hstays : (isRescue entry.1 || entry.1 ∈ kept) = true
  · simp only [if_pos hstays, leads_pure]
    simp
  · simp only [if_neg hstays]
    refine (retireFiles_leads stamp (entry.2 :: KERNEL_FILES entry.1) t).imp ?_
    intro result u hu
    exact hu

/-! ### The whole function -/

/-- What the boot loader is told. -/
def tells (grub : Bool) (path : Text) (t : System) : Prop :=
  grub = true → t.savedEntry = some (entryId path) ∧ t.nextEntry = none

/-- How the function ends. -/
structure Ends (env : Env) (record : Record) (s : System) (result : Except Failure Unit)
    (t : System) : Prop where
  boot : result = .ok () → t.boot = bootLeft s
  roots : t.roots = s.roots
  kernel : result = .ok () → record.kernel ∈ kernelsOf s
  entry : result = .ok () → ∃ path, (record.kernel, path) ∈ bootEntries (bootLeft s) ∧
    tells env.grub path t
  error : ∀ error, result = .error error → record.kernel ∉ kernelsOf s ∨
    record.kernel ∉ (bootEntries (bootLeft s)).map Prod.fst

theorem reconcileBoot_ends (env : Env) (stamp : Stamp) (record : Record) (s : System) :
    (reconcileBoot env stamp record).Leads (fun _ _ => True) (Ends env record s) s := by
  unfold reconcileBoot
  rw [leads_look_bind]
  split
  · rename_i hkernel
    rw [leads_fail]
    exact ⟨(fun h => by cases h), rfl, (fun h => by cases h), (fun h => by cases h),
      fun _ _ => Or.inl hkernel⟩
  · rename_i hkernel
    rw [not_not] at hkernel
    rw [leads_look_bind]
    refine Leads.bind (retireEntries_leads stamp (kernelsOf s) (bootEntries s.boot) s) ?_ ?_
    · rintro _ t ⟨-, ht⟩
      have hboot : t.boot = bootLeft s := congrArg Prod.fst ht
      have hroots : t.roots = s.roots := congrArg Prod.snd ht
      rw [leads_look_bind, hboot]
      cases hlookup : (bootEntries (bootLeft s)).lookup record.kernel with
      | none =>
          rw [leads_fail]
          exact ⟨(fun h => by cases h), hroots, (fun h => by cases h), (fun h => by cases h),
            fun _ _ => Or.inr (Dict.lookup_eq_none.mp hlookup)⟩
      | some path =>
          have hpath := Dict.mem_of_lookup hlookup
          cases hgrub : env.grub with
          | false =>
              simp only [Bool.false_eq_true, if_false, leads_pure]
              exact ⟨fun _ => hboot, hroots, fun _ => hkernel,
                fun _ => ⟨path, hpath, fun h => by rw [hgrub] at h; cases h⟩, (fun _ h => by cases h)⟩
          | true =>
              simp only [if_true, leads_effect_bind, leads_effect]
              exact ⟨trivial, trivial, fun _ => hboot, hroots, fun _ => hkernel,
                fun _ => ⟨path, hpath, fun _ => ⟨rfl, rfl⟩⟩, (fun _ h => by cases h)⟩
    · rintro error t ⟨hresult, -⟩
      cases hresult

/-! ### What a reconciled /boot is -/

/-- A system whose /boot has one file a path, read for its version. -/
structure BootSystem extends System where
  paths : (boot.map Prod.fst).Nodup
  read : ∀ file ∈ boot, isEntry file.1 = true →
    file.2.version = entryVersion file.2.content ∨ file.2.version = []

/-- The path is a file of this kernel. -/
def Belongs (file : Text × BootFile) (version : Text) : Prop :=
  file.1 ∈ KERNEL_FILES version ∨ Names file version

structure Reconciled (env : Env) (stamp : Stamp) (record : Record) (s t : System) : Prop where
  entries : ∀ file ∈ t.boot, ∀ version, Names file version →
    isRescue version = true ∨ version ∈ kernelsOf t
  root : t.roots = s.roots
  saved : env.grub = true → ∃ file ∈ t.boot, Names file record.kernel ∧
    t.savedEntry = some (entryId file.1)
  unmoved : ∀ file ∈ s.boot, ∀ version, isRescue version = true ∨ version ∈ kernelsOf s →
    Belongs file version → file ∈ t.boot
  again : (reconcileBoot env stamp record).result t = .ok () ∧
    ∀ u ∈ (reconcileBoot env stamp record).moments t, u = t

/-- What holds when the function returns. -/
def Meets (env : Env) (stamp : Stamp) (record : Record) (s : System) : Prop :=
  (reconcileBoot env stamp record).result s = .ok () →
    Reconciled env stamp record s ((reconcileBoot env stamp record).last s)

/-- No kernel that goes has two entries, or the restored kernel is missing or
has none. -/
def OneEntryEach (record : Record) (s : System) : Prop :=
  record.kernel ∈ kernelsOf s → (∃ file ∈ s.boot, Names file record.kernel) →
    ∀ version, isRescue version = false → version ∉ kernelsOf s →
      ∀ file ∈ s.boot, ∀ other ∈ s.boot, Names file version → Names other version →
        file.1 = other.1

section

variable {s : BootSystem}

theorem eq_of_path {file other : Text × BootFile} (hfile : file ∈ s.boot) (hother : other ∈ s.boot)
    (h : file.1 = other.1) : file = other := List.inj_on_of_nodup_map s.paths hfile hother h

/-- The files of kept and rescue kernels stay. -/
theorem mem_bootLeft {file : Text × BootFile} (hfile : file ∈ s.boot) {version : Text}
    (hstays : isRescue version = true ∨ version ∈ kernelsOf s.toSystem)
    (hbelongs : Belongs file version) : file ∈ bootLeft s.toSystem := by
  apply List.mem_filter.mpr
  refine ⟨hfile, decide_eq_true ?_⟩
  rw [mem_retired]
  rintro ⟨entry, hentry, hrescue, hkept, hpath⟩
  have hother : entry.1 ≠ version := by
    rintro rfl
    rcases hstays with hstays | hstays
    · rw [hrescue] at hstays
      cases hstays
    · exact hkept hstays
  obtain ⟨named, hnamed, hnames, hsame⟩ := names_of_mem_bootEntries hentry
  rcases hbelongs with hkernel | hentryFile
  · rcases hpath with hpath | hpath
    · have hnot := kernelFiles_not_entry hkernel
      rw [hpath, ← hsame, hnames.1] at hnot
      cases hnot
    · exact hother (kernelFiles_apart hpath hkernel)
  · rcases hpath with hpath | hpath
    · have heq := eq_of_path hfile hnamed (hpath.trans hsame.symm)
      rw [← heq] at hnames
      exact hother (hnames.2.1.symm.trans hentryFile.2.1)
    · have hnot := kernelFiles_not_entry hpath
      rw [hentryFile.1] at hnot
      cases hnot

/-- Of a kernel that goes, the entry that was listed is moved. -/
theorem retired_iff {file : Text × BootFile} (hfile : file ∈ s.boot) {version : Text}
    (hnames : Names file version) (hrescue : isRescue version = false)
    (hkept : version ∉ kernelsOf s.toSystem) :
    file ∉ bootLeft s.toSystem ↔ (version, file.1) ∈ bootEntries s.boot := by
  have hleft : file ∉ bootLeft s.toSystem ↔
      file.1 ∈ retired (kernelsOf s.toSystem) (bootEntries s.boot) := by
    simp [bootLeft, List.mem_filter, hfile]
  rw [hleft, mem_retired]
  constructor
  · rintro ⟨entry, hentry, -, -, hpath⟩
    obtain ⟨named, hnamed, hother, hsame⟩ := names_of_mem_bootEntries hentry
    rcases hpath with hpath | hpath
    · have heq := eq_of_path hfile hnamed (hpath.trans hsame.symm)
      rw [← heq] at hother
      rw [← hnames.2.1, hother.2.1, hpath]
      exact hentry
    · have hnot := kernelFiles_not_entry hpath
      rw [hnames.1] at hnot
      cases hnot
  · intro hentry
    exact ⟨_, hentry, hrescue, hkept, Or.inl rfl⟩

/-- The function returns when the restored kernel is there and has an entry. -/
theorem returns_iff (env : Env) (stamp : Stamp) (record : Record) :
    (reconcileBoot env stamp record).result s.toSystem = .ok () ↔
      record.kernel ∈ kernelsOf s.toSystem ∧ ∃ file ∈ s.boot, Names file record.kernel := by
  have hends := (reconcileBoot_ends env stamp record s.toSystem).2
  constructor
  · intro hresult
    obtain ⟨path, hpath, -⟩ := hends.entry hresult
    obtain ⟨file, hfile, hnames, -⟩ := names_of_mem_bootEntries hpath
    exact ⟨hends.kernel hresult, file, List.mem_of_mem_filter hfile, hnames⟩
  · rintro ⟨hkernel, file, hfile, hnames⟩
    cases hresult : (reconcileBoot env stamp record).result s.toSystem with
    | ok value => rfl
    | error error =>
        have hleft := mem_bootLeft hfile (Or.inr hkernel) (Or.inr hnames)
        obtain ⟨path, hpath⟩ := mem_bootEntries_of_names hleft hnames
        rcases hends.error error hresult with hmissing | hmissing
        · exact absurd hkernel hmissing
        · exact absurd (List.mem_map.mpr ⟨_, hpath, rfl⟩) hmissing

end

/-- A second run has nothing to do where only rescue and kept kernels have
entries. -/
theorem reconcileBoot_again (env : Env) (stamp : Stamp) (record : Record) {t : System}
    (hkernel : record.kernel ∈ kernelsOf t)
    (hentries : ∀ file ∈ t.boot, ∀ version, Names file version →
      isRescue version = true ∨ version ∈ kernelsOf t)
    {path : Text} (hpath : (record.kernel, path) ∈ bootEntries t.boot)
    (htells : tells env.grub path t) :
    (reconcileBoot env stamp record).Leads (fun _ u => u = t)
      (fun result u => result = .ok () ∧ u = t) t := by
  unfold reconcileBoot
  have hkept : ¬ record.kernel ∉ ((t.roots .root).map Subvolume.kernels).getD [] :=
    not_not.mpr hkernel
  rw [leads_look_bind, if_neg hkept, leads_look_bind]
  have hloop : (forEach (bootEntries t.boot) fun entry =>
      if isRescue entry.1 || entry.1 ∈ kernelsOf t then pure ()
      else forEach (entry.2 :: KERNEL_FILES entry.1) (retireFile stamp)).Leads (fun _ u => u = t)
      (fun result u => result = .ok () ∧ id u = (bootEntries t.boot).foldl (fun u _ => u) (id t))
      t := by
    apply leads_forEach_foldl
    intro entry hentry u
    obtain ⟨file, hfile, hnames, -⟩ := names_of_mem_bootEntries hentry
    have hstays : (isRescue entry.1 || entry.1 ∈ kernelsOf t) = true := by
      simpa using hentries file hfile entry.1 hnames
    rw [if_pos hstays, leads_pure]
    exact ⟨rfl, rfl⟩
  refine Leads.bind hloop ?_ ?_
  · rintro _ u ⟨-, hu⟩
    have hsame : u = t := by
      rw [id_eq, id_eq, List.foldl_fixed] at hu
      exact hu
    rw [hsame, leads_look_bind, Dict.lookup_of_mem (nodup_bootEntries t.boot) hpath]
    cases hgrub : env.grub with
    | false => simp
    | true =>
        obtain ⟨hsaved, hnext⟩ := htells hgrub
        have hfirst : { t with savedEntry := some (entryId path) } = t := by rw [← hsaved]
        have hsecond : { t with nextEntry := none } = t := by rw [← hnext]
        simp only [if_true, leads_effect_bind, leads_effect, hfirst, hsecond]
        exact ⟨trivial, trivial, trivial, trivial⟩
  · rintro error u ⟨hresult, -⟩
    cases hresult

/-- When every entry left in /boot can be booted. -/
theorem reconcileBoot_meets (env : Env) (stamp : Stamp) (record : Record) (s : BootSystem) :
    Meets env stamp record s.toSystem ↔ OneEntryEach record s.toSystem := by
  have hends := (reconcileBoot_ends env stamp record s.toSystem).2
  constructor
  · intro hmeets hkernel hentry version hrescue hkept file hfile other hother hnames hothers
    have hresult := (returns_iff env stamp record).mpr ⟨hkernel, hentry⟩
    have hreconciled := hmeets hresult
    have hlisted : ∀ file ∈ s.boot, Names file version →
        (version, file.1) ∈ bootEntries s.boot := by
      intro file hfile hnames
      apply (retired_iff hfile hnames hrescue hkept).mp
      intro hleft
      rw [← hends.boot hresult] at hleft
      rcases hreconciled.entries file hleft version hnames with hstays | hstays
      · rw [hrescue] at hstays
        cases hstays
      · rw [kernelsOf, hends.roots] at hstays
        exact hkept hstays
    have hpair := List.inj_on_of_nodup_map (nodup_bootEntries s.boot) (hlisted file hfile hnames)
      (hlisted other hother hothers) rfl
    exact congrArg Prod.snd hpair
  · intro hone hresult
    have hboot := hends.boot hresult
    have hkernels : kernelsOf ((reconcileBoot env stamp record).last s.toSystem) =
        kernelsOf s.toSystem := by
      rw [kernelsOf, hends.roots, kernelsOf]
    obtain ⟨hkernel, hentry⟩ := (returns_iff env stamp record).mp hresult
    have hentries : ∀ file ∈ bootLeft s.toSystem, ∀ version, Names file version →
        isRescue version = true ∨ version ∈ kernelsOf s.toSystem := by
      intro file hleft version hnames
      have hfile : file ∈ s.boot := List.mem_of_mem_filter hleft
      by_contra hgoes
      rw [not_or, Bool.not_eq_true] at hgoes
      obtain ⟨path, hpath⟩ := mem_bootEntries_of_names hfile hnames
      obtain ⟨other, hother, hothers, hsame⟩ := names_of_mem_bootEntries hpath
      have hsingle := hone hkernel hentry version hgoes.1 hgoes.2 file hfile other hother hnames
        hothers
      have hlisted : path = file.1 := hsame.symm.trans hsingle.symm
      rw [hlisted] at hpath
      exact (retired_iff hfile hnames hgoes.1 hgoes.2).mpr hpath hleft
    obtain ⟨path, hpath, htells⟩ := hends.entry hresult
    have hagain := reconcileBoot_again env stamp record (hkernels ▸ hkernel)
      (by rw [hboot, hkernels]; exact hentries) (hboot ▸ hpath) htells
    constructor
    · rw [hboot, hkernels]
      exact hentries
    · exact hends.roots
    · intro hgrub
      obtain ⟨file, hfile, hnames, hsame⟩ := names_of_mem_bootEntries hpath
      rw [hboot]
      exact ⟨file, hfile, hnames, hsame ▸ (htells hgrub).1⟩
    · intro file hfile version hstays hbelongs
      rw [hboot]
      exact mem_bootLeft hfile hstays hbelongs
    · exact ⟨hagain.2.1, hagain.moments_of⟩

/-! ### Two entries for one kernel -/

def entryFile (version : Text) : BootFile :=
  ⟨version, ascii "title Fedora\nversion " ++ version ++ ascii "\n"⟩

def secondEntry : Text × BootFile :=
  (ascii "loader/entries/debug-6.1.0.conf", entryFile (ascii "6.1.0"))

def twoFiles : List (Text × BootFile) :=
  [(ascii "loader/entries/abc-6.1.0.conf", entryFile (ascii "6.1.0")), secondEntry,
    (ascii "loader/entries/abc-6.2.0.conf", entryFile (ascii "6.2.0")),
    (ascii "vmlinuz-6.1.0", ⟨[], []⟩), (ascii "vmlinuz-6.2.0", ⟨[], []⟩)]

theorem twoFiles_paths : (twoFiles.map Prod.fst).Nodup := by
  decide +kernel

theorem twoFiles_read : ∀ file ∈ twoFiles, isEntry file.1 = true →
    file.2.version = entryVersion file.2.content ∨ file.2.version = [] := by
  decide +kernel

def twoEntries : BootSystem where
  roots
    | .root => some ⟨1, [ascii "6.2.0"], []⟩
    | _ => none
  points := []
  records := []
  boot := twoFiles
  staging := []
  backups := []
  savedEntry := none
  nextEntry := none
  nextUuid := 2
  paths := twoFiles_paths
  read := twoFiles_read

def booting : Env := ⟨fun _ _ => true, fun _ => true, fun _ => false, true⟩

def restored : Record := ⟨ascii "20260901T120000Z-1", ascii "6.2.0", .swapped, [], some 1, some 1⟩

theorem secondEntry_stays : ¬ Meets booting 0 restored twoEntries.toSystem := by
  intro h
  have hreturns : (reconcileBoot booting 0 restored).result twoEntries.toSystem = .ok () := rfl
  have hleft : secondEntry ∈ ((reconcileBoot booting 0 restored).last twoEntries.toSystem).boot := by
    decide +kernel
  rcases (h hreturns).entries secondEntry hleft (ascii "6.1.0") (by decide +kernel) with
    hrescue | hkept
  · exact absurd hrescue (by decide +kernel)
  · exact absurd hkept (by decide +kernel)

end Snapshot

end CybexOS
