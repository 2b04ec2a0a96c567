/-
`fingerprint` of `plugin_packages.py`: the digest that stands for the code of a
package, and the trees that it does not tell apart.
-/
import CybexOS.Dict
import CybexOS.Utf8
import Mathlib.Data.List.Sort

namespace CybexOS

namespace Plugins

/-- What a name of a directory stands for. -/
inductive Node where
  | file (content : Text)
  /-- With whether it leads to a directory. -/
  | link (target : Text) (toDirectory : Bool)
  /-- A FIFO, a socket or a device. -/
  | special
  | dir (entries : List (Text × Node))

/-- Induction with the hypothesis for everything in a directory. -/
@[induction_eliminator]
theorem Node.induct {motive : Node → Prop} (file : ∀ content, motive (.file content))
    (link : ∀ target toDirectory, motive (.link target toDirectory)) (special : motive .special)
    (dir : ∀ entries, (∀ entry ∈ entries, motive entry.2) → motive (.dir entries))
    (node : Node) : motive node :=
  @Node.rec motive (fun entries => ∀ entry ∈ entries, motive entry.2) (fun entry => motive entry.2)
    file link special dir
    (by simp) (fun _ _ hhead htail => List.forall_mem_cons.mpr ⟨hhead, htail⟩)
    (fun _ _ hnode => hnode) node

def GIT : Text := ascii ".git"

/-- Names that a directory can have. -/
def validName (name : Text) : Bool :=
  name ≠ [] ∧ name ≠ ascii "." ∧ name ≠ ascii ".." ∧ 47 ∉ name ∧ 0 ∉ name

inductive Node.Valid : Node → Prop
  | file (content : Text) : Valid (.file content)
  | link (target : Text) (toDirectory : Bool) : Valid (.link target toDirectory)
  | special : Valid .special
  | dir (entries : List (Text × Node)) : (entries.map (·.1)).Nodup →
      (∀ entry ∈ entries, validName entry.1 = true) → (∀ entry ∈ entries, entry.2.Valid) →
      Valid (.dir entries)

/-- A directory. -/
structure Tree where
  entries : List (Text × Node)
  valid : (Node.dir entries).Valid

/-! ### The digest -/

/-- What is hashed at a path. -/
inductive Leaf where
  | file (content : Text)
  | link (target : Text)
deriving DecidableEq

structure Found where
  path : List Text
  leaf : Leaf
deriving DecidableEq

/-- What `os.walk` lists in `dirs`; links to directories are there too, but are not
followed. -/
def Node.isDir : Node → Bool
  | .dir _ => true
  | .link _ toDirectory => toDirectory
  | _ => false

/-- What is hashed of an item in `files`. -/
def Node.leaf : Node → Option Leaf
  | .file content => some (.file content)
  | .link target false => some (.link target)
  | _ => none

/-- `sorted` by name. -/
def sortNames {α : Type} (items : List (Text × α)) : List (Text × α) :=
  items.insertionSort fun a b => a.1 ≤ b.1

def walkFiles (path : List Text) (entries : List (Text × Node)) : List Found :=
  (sortNames (entries.filterMap fun entry => entry.2.leaf.map fun leaf => (entry.1, leaf))).map
    fun item => ⟨path ++ [item.1], item.2⟩

mutual

/-- What is hashed below a path, in the order of `os.walk`. -/
def Node.walk (path : List Text) : Node → List Found
  | .dir entries =>
      walkFiles path entries ++ (sortNames (walkDirs path entries)).flatMap (·.2)
  | _ => []

def walkDirs (path : List Text) : List (Text × Node) → List (Text × List Found)
  | [] => []
  | (name, node) :: entries =>
      if node.isDir ∧ name ≠ GIT then
        (name, Node.walk (path ++ [name]) node) :: walkDirs path entries
      else walkDirs path entries

end

def Tree.walk (tree : Tree) : List Found := Node.walk [] (.dir tree.entries)

/-- `str(path.relative_to(directory))` -/
def pathText (path : List Text) : Text := List.intercalate [47] path

def Leaf.bytes : Leaf → Option Text
  | .file content => some content
  | .link target => Utf8.encode target

/-- The bytes of one round, `none` where `encode` raises. -/
def Found.update (found : Found) : Option Text := do
  let name ← Utf8.encode (pathText found.path)
  let content ← found.leaf.bytes
  pure (name ++ content)

/-- All bytes that are hashed. -/
def digested (found : List Found) : Option Text := (found.mapM Found.update).map List.flatten

def fingerprint (sha256 : Text → Text) (tree : Tree) : Option Text :=
  (digested tree.walk).map sha256

/-! ### The code of a package -/

/-- The regular file or symbolic link of a relative path that is in no `.git`. -/
def leafAt : List Text → List (Text × Node) → Option Leaf
  | [], _ => none
  | [name], entries =>
      match entries.lookup name with
      | some (.file content) => some (.file content)
      | some (.link target _) => some (.link target)
      | _ => none
  | name :: rest, entries =>
      if name = GIT then none
      else
        match entries.lookup name with
        | some (.dir inner) => leafAt rest inner
        | _ => none

def SameCode (tree other : Tree) : Prop :=
  ∀ path, leafAt path tree.entries = leafAt path other.entries

/-- No other code has the fingerprint of this tree. -/
def Identified (sha256 : Text → Text) (tree : Tree) : Prop :=
  ∀ (other : Tree) (digest : Text), fingerprint sha256 tree = some digest →
    fingerprint sha256 other = some digest → SameCode tree other

/-! ### What is hashed -/

/-- A path or the target of a link that has no UTF-8 form. -/
def Found.Unencodable (found : Found) : Prop :=
  Utf8.encode (pathText found.path) = none ∨
    ∃ target, found.leaf = .link target ∧ Utf8.encode target = none

theorem Found.update_eq_none {found : Found} : found.update = none ↔ found.Unencodable := by
  unfold update Unencodable
  cases hname : Utf8.encode (pathText found.path) with
  | none => simp
  | some name =>
      cases hleaf : found.leaf with
      | file content => simp [Leaf.bytes]
      | link target => cases htarget : Utf8.encode target <;> simp [Leaf.bytes, htarget]

theorem digested_cons (found : Found) (others : List Found) :
    digested (found :: others) =
      found.update.bind fun bytes => (digested others).map (bytes ++ ·) := by
  unfold digested
  rw [List.mapM_cons]
  cases found.update with
  | none => rfl
  | some bytes => cases others.mapM Found.update <;> rfl

theorem digested_eq_none {found : List Found} :
    digested found = none ↔ ∃ one ∈ found, one.Unencodable := by
  induction found with
  | nil => simp [digested]
  | cons one others ih =>
      rw [digested_cons, List.exists_mem_cons_iff, ← ih, ← Found.update_eq_none]
      cases one.update with
      | none => simp
      | some bytes => simp

theorem flatMap_orderedInsert {α β : Type} {le : α → α → Prop} [DecidableRel le]
    {pick : α → List β} {item : α} (h : pick item = []) (items : List α) :
    (items.orderedInsert le item).flatMap pick = items.flatMap pick := by
  induction items with
  | nil => simp [h]
  | cons first rest ih =>
      rw [List.orderedInsert_cons]
      split_ifs
      · rw [List.flatMap_cons, h, List.nil_append]
      · rw [List.flatMap_cons, List.flatMap_cons, ih]

/-! ### A further link -/

/-- A name that is longer than all others. -/
def freshName (entries : List (Text × Node)) : Text :=
  List.replicate ((entries.map (·.1)).flatten.length + 1) 97

theorem freshName_notMem (entries : List (Text × Node)) :
    freshName entries ∉ entries.map (·.1) := by
  intro h
  have hle := (List.sublist_flatten_of_mem h).length_le
  rw [freshName, List.length_replicate] at hle
  exact Nat.not_succ_le_self _ hle

theorem validName_freshName (entries : List (Text × Node)) :
    validName (freshName entries) = true := by
  unfold freshName
  rw [List.replicate_succ]
  have hne : ∀ c ∈ (97 :: List.replicate (entries.map (·.1)).flatten.length 97 : Text), c = 97 := by
    intro c hc
    rcases List.mem_cons.mp hc with rfl | hc
    · rfl
    · exact List.eq_of_mem_replicate hc
  refine decide_eq_true ⟨by simp, fun h => ?_, fun h => ?_, fun h => ?_, fun h => ?_⟩
  · cases (List.cons.inj h).1
  · cases (List.cons.inj h).1
  · cases hne 47 h
  · cases hne 0 h

theorem freshName_ne_git (entries : List (Text × Node)) : freshName entries ≠ GIT := by
  unfold freshName
  rw [List.replicate_succ]
  intro h
  cases (List.cons.inj h).1

/-- The tree with one more link, which leads to the directory it stands in. -/
def Tree.withLink (tree : Tree) : Tree where
  entries := (freshName tree.entries, .link (ascii ".") true) :: tree.entries
  valid := by
    cases tree.valid with
    | dir _ hnodup hnames hvalid =>
        refine .dir _ ?_ ?_ ?_
        · rw [List.map_cons, List.nodup_cons]
          exact ⟨freshName_notMem _, hnodup⟩
        · exact List.forall_mem_cons.mpr ⟨validName_freshName _, hnames⟩
        · exact List.forall_mem_cons.mpr ⟨.link _ _, hvalid⟩

theorem Tree.walk_withLink (tree : Tree) : tree.withLink.walk = tree.walk := by
  have hfresh := freshName_ne_git tree.entries
  have hdirs : walkDirs [] tree.withLink.entries =
      (freshName tree.entries, []) :: walkDirs [] tree.entries := by
    unfold withLink
    rw [walkDirs, if_pos ⟨rfl, hfresh⟩]
    rfl
  unfold walk
  rw [Node.walk, Node.walk, hdirs]
  unfold sortNames
  rw [List.insertionSort_cons, flatMap_orderedInsert rfl]
  rfl

theorem Tree.not_sameCode_withLink (tree : Tree) : ¬ SameCode tree tree.withLink := by
  intro h
  have hsame := h [freshName tree.entries]
  have hnone : tree.entries.lookup (freshName tree.entries) = none := by
    rw [List.lookup_eq_none_iff]
    intro entry hentry
    have hne : freshName tree.entries ≠ entry.1 := fun heq =>
      freshName_notMem tree.entries (heq ▸ List.mem_map_of_mem hentry)
    exact bne_iff_ne.mpr hne
  unfold leafAt withLink at hsame
  rw [hnone, List.lookup_cons_self] at hsame
  cases hsame

/-! ### One file -/

/-- The directories down to one regular file. -/
def single : List Text → Text → List (Text × Node)
  | [], _ => []
  | [name], content => [(name, .file content)]
  | name :: next :: rest, content => [(name, .dir (single (next :: rest) content))]

/-- A path that the walk can reach. -/
structure Walked (path : List Text) : Prop where
  ne_nil : path ≠ []
  names : ∀ name ∈ path, validName name = true
  dirs : ∀ name ∈ path.dropLast, name ≠ GIT

theorem Walked.tail {name next : Text} {rest : List Text} (h : Walked (name :: next :: rest)) :
    name ≠ GIT ∧ Walked (next :: rest) where
  left := h.dirs name (by simp)
  right :=
    { ne_nil := by simp
      names := fun other hother => h.names other (List.mem_cons_of_mem _ hother)
      dirs := fun other hother => h.dirs other (by
        rw [List.dropLast_cons_of_ne_nil (by simp)]
        exact List.mem_cons_of_mem _ hother) }

theorem single_valid {path : List Text} (h : Walked path) (content : Text) :
    (Node.dir (single path content)).Valid := by
  induction path with
  | nil => exact absurd rfl h.ne_nil
  | cons name rest ih =>
      have hname := h.names name List.mem_cons_self
      cases rest with
      | nil =>
          exact .dir _ (List.nodup_singleton _) (by simpa [single] using hname)
            (by simpa [single] using Node.Valid.file content)
      | cons next rest =>
          exact .dir _ (List.nodup_singleton _) (by simpa [single] using hname)
            (by simpa [single] using ih h.tail.2)

theorem walk_single {path : List Text} (h : Walked path) (content : Text) (above : List Text) :
    Node.walk above (.dir (single path content)) = [⟨above ++ path, .file content⟩] := by
  induction path generalizing above with
  | nil => exact absurd rfl h.ne_nil
  | cons name rest ih =>
      cases rest with
      | nil => simp [single, Node.walk, walkFiles, walkDirs, Node.isDir, Node.leaf, sortNames]
      | cons next rest =>
          have hrun := ih h.tail.2 (above ++ [name])
          rw [List.append_assoc, List.singleton_append] at hrun
          have hdirs : walkDirs above [(name, Node.dir (single (next :: rest) content))] =
              [(name, [⟨above ++ name :: next :: rest, .file content⟩])] := by
            rw [walkDirs, if_pos ⟨rfl, h.tail.1⟩, hrun]
            rfl
          rw [single, Node.walk, hdirs]
          simp [walkFiles, Node.leaf, sortNames]

theorem leafAt_single {path : List Text} (h : Walked path) (content : Text) :
    leafAt path (single path content) = some (.file content) := by
  induction path with
  | nil => exact absurd rfl h.ne_nil
  | cons name rest ih =>
      cases rest with
      | nil => simp [single, leafAt]
      | cons next rest =>
          rw [single, leafAt, if_neg h.tail.1, List.lookup_cons_self]
          · exact ih h.tail.2
          · simp

/-! ### What the walk finds -/

theorem mem_walkDirs {above : List Text} {entries : List (Text × Node)}
    {item : Text × List Found} (h : item ∈ walkDirs above entries) :
    ∃ node, (item.1, node) ∈ entries ∧ node.isDir = true ∧ item.1 ≠ GIT ∧
      item.2 = Node.walk (above ++ [item.1]) node := by
  induction entries with
  | nil => cases h
  | cons entry entries ih =>
      obtain ⟨name, node⟩ := entry
      rw [walkDirs] at h
      split_ifs at h with hdir
      · rcases List.mem_cons.mp h with rfl | h
        · exact ⟨node, List.mem_cons_self, hdir.1, hdir.2, rfl⟩
        · obtain ⟨other, hother, hrest⟩ := ih h
          exact ⟨other, List.mem_cons_of_mem _ hother, hrest⟩
      · obtain ⟨other, hother, hrest⟩ := ih h
        exact ⟨other, List.mem_cons_of_mem _ hother, hrest⟩

/-- Everything that is hashed is the code at its path. -/
theorem walk_found {node : Node} (hvalid : node.Valid) {entries : List (Text × Node)}
    (hnode : node = .dir entries) {above : List Text} {found : Found}
    (h : found ∈ Node.walk above node) :
    ∃ path, found.path = above ++ path ∧ Walked path ∧ leafAt path entries = some found.leaf := by
  induction node generalizing entries above with
  | file content => cases hnode
  | link target toDirectory => cases hnode
  | special => cases hnode
  | dir inner ih =>
      cases hnode
      cases hvalid with
      | dir _ hnodup hnames hchildren =>
          rw [Node.walk, List.mem_append] at h
          rcases h with h | h
          · obtain ⟨item, hitem, rfl⟩ := List.mem_map.mp h
            obtain ⟨entry, hentry, hleaf⟩ := List.mem_filterMap.mp
              ((List.mem_insertionSort _).mp hitem)
            obtain ⟨leaf, hleaf, rfl⟩ := Option.map_eq_some_iff.mp hleaf
            refine ⟨[entry.1], rfl, ⟨by simp, ?_, by simp⟩, ?_⟩
            · intro name hname
              rw [List.mem_singleton.mp hname]
              exact hnames entry hentry
            · rw [leafAt, Dict.lookup_of_mem hnodup hentry]
              unfold Node.leaf at hleaf
              split at hleaf <;> cases hleaf <;> rename_i hshape <;> rw [hshape]
          · obtain ⟨item, hitem, hfound⟩ := List.mem_flatMap.mp h
            obtain ⟨child, hchild, hdir, hgit, hwalk⟩ :=
              mem_walkDirs ((List.mem_insertionSort _).mp hitem)
            rw [hwalk] at hfound
            cases hshape : child with
            | file content => rw [hshape] at hdir; cases hdir
            | link target toDirectory =>
                rw [hshape, Node.walk] at hfound
                · cases hfound
                · exact fun _ heq => nomatch heq
            | special => rw [hshape] at hdir; cases hdir
            | dir deeper =>
                obtain ⟨path, hpath, hwalked, hleaf⟩ :=
                  ih _ hchild (hchildren _ hchild) hshape hfound
                obtain ⟨next, rest, rfl⟩ := List.exists_cons_of_ne_nil hwalked.ne_nil
                refine ⟨item.1 :: next :: rest, by rw [hpath, List.append_assoc]; rfl,
                  ⟨by simp, ?_, ?_⟩, ?_⟩
                · exact List.forall_mem_cons.mpr ⟨hnames _ hchild, hwalked.names⟩
                · rw [List.dropLast_cons_of_ne_nil (by simp)]
                  exact List.forall_mem_cons.mpr ⟨hgit, hwalked.dirs⟩
                · rw [leafAt, if_neg hgit, Dict.lookup_of_mem hnodup hchild, hshape]
                  · exact hleaf
                  · simp

theorem Tree.found {tree : Tree} {found : Found} (h : found ∈ tree.walk) :
    Walked found.path ∧ leafAt found.path tree.entries = some found.leaf := by
  obtain ⟨path, hpath, hwalked, hleaf⟩ := walk_found tree.valid rfl h
  rw [List.nil_append] at hpath
  rw [hpath]
  exact ⟨hwalked, hleaf⟩

/-! ### What a fingerprint identifies -/

theorem encode_ne_nil {text bytes : Text} (hne : text ≠ [])
    (h : Utf8.encode text = some bytes) : bytes ≠ [] := by
  unfold Utf8.encode at h
  split_ifs at h
  cases h
  obtain ⟨c, rest, rfl⟩ := List.exists_cons_of_ne_nil hne
  rw [List.flatMap_cons]
  exact List.append_ne_nil_of_left_ne_nil (Utf8.encodeChar_ne_nil c) _

theorem pathText_ne_nil {path : List Text} (h : Walked path) : pathText path ≠ [] := by
  obtain ⟨name, rest, rfl⟩ := List.exists_cons_of_ne_nil h.ne_nil
  have hname : name ≠ [] := by
    have hvalid := h.names name List.mem_cons_self
    exact (of_decide_eq_true hvalid).1
  cases rest with
  | nil => simpa [pathText] using hname
  | cons next rest =>
      rw [pathText, List.intercalate_cons_cons]
      simp [hname]

theorem fingerprint_eq_none {sha256 : Text → Text} {tree : Tree} :
    fingerprint sha256 tree = none ↔ ∃ found ∈ tree.walk, found.Unencodable := by
  rw [fingerprint, Option.map_eq_none_iff, digested_eq_none]

/-- A tree with one regular file has the bytes of all others. -/
theorem single_collides (sha256 : Text → Text) {tree : Tree} {digest : Text}
    (h : fingerprint sha256 tree = some digest) (hne : tree.walk ≠ [])
    (hmore : ∀ path content, tree.walk ≠ [⟨path, .file content⟩]) :
    ∃ (other : Tree) (path : List Text) (content : Text), other.entries = single path content ∧
      fingerprint sha256 other = some digest ∧ ¬ SameCode tree other := by
  obtain ⟨first, others, hwalk⟩ := List.exists_cons_of_ne_nil hne
  obtain ⟨hpath, hleaf⟩ := @Tree.found tree first (by rw [hwalk]; simp)
  rw [fingerprint, hwalk, digested_cons] at h
  obtain ⟨stream, hstream, rfl⟩ := Option.map_eq_some_iff.mp h
  obtain ⟨bytes, hupdate, hrest⟩ := Option.bind_eq_some_iff.mp hstream
  obtain ⟨more, hothers, rfl⟩ := Option.map_eq_some_iff.mp hrest
  obtain ⟨name, hname, hcontent⟩ := Option.bind_eq_some_iff.mp hupdate
  obtain ⟨content, hbytes, heq⟩ := Option.bind_eq_some_iff.mp hcontent
  obtain rfl : name ++ content = bytes := Option.some.inj heq
  refine ⟨⟨single first.path (content ++ more), single_valid hpath _⟩, first.path,
    content ++ more, rfl, ?_, fun hsame => ?_⟩
  · have hother : Tree.walk ⟨single first.path (content ++ more), single_valid hpath _⟩ =
        [⟨first.path, .file (content ++ more)⟩] := walk_single hpath _ []
    rw [fingerprint, hother, digested_cons, Found.update, hname]
    simp [digested, Leaf.bytes]
  · have hcode := hsame first.path
    rw [hleaf, leafAt_single hpath] at hcode
    have hfile : first.leaf = .file (content ++ more) := Option.some.inj hcode
    rw [hfile] at hbytes
    have hmoreNil : more = [] := by
      have hlength := congrArg List.length (Option.some.inj hbytes)
      rw [List.length_append] at hlength
      exact List.length_eq_zero_iff.mp (by omega)
    cases others with
    | nil => exact hmore first.path (content ++ more) (by rw [hwalk, ← hfile])
    | cons second others =>
        obtain ⟨hsecond, -⟩ := @Tree.found tree second (by rw [hwalk]; simp)
        rw [digested_cons] at hothers
        obtain ⟨next, hnext, hlast⟩ := Option.bind_eq_some_iff.mp hothers
        obtain ⟨last, -, rfl⟩ := Option.map_eq_some_iff.mp hlast
        obtain ⟨secondName, hsecondName, hsecondContent⟩ := Option.bind_eq_some_iff.mp hnext
        obtain ⟨secondBytes, -, hnextEq⟩ := Option.bind_eq_some_iff.mp hsecondContent
        have hnil := (List.append_eq_nil_iff.mp hmoreNil).1
        rw [← Option.some.inj hnextEq] at hnil
        exact encode_ne_nil (pathText_ne_nil hsecond) hsecondName (List.append_eq_nil_iff.mp hnil).1

/-- A fingerprint never identifies the code: a link to a directory is not hashed
at all, and paths and contents run into one another. -/
theorem fingerprint_identifies (sha256 : Text → Text) (tree : Tree) :
    (Identified sha256 tree ↔ ∃ found ∈ tree.walk, found.Unencodable) ∧
    ∀ digest, fingerprint sha256 tree = some digest → tree.walk ≠ [] →
      (∀ path content, tree.walk ≠ [⟨path, .file content⟩]) →
      ∃ (other : Tree) (path : List Text) (content : Text), other.entries = single path content ∧
        fingerprint sha256 other = some digest ∧ ¬ SameCode tree other := by
  refine ⟨⟨fun h => ?_, fun h other digest hdigest => ?_⟩, fun digest => single_collides sha256⟩
  · by_contra hnot
    rw [← @fingerprint_eq_none sha256 tree] at hnot
    obtain ⟨digest, hdigest⟩ := Option.ne_none_iff_exists'.mp hnot
    have hsame : fingerprint sha256 tree.withLink = some digest := by
      rw [fingerprint, tree.walk_withLink]
      exact hdigest
    exact tree.not_sameCode_withLink (h _ _ hdigest hsame)
  · rw [fingerprint_eq_none.mpr h] at hdigest
    cases hdigest

/-- A package with one more file beside its manifest and its entry. -/
def packageWith (name content : String) : List (Text × Node) :=
  [(ascii "Main.qml", .file (ascii "Item")), (ascii "manifest.json", .file (ascii "1")),
    (ascii name, .file (ascii content))]

theorem packageWith_valid {name : String} (content : String)
    (h : ((packageWith name content).map (·.1)).Nodup) (hname : validName (ascii name) = true) :
    (Node.dir (packageWith name content)).Valid := by
  refine .dir _ h ?_ ?_
  · intro entry hentry
    simp only [packageWith, List.mem_cons, List.not_mem_nil, or_false] at hentry
    rcases hentry with rfl | rfl | rfl
    · decide
    · decide
    · exact hname
  · intro entry hentry
    simp only [packageWith, List.mem_cons, List.not_mem_nil, or_false] at hentry
    rcases hentry with rfl | rfl | rfl <;> exact .file _

def notesOne : Tree := ⟨packageWith "notes" "1", packageWith_valid "1" (by decide) (by decide)⟩

def notesEmpty : Tree := ⟨packageWith "notes1" "", packageWith_valid "" (by decide) (by decide)⟩

theorem fingerprint_collides :
    fingerprint id notesOne = fingerprint id notesEmpty ∧ fingerprint id notesOne ≠ none ∧
      leafAt [ascii "notes"] notesOne.entries = some (.file (ascii "1")) ∧
      leafAt [ascii "notes"] notesEmpty.entries = none ∧ ¬ SameCode notesOne notesEmpty := by
  have hone : leafAt [ascii "notes"] notesOne.entries = some (.file (ascii "1")) := by decide
  have hnone : leafAt [ascii "notes"] notesEmpty.entries = none := by decide
  refine ⟨by decide +kernel, by decide +kernel, hone, hnone, fun h => ?_⟩
  rw [h [ascii "notes"], hnone] at hone
  cases hone

end Plugins

end CybexOS
