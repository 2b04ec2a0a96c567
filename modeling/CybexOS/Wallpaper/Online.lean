/-
Picked wallpapers of the online view (`OnlineWallpapers.qml`): one download at a
time, the picks that wait for it, and what becomes the wallpaper.
-/
import CybexOS.Json.Term
import CybexOS.Text
import CybexOS.Utf8
import Mathlib.Data.List.DropRight

namespace CybexOS

namespace Wallpaper

/-! ### File names -/

/-- The bytes of the escapes that a text starts with. -/
def escapedBytes : Text → Text
  | 37 :: high :: low :: rest =>
      match Json.hexValue high, Json.hexValue low with
      | some first, some second => (16 * first + second) :: escapedBytes rest
      | _, _ => []
  | _ => []

/-- Decode after skipping what is left of the last escapes. -/
def decodeFrom : ℕ → Text → Option Text
  | _, [] => some []
  | skip + 1, _ :: rest => decodeFrom skip rest
  | 0, c :: rest =>
      if c = 37 then
        (Utf8.firstChar (escapedBytes (c :: rest))).bind fun r =>
          (decodeFrom (3 * r.2 + 2) rest).map fun s => r.1 :: s
      else (decodeFrom 0 rest).map fun s => c :: s

/-- `decodeURIComponent`, if the escapes are well formed. -/
def decodeURIComponent (s : Text) : Option Text := decodeFrom 0 s

/-- `Wallpaper.basename` -/
def basename (path : Text) : Text :=
  let raw := path.rtakeWhile fun c => c ≠ 47
  (decodeURIComponent raw).getD raw

theorem decodeURIComponent_plain {s : Text} (h : 37 ∉ s) : decodeURIComponent s = some s := by
  unfold decodeURIComponent
  induction s with
  | nil => rfl
  | cons c rest ih =>
      have hc : c ≠ 37 := fun heq => h (heq ▸ List.mem_cons_self)
      unfold decodeFrom
      rw [if_neg hc, ih fun hmem => h (List.mem_cons_of_mem c hmem)]
      rfl

theorem rtakeWhile_name {name : Text} (h : 47 ∉ name) :
    name.rtakeWhile (fun c => c ≠ 47) = name := by
  refine List.rtakeWhile_eq_self_iff.mpr fun c hc => decide_eq_true fun heq => ?_
  exact h (heq ▸ hc)

theorem rtakeWhile_path {directory name : Text} (h : 47 ∉ name) :
    (directory ++ 47 :: name).rtakeWhile (fun c => c ≠ 47) = name := by
  induction name using List.reverseRecOn with
  | nil => exact List.rtakeWhile_concat_neg (fun c => decide (c ≠ 47)) directory 47 (by decide)
  | append_singleton name c ih =>
      have hname : 47 ∉ name := fun hmem => h (List.mem_append_left _ hmem)
      have hc : decide (c ≠ 47) = true :=
        decide_eq_true fun heq => h (heq ▸ List.mem_append_right _ List.mem_cons_self)
      have hsplit : directory ++ 47 :: (name ++ [c]) = (directory ++ 47 :: name) ++ [c] := by simp
      rw [hsplit, List.rtakeWhile_concat_pos (fun c => decide (c ≠ 47)) _ _ hc, ih hname]

theorem basename_name {name : Text} (hslash : 47 ∉ name) (hpercent : 37 ∉ name) :
    basename name = name := by
  unfold basename
  dsimp only
  rw [rtakeWhile_name hslash, decodeURIComponent_plain hpercent]
  rfl

theorem basename_path {directory name : Text} (hslash : 47 ∉ name) (hpercent : 37 ∉ name) :
    basename (directory ++ 47 :: name) = name := by
  unfold basename
  dsimp only
  rw [rtakeWhile_path hslash, decodeURIComponent_plain hpercent]
  rfl

/-! ### Items -/

inductive Extension where
  | jpg
  | png
deriving DecidableEq

def Extension.text : Extension → Text
  | .jpg => ascii "jpg"
  | .png => ascii "png"

/-- A unit of `[a-z0-9]`. -/
def isIdUnit (c : ℕ) : Bool := isLower c || isDigit c

/-- An item as `parseItem` accepts it. -/
structure Item where
  id : Text
  extension : Extension
  /-- `/^[a-z0-9]{1,16}$/` -/
  valid : id ≠ [] ∧ id.length ≤ 16 ∧ id.all isIdUnit = true
deriving DecidableEq

def Item.fileName (item : Item) : Text :=
  ascii "wallhaven-" ++ item.id ++ 46 :: item.extension.text

theorem Item.not_mem_fileName (item : Item) {c : ℕ} (hunit : isIdUnit c = false)
    (hlead : c ∉ ascii "wallhaven-") (hdot : c ≠ 46) (hjpg : c ∉ ascii "jpg")
    (hpng : c ∉ ascii "png") : c ∉ item.fileName := by
  intro hmem
  rcases List.mem_append.mp hmem with hmem | hmem
  · rcases List.mem_append.mp hmem with hmem | hmem
    · exact hlead hmem
    · have hid := List.all_eq_true.mp item.valid.2.2 c hmem
      exact Bool.false_ne_true (hunit.symm.trans hid)
  · rcases List.mem_cons.mp hmem with heq | hmem
    · exact hdot heq
    · unfold Extension.text at hmem
      split at hmem
      · exact hjpg hmem
      · exact hpng hmem

theorem basename_fileName (item : Item) : basename item.fileName = item.fileName :=
  basename_name (item.not_mem_fileName (by decide) (by decide) (by decide) (by decide) (by decide))
    (item.not_mem_fileName (by decide) (by decide) (by decide) (by decide) (by decide))

theorem basename_saved (directory : Text) (item : Item) :
    basename (directory ++ 47 :: item.fileName) = item.fileName :=
  basename_path (item.not_mem_fileName (by decide) (by decide) (by decide) (by decide) (by decide))
    (item.not_mem_fileName (by decide) (by decide) (by decide) (by decide) (by decide))

theorem Item.eq_of_fileName {first second : Item} (hid : first.id = second.id)
    (h : first.fileName = second.fileName) : first = second := by
  obtain ⟨id, extension, valid⟩ := first
  obtain ⟨id', extension', valid'⟩ := second
  obtain rfl : id = id' := hid
  have htext : extension.text = extension'.text :=
    (List.cons.inj (List.append_cancel_left h)).2
  have hsame : extension = extension' := by
    revert htext
    cases extension <;> cases extension' <;> decide
  subst hsame
  rfl

/-! ### The download -/

/-- `DOWNLOAD_ERRORS` -/
def DOWNLOAD_ERRORS : List (Text × Text) :=
  [(ascii "url", ascii "The download address was not a Wallhaven image."),
    (ascii "network", ascii "The download failed. Check your connection and try again."),
    (ascii "http", ascii "Wallhaven refused the download. Try again later."),
    (ascii "type", ascii "The download was not a JPEG or PNG image."),
    (ascii "size", ascii "The download was incomplete or larger than expected."),
    (ascii "write",
      ascii "The wallpaper folder is not writable. Choose another folder in Library."),
    (ascii "interrupted", ascii "The download was cancelled.")]

/-- `WallhavenHelpers.downloadError` -/
def downloadErrorText (code : Text) : Text :=
  ((DOWNLOAD_ERRORS.find? fun entry => entry.1 = code).map Prod.snd).getD
    (ascii "The download failed.")

theorem downloadErrorText_ne_nil (code : Text) : downloadErrorText code ≠ [] := by
  unfold downloadErrorText
  cases hfound : DOWNLOAD_ERRORS.find? fun entry => entry.1 = code with
  | none => decide
  | some entry =>
      have hall : ∀ entry ∈ DOWNLOAD_ERRORS, entry.2 ≠ [] := by decide
      exact hall entry (List.mem_of_find?_eq_some hfound)

/-- The line that ends the helper's output. -/
inductive Verdict where
  | done (path : Text)
  | failed (code : Text)
deriving DecidableEq

/-- The download, with every pick that was made, every file name that was set as
the wallpaper after so many picks, and the item for which the folder has changed
while it was downloading. -/
structure Downloads where
  /-- `Wallpaper.dir` -/
  dir : Text
  /-- The names of `Wallpaper.files`. -/
  saved : List Text
  downloadItem : Option Item
  downloadDir : Text
  pendingItem : Option Item
  downloadProgress : ℤ
  downloadResult : Option Verdict
  downloadError : Text
  failedId : Text
  /-- `downloadProc.running` -/
  running : Bool
  /-- `Qt.callLater(startPending)` -/
  deferred : Bool
  picks : List Item
  sets : List (ℕ × Text)
  moved : Option Item

namespace Downloads

def downloadingId (s : Downloads) : Text := (s.downloadItem.map Item.id).getD []

/-- `Wallpaper.set` -/
def set (s : Downloads) (path : Text) : Downloads :=
  { s with sets := s.sets ++ [(s.picks.length, basename path)] }

def startPending (s : Downloads) : Downloads :=
  let cleared : Downloads := { s with pendingItem := none }
  match s.pendingItem with
  | none => cleared
  | some item =>
      if s.running then cleared
      else if item.fileName ∈ s.saved then cleared.set item.fileName
      else
        { cleared with
          downloadItem := some item
          downloadDir := s.dir
          downloadProgress := 0
          downloadResult := none
          running := true
          moved := none }

def apply (s : Downloads) (item : Item) : Downloads :=
  if item.id = s.downloadingId then s
  else
    let cleared : Downloads := { s with downloadError := [], failedId := [] }
    if item.fileName ∈ s.saved ∧ s.running = false then cleared.set item.fileName
    else
      let waiting : Downloads := { cleared with pendingItem := some item }
      -- A running helper is told to end, and runs until it has.
      if s.running then waiting else waiting.startPending

def finishDownload (s : Downloads) : Downloads :=
  let settled : Downloads :=
    { s with downloadItem := none, downloadResult := none, downloadDir := [] }
  if s.pendingItem ≠ none then { settled with deferred := true }
  else
    match s.downloadResult with
    | some (.done path) => if s.downloadDir = s.dir then settled.set path else settled
    | other =>
        { settled with
          failedId := s.downloadingId
          downloadError := downloadErrorText (match other with
            | some (.failed code) => code
            | _ => []) }

/-- The falling edge of `running`. -/
def exit (s : Downloads) : Downloads :=
  let ended : Downloads := { s with running := false }
  if s.running = true ∧ s.downloadItem ≠ none then ended.finishDownload else ended

end Downloads

/-- A line of the helper; one that is done has saved the file of its item. -/
inductive Line where
  | progress (value : ℤ)
  | done (directory : Text)
  | failed (code : Text)
  | other

inductive Event where
  | applies (item : Item)
  | prints (line : Line)
  | exits
  | startsDeferred
  | folderChanges (dir : Text) (saved : List Text)

namespace Downloads

/-- `onRead` -/
def read (s : Downloads) (item : Item) : Line → Downloads
  | .progress value =>
      if 0 ≤ value ∧ value ≤ 100 then { s with downloadProgress := value } else s
  | .done directory =>
      { s with downloadResult := some (.done (directory ++ 47 :: item.fileName)) }
  | .failed code => { s with downloadResult := some (.failed code) }
  | .other => s

def step (s : Downloads) : Event → Downloads
  | .applies item => ({ s with picks := s.picks ++ [item] } : Downloads).apply item
  | .prints line =>
      match s.downloadItem with
      | some item => if s.running then s.read item line else s
      | none => s
  | .exits => s.exit
  | .startsDeferred =>
      if s.deferred then ({ s with deferred := false } : Downloads).startPending else s
  | .folderChanges dir saved =>
      { s with
        dir := dir
        saved := saved
        moved := if dir = s.dir then s.moved else s.downloadItem.or s.moved }

end Downloads

/-- Before any pick. -/
def opened (dir : Text) (saved : List Text) : Downloads :=
  ⟨dir, saved, none, [], none, 0, none, [], [], false, false, [], [], none⟩

end Wallpaper

end CybexOS
