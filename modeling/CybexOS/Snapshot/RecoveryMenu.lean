/-
The boot menu of the recovery points: the kernel arguments of an entry, what is
quoted in it, and the entries of all points.
-/
import CybexOS.Excepts
import CybexOS.Words
import Mathlib.Data.List.Basic

namespace CybexOS

namespace Snapshot

/-! ### Identifiers -/

/-- `ID_PATTERN` -/
def isPoint (id : Text) : Bool :=
  (id.take 8).all isDigit && (id.drop 8).take 1 == ascii "T" &&
    ((id.drop 9).take 6).all isDigit && (id.drop 15).take 2 == ascii "Z-" &&
    !(id.drop 17).isEmpty && (id.drop 17).all isDigit

structure PointId where
  text : Text
  shape : isPoint text = true

/-! ### Lines -/

def isLineEnd (c : ℕ) : Bool :=
  (10 ≤ c && c ≤ 13) || (28 ≤ c && c ≤ 30) || c ∈ [133, 8232, 8233]

/-- `str.splitlines` -/
def splitlines : Text → List Text
  | [] => []
  | 13 :: 10 :: rest => [] :: splitlines rest
  | c :: rest =>
      if isLineEnd c then [] :: splitlines rest
      else
        match splitlines rest with
        | [] => [[c]]
        | line :: lines => (c :: line) :: lines

/-! ### Kernel arguments -/

/-- `c.isspace()` -/
def isSpace (c : ℕ) : Bool :=
  (9 ≤ c && c ≤ 13) || (28 ≤ c && c ≤ 32) || (8192 ≤ c && c ≤ 8202) ||
    c ∈ [133, 160, 5760, 8232, 8233, 8239, 8287, 12288]

/-- `[A-Za-z0-9_.,:/=+@%-]` -/
def isSafe (c : ℕ) : Bool := isAlnum c || c ∈ ascii "_.,:/=+@%-"

/-- `^[…]+$`, behind which `match` lets one newline stand. -/
def matchesLine (allowed : ℕ → Bool) (text : Text) : Bool :=
  let line := if text.getLast? = some 10 then text.dropLast else text
  !line.isEmpty && line.all allowed

def startsWith (text start : Text) : Bool := start.isPrefixOf text

/-- Tokens that are left out without a word. -/
def dropped (token : Text) : Bool :=
  token.contains 36 || token == ascii "ro" || token == ascii "rw" ||
    startsWith token (ascii "BOOT_IMAGE=") || startsWith token (ascii "cybexos.recovery=")

def namesSubvolume (flag : Text) : Bool :=
  startsWith flag (ascii "subvol=") || startsWith flag (ascii "subvolid=")

/-- The flags of a `rootflags=` token that are kept. -/
def flagsOf (token : Text) : List Text :=
  ((token.drop 10).splitOn 44).filter fun flag => !flag.isEmpty && !namesSubvolume flag

structure Kept where
  arguments : List Text
  flags : List Text

/-- One round of the loop. -/
def Kept.take (kept : Kept) (token : Text) : Kept :=
  if dropped token then kept
  else if startsWith token (ascii "rootflags=") then { kept with flags := flagsOf token }
  else if !matchesLine isSafe token then kept
  else { kept with arguments := kept.arguments ++ [token] }

def kept (options : Text) : Kept := (Words.words isSpace options).foldl Kept.take ⟨[], []⟩

def subvolFlag (point : Text) : Text := ascii "subvol=cybexos-snapshots/root/" ++ point

def recoveryArguments (options point : Text) : Option (List Text) :=
  let kept := kept options
  if !kept.arguments.any (startsWith · (ascii "root=")) then none
  else
    some (kept.arguments ++ [ascii "ro",
      ascii "rootflags=" ++ List.intercalate [44] (kept.flags ++ [subvolFlag point]),
      ascii "cybexos.recovery=" ++ point])

/-! ### Menu entries -/

inductive Refusal where
  | unsafeText (value : Text)
deriving DecidableEq

def quote (value : Text) : Except Refusal Text :=
  if value.contains 39 || value.contains 10 then .error (.unsafeText value)
  else .ok ([39] ++ value ++ [39])

/-- `[A-Za-z0-9 ._:+()-]` -/
def isTitle (c : ℕ) : Bool := isAlnum c || c ∈ ascii " ._:+()-"

def slice (text : Text) (first last : ℕ) : Text := (text.take last).drop first

def menuTitle (point description : Text) : Text :=
  let when := slice point 0 4 ++ ascii "-" ++ slice point 4 6 ++ ascii "-" ++ slice point 6 8 ++
    ascii " " ++ slice point 9 11 ++ ascii ":" ++ slice point 11 13 ++ ascii " UTC"
  let plain := description.map fun c => if isTitle c then c else 32
  let clean := trimWith isSpace
    ((List.intercalate [32] (Words.words isSpace plain)).take 60)
  if clean.isEmpty then when else when ++ ascii " - " ++ clean

def isoFromStamp (value : Text) : Text :=
  slice value 0 4 ++ ascii "-" ++ slice value 4 6 ++ ascii "-" ++ slice value 6 8 ++ ascii "T" ++
    slice value 9 11 ++ ascii ":" ++ slice value 11 13 ++ ascii ":" ++ slice value 13 15 ++
    ascii "Z"

/-- The units of `SAFE_PATH` behind its first slash. -/
def isPathUnit (c : ℕ) : Bool := isAlnum c || c ∈ ascii "_.+/-"

/-- `SAFE_PATH.match` -/
def isSafePath (path : Text) : Bool :=
  startsWith path (ascii "/") && matchesLine isPathUnit (path.drop 1)

/-- `SAFE_UUID.match` -/
def isSafeUuid (uuid : Text) : Bool :=
  let line := if uuid.getLast? = some 10 then uuid.dropLast else uuid
  4 ≤ line.length && line.length ≤ 64 && line.all fun c => isAlnum c || c == 45

/-- `Path(path).name` -/
def nameOf (path : Text) : Text :=
  (((path.splitOn 47).filter fun part => !part.isEmpty && part != ascii ".").getLast?).getD []

/-- A boot loader entry, read line by line. -/
structure BootEntry where
  linux : Text
  initrd : List Text
  options : Text
  linux_line : 10 ∉ linux
  initrd_line : ∀ path ∈ initrd, 10 ∉ path

/-- What the menu is made from. -/
structure Machine where
  entries : Text → Option BootEntry
  /-- The names in `/boot` that are files. -/
  isFile : Text → Bool
  supportsRecovery : Text → Bool
  kernelopts : Text
  bootUuid : Text
  bootModule : Text
  withMenu : Bool
  description : PointId → Text
  /-- `point_kernel`, the empty text for none. -/
  pointKernel : PointId → Text
  hasArchive : PointId → Bool
  uuid_line : 10 ∉ bootUuid

/-- The initial RAM disks that are used. -/
def initrds (entry : BootEntry) : List Text := entry.initrd.filter fun path => !path.contains 36

def mainInitrd (entry : BootEntry) : Text :=
  ((initrds entry).find? fun path => startsWith (nameOf path) (ascii "initramfs-")).getD
    ((initrds entry).getLast?.getD [])

/-- Why an entry cannot be booted, before its arguments are looked at. -/
def unbootable (machine : Machine) (kernel : Text) (entry : BootEntry) : Option Text :=
  if !isSafePath entry.linux || (initrds entry).isEmpty || !(initrds entry).all isSafePath then
    some (ascii "the boot entry for kernel " ++ kernel ++ ascii " has unusable paths")
  else if !(entry.linux :: initrds entry).all fun path => machine.isFile (nameOf path) then
    some (ascii "kernel " ++ kernel ++ ascii " files are missing from /boot")
  else if !machine.supportsRecovery (nameOf (mainInitrd entry)) then
    some (ascii "the kernel " ++ kernel ++ ascii " initramfs lacks the recovery module")
  else none

/-- The arguments of the entry, or those of the environment block. -/
def chosenArguments (machine : Machine) (entry : BootEntry) (point : Text) : Option (List Text) :=
  (recoveryArguments entry.options point).or (recoveryArguments machine.kernelopts point)

def quoteAll (values : List Text) : Except Refusal Text := do
  let quoted ← values.mapM quote
  pure (List.intercalate [32] quoted)

def menuLines (machine : Machine) (point description : Text) (entry : BootEntry)
    (arguments : List Text) : Except Refusal (List Text) := do
  let title ← quote (menuTitle point description)
  let id ← quote (ascii "cybexos-recovery-" ++ point)
  let uuid ← quote machine.bootUuid
  let starting ← quote (ascii "Starting CybexOS recovery point " ++ point ++
    ascii ". Changes are kept in memory only.")
  let linux ← quoteAll (entry.linux :: arguments)
  let initrd ← quoteAll (initrds entry)
  pure [ascii "  menuentry " ++ title ++ ascii " --id " ++ id ++ ascii " --class fedora \x7b",
    ascii "    load_video", ascii "    set gfxpayload=keep", ascii "    insmod gzio",
    ascii "    insmod part_gpt", ascii "    insmod " ++ machine.bootModule,
    ascii "    search --no-floppy --fs-uuid --set=root " ++ uuid, ascii "    echo " ++ starting,
    ascii "    linux " ++ linux, ascii "    initrd " ++ initrd, ascii "  \x7d"]

/-- The lines of a point and the reason why there are none. -/
def menuEntry (machine : Machine) (point description kernel : Text) :
    Except Refusal (List Text × Text) :=
  if kernel.isEmpty then .ok ([], ascii "no installed kernel matches this recovery point")
  else
    match machine.entries kernel with
    | none => .ok ([], ascii "kernel " ++ kernel ++ ascii " is no longer installed")
    | some entry =>
        match unbootable machine kernel entry with
        | some reason => .ok ([], reason)
        | none =>
            match chosenArguments machine entry point with
            | none => .ok ([], ascii "the boot entry has no root= argument to reuse")
            | some arguments => do
                let lines ← menuLines machine point description entry arguments
                pure (lines, [])

structure Described where
  id : Text
  description : Text
  created : Text
  kernel : Text
  bootable : Bool
  reason : Text
  archive : Bool

def menuPossible (machine : Machine) : Bool :=
  machine.withMenu && isSafeUuid machine.bootUuid && !machine.bootModule.isEmpty

/-- `lines` and `reason` of a point. -/
def pointMenu (machine : Machine) (point : PointId) : Except Refusal (List Text × Text) :=
  if menuPossible machine then
    menuEntry machine point.text (machine.description point) (machine.pointKernel point)
  else .ok ([], ascii "the boot menu is unavailable on this system")

/-- One round of `describe_points`. -/
def describePoint (machine : Machine) (point : PointId) :
    Except Refusal (Described × List Text) := do
  let menu ← pointMenu machine point
  pure
    ({ id := point.text
       description := machine.description point
       created := isoFromStamp (point.text.takeWhile (· ≠ 45))
       kernel := machine.pointKernel point
       bootable := !menu.1.isEmpty
       reason := if menu.1.isEmpty then menu.2 else []
       archive := machine.hasArchive point }, menu.1)

/-- The points from the newest on, with all lines of the menu. -/
def describePoints (machine : Machine) (points : List PointId) :
    Except Refusal (List Described × List Text) := do
  let described ← points.reverse.mapM (describePoint machine)
  pure (described.map (·.1), (described.map (·.2)).flatten)

end Snapshot

end CybexOS
