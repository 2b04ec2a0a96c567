/-
Where the root file system is: what the mounts say of the running root, and
whether the host can take and restore recovery points.
-/
import CybexOS.Snapshot.RecoveryMenu

namespace CybexOS

namespace Snapshot

inductive LayoutKind where
  | btrfs
  | recovery
  | none
  | unsupported
deriving DecidableEq

structure Layout where
  kind : LayoutKind
  uuid : Text
  message : Text
  /-- The recovery point booted with an overlay. -/
  recovery : Text
  /-- The path of the subvolume mounted as `/`. -/
  running : Text

namespace Layout

def usable (layout : Layout) : Bool := layout.kind = .btrfs || layout.kind = .recovery

def pendingReboot (layout : Layout) : Bool :=
  layout.kind = .btrfs && layout.running != ascii "/root"

end Layout

/-- `STAMP_PATTERN` -/
def isStamp (stamp : Text) : Bool :=
  (stamp.take 8).all isDigit && (stamp.drop 8).take 1 == ascii "T" &&
    ((stamp.drop 9).take 6).all isDigit && stamp.drop 15 == ascii "Z"

/-- `REPLACED_PATTERN.match` -/
def matchesReplaced (name : Text) : Bool :=
  let line := if name.getLast? = some 10 then name.dropLast else name
  startsWith line (ascii "root.replaced-") && isStamp (line.drop 14)

/-- What `findmnt` and the kernel command line answer. -/
structure Mounts where
  rootType : Text
  rootPath : Text
  rootUuid : Text
  homePath : Text
  lowerType : Text
  lowerPath : Text
  lowerUuid : Text
  /-- `recovery_boot_id()` -/
  recovery : Text

def unsupported (recovery message : Text) : Layout where
  kind := .unsupported
  uuid := []
  message := message
  recovery := recovery
  running := []

def detectLayout (mounts : Mounts) : Layout :=
  if mounts.rootType = ascii "btrfs" then
    if (mounts.rootPath ≠ ascii "/root" ∧
        matchesReplaced (mounts.rootPath.dropWhile (· = 47)) = false) ∨
        mounts.homePath ≠ ascii "/home" then
      unsupported []
        (ascii "unsupported Btrfs layout: expected separate /root and /home subvolumes")
    else if !isSafeUuid mounts.rootUuid then
      unsupported [] (ascii "could not resolve the root Btrfs UUID")
    else ⟨.btrfs, mounts.rootUuid, [], [], mounts.rootPath⟩
  else if mounts.rootType = ascii "overlay" ∧ mounts.recovery ≠ [] then
    if mounts.lowerType ≠ ascii "btrfs" ∨
        mounts.lowerPath ≠ ascii "/cybexos-snapshots/root/" ++ mounts.recovery ∨
        mounts.homePath ≠ ascii "/home" then
      unsupported mounts.recovery
        (ascii "this recovery boot does not have the expected snapshot mount")
    else if !isSafeUuid mounts.lowerUuid then
      unsupported mounts.recovery
        (ascii "could not resolve the recovery point's Btrfs UUID")
    else ⟨.recovery, mounts.lowerUuid, [], mounts.recovery, mounts.lowerPath⟩
  else ⟨.none, [], ascii "root filesystem is not Btrfs", [], []⟩

end Snapshot

end CybexOS
