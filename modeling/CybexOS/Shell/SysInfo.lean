/-
Night light and the idle inhibitor (`Common/SysInfo.qml`): their settings,
processes and timers.
-/
import CybexOS.Shell.Proc
import Mathlib.Data.Int.Notation

namespace CybexOS

namespace Shell

/-- `nightLightLifecycle` and `idleInhibitLifecycle` -/
inductive Lifecycle where
  | stopped
  | starting
  | running
  | stopping
  | restarting
  | error
deriving DecidableEq

/-- What an error text says. -/
inductive Failure where
  | exited (status : ℤ)
  | notStarted
deriving DecidableEq

/-- The failure of a run that ended by itself, with its exit status if there is one. -/
def failure (status : Option ℤ) : Failure :=
  match status with
  | some status => if 0 ≤ status then .exited status else .notStarted
  | none => .notStarted

/-! ### Night light -/

/-- `nightLight` and `warmth` are settings; `confirm`, `retry` and
`warmthRestart` tell whether these timers are running. -/
structure NightLight where
  nightLight : Bool
  warmth : ℤ
  /-- `sunsetProc`, with the temperature that it was started with. -/
  proc : Proc ℤ
  lifecycle : Lifecycle
  pending : Bool
  effective : Bool
  error : Option Failure
  retrySecs : ℕ
  retryInterval : ℕ
  confirm : Bool
  retry : Bool
  warmthRestart : Bool
deriving DecidableEq

namespace NightLight

/-- `sunsetProc.running = true`, and `onRunningChanged` of the start. -/
def startSunset (s : NightLight) : NightLight :=
  { s with proc := s.proc.start s.warmth, confirm := true }

def syncNightLight (s : NightLight) : NightLight :=
  if s.nightLight then
    if s.proc.running then { s with retry := false }
    else
      { s with retry := false, pending := true, error := none, lifecycle := .starting }.startSunset
  else if s.proc.running then
    { s with
      retry := false, pending := true, error := none, retrySecs := 5, lifecycle := .stopping
      proc := s.proc.stop }
  else
    { s with
      retry := false, pending := false, effective := false, error := none, retrySecs := 5
      lifecycle := .stopped }

/-- `onRunningChanged` of an exit, or of a start that failed. -/
def exit (s : NightLight) (status : Option ℤ) : NightLight :=
  if s.proc.running = false then s
  else
    let ended := { s with proc := s.proc.exited, confirm := false, effective := false }
    if s.lifecycle = .restarting ∧ s.nightLight then { ended with lifecycle := .starting }.startSunset
    else if s.lifecycle = .stopping ∨ s.nightLight = false then
      { ended with lifecycle := .stopped, pending := false }
    else
      { ended with
        lifecycle := .error, pending := false, error := some (failure status)
        retryInterval := s.retrySecs * 1000, retrySecs := min (s.retrySecs * 2) 60, retry := true }

/-- `nightLightConfirm` -/
def confirmed (s : NightLight) : NightLight :=
  if s.proc.running = false ∨ s.nightLight = false then { s with confirm := false }
  else
    { s with
      confirm := false, effective := true, pending := false, error := none, lifecycle := .running
      retrySecs := 5 }

/-- `nightLightRetry` -/
def retried (s : NightLight) : NightLight :=
  if s.nightLight then { s with retry := false }.syncNightLight else { s with retry := false }

/-- `warmthRestart` -/
def warmed (s : NightLight) : NightLight :=
  if s.nightLight ∧ s.proc.running then
    { s with
      warmthRestart := false, retry := false, pending := true, lifecycle := .restarting
      proc := s.proc.stop }
  else if s.nightLight then { s with warmthRestart := false }.syncNightLight
  else { s with warmthRestart := false }

/-- A change of the setting. -/
def setNightLight (s : NightLight) (value : Bool) : NightLight :=
  if value = s.nightLight then s else { s with nightLight := value }.syncNightLight

def setWarmth (s : NightLight) (value : ℤ) : NightLight :=
  if value = s.warmth then s else { s with warmth := value, warmthRestart := true }

/-- Before the start-up policies, when nothing has been started. -/
def initial (nightLight : Bool) (warmth : ℤ) (warmthRestart : Bool) : NightLight :=
  ⟨nightLight, warmth, .idle, .stopped, false, false, none, 5, 0, false, false, warmthRestart⟩

end NightLight

/-! ### The idle inhibitor -/

inductive IdleMode where
  | off
  | minutes30
  | hour
  | unplugged
  | always
deriving DecidableEq

/-- `mode` and `untilMs` are settings; `confirm` and `retry` tell whether these
timers are running. -/
structure IdleInhibit where
  mode : IdleMode
  untilMs : ℤ
  clockMs : ℤ
  isLaptop : Bool
  pluggedIn : Bool
  proc : Proc Unit
  expectedStop : Bool
  lifecycle : Lifecycle
  pending : Bool
  effective : Bool
  error : Option Failure
  retrySecs : ℕ
  retryInterval : ℕ
  confirm : Bool
  retry : Bool
deriving DecidableEq

namespace IdleInhibit

/-- `idleInhibited` -/
def inhibited (s : IdleInhibit) : Bool := s.mode ≠ .off

def syncIdleInhibit (s : IdleInhibit) : IdleInhibit :=
  if s.inhibited then
    if s.proc.running then { s with retry := false }
    else
      { s with
        retry := false, expectedStop := false, pending := true, lifecycle := .starting
        error := none, proc := s.proc.start (), confirm := true }
  else if s.proc.running then
    { s with
      retry := false, error := none, retrySecs := 5, pending := true, lifecycle := .stopping
      expectedStop := true, proc := s.proc.stop }
  else
    { s with
      retry := false, error := none, retrySecs := 5, lifecycle := .stopped, effective := false
      pending := false }

/-- `onRunningChanged` of an exit, or of a start that failed. -/
def exit (s : IdleInhibit) (status : Option ℤ) : IdleInhibit :=
  if s.proc.running = false then s
  else
    let ended := { s with proc := s.proc.exited, confirm := false, effective := false }
    if s.expectedStop ∨ s.inhibited = false then
      { ended with expectedStop := false, pending := false, lifecycle := .stopped }
    else
      { ended with
        pending := false, lifecycle := .error, error := some (failure status)
        retryInterval := s.retrySecs * 1000, retrySecs := min (s.retrySecs * 2) 60, retry := true }

/-- `idleInhibitConfirm` -/
def confirmed (s : IdleInhibit) : IdleInhibit :=
  if s.proc.running = false ∨ s.inhibited = false then { s with confirm := false }
  else
    { s with
      confirm := false, effective := true, pending := false, error := none, lifecycle := .running
      retrySecs := 5 }

/-- `idleInhibitRetry` -/
def retried (s : IdleInhibit) : IdleInhibit :=
  if s.inhibited then { s with retry := false }.syncIdleInhibit else { s with retry := false }

/-- A change of the setting, which is noticed if it is one. -/
def changeMode (s : IdleInhibit) (mode : IdleMode) : IdleInhibit :=
  if mode = s.mode then s else { s with mode := mode }.syncIdleInhibit

def setUntil (s : IdleInhibit) (untilMs : ℤ) : IdleInhibit := { s with untilMs := untilMs }

def setClock (s : IdleInhibit) (now : ℤ) : IdleInhibit := { s with clockMs := now }

def deadline (now : ℤ) : IdleMode → ℤ
  | .minutes30 => now + 30 * 60000
  | .hour => now + 60 * 60000
  | _ => 0

/-- `setIdleInhibitMode`, but for its last condition. -/
def enterMode (s : IdleInhibit) (mode : IdleMode) (now : ℤ) : IdleInhibit :=
  let s := if 0 < deadline now mode then s.setUntil (deadline now mode) else s
  let s := s.changeMode mode
  let s := if deadline now mode = 0 then s.setUntil 0 else s
  (s.setClock now).syncIdleInhibit

/-- On battery. -/
def onBattery (s : IdleInhibit) : Bool := s.isLaptop && !s.pluggedIn

/-- The mode is off if it is none of the accepted ones. -/
def setIdleInhibitMode (s : IdleInhibit) (mode : Option IdleMode) (now : ℤ) : IdleInhibit :=
  let s := s.enterMode (mode.getD .off) now
  if mode = some .unplugged ∧ s.onBattery then s.enterMode .off now else s

/-- The countdown, which runs while there is a deadline. -/
def tick (s : IdleInhibit) (now : ℤ) : IdleInhibit :=
  if s.untilMs ≤ 0 then s
  else if s.untilMs ≤ now then (s.setClock now).setIdleInhibitMode none now
  else s.setClock now

def setBattery (s : IdleInhibit) (isLaptop pluggedIn : Bool) (now : ℤ) : IdleInhibit :=
  let s := { s with isLaptop := isLaptop, pluggedIn := pluggedIn }
  if s.mode = .unplugged ∧ s.onBattery then s.setIdleInhibitMode none now else s

/-- Before the start-up policies, when nothing has been started. -/
def initial (mode : IdleMode) (untilMs : ℤ) (isLaptop pluggedIn : Bool) : IdleInhibit :=
  ⟨mode, untilMs, 0, isLaptop, pluggedIn, .idle, false, .stopped, false, false, none, 5, 0, false,
    false⟩

end IdleInhibit

/-! ### Both -/

structure SysInfo where
  night : NightLight
  idle : IdleInhibit
deriving DecidableEq

namespace SysInfo

/-- What a login decides of a feature. -/
inductive Policy where
  | remember
  | off
  | on
deriving DecidableEq

/-- `applyStartupPolicies`, with the policies if it is the first start of a login. -/
def applyStartupPolicies (s : SysInfo) (policies : Option (Policy × Policy)) (now : ℤ) : SysInfo :=
  let s : SysInfo := match policies with
    | none => s
    | some (night, idle) =>
        ⟨match night with
          | .remember => s.night
          | .off => s.night.setNightLight false
          | .on => s.night.setNightLight true,
        match idle with
          | .remember => s.idle
          | .off => s.idle.setIdleInhibitMode (some .off) now
          | .on => s.idle.setIdleInhibitMode (some .always) now⟩
  let idle := s.idle.setClock now
  let idle :=
    if (idle.mode = .minutes30 ∨ idle.mode = .hour) ∧ idle.untilMs ≤ now then
      idle.setIdleInhibitMode none now
    else if idle.mode = .unplugged ∧ idle.onBattery then idle.setIdleInhibitMode none now
    else idle
  ⟨s.night.syncNightLight, idle.syncIdleInhibit⟩

inductive Move where
  | setNightLight (value : Bool)
  | setWarmth (value : ℤ)
  | sunsetExited (status : Option ℤ)
  | nightLightConfirm
  | nightLightRetry
  | warmthRestart
  | setIdleInhibitMode (mode : Option IdleMode) (now : ℤ)
  /-- The settings are changed by someone else. -/
  | settingsChanged (mode : IdleMode) (untilMs : ℤ)
  | battery (isLaptop pluggedIn : Bool) (now : ℤ)
  | countdown (now : ℤ)
  | inhibitExited (status : Option ℤ)
  | idleInhibitConfirm
  | idleInhibitRetry

def step (s : SysInfo) : Move → SysInfo
  | .setNightLight value => { s with night := s.night.setNightLight value }
  | .setWarmth value => { s with night := s.night.setWarmth value }
  | .sunsetExited status => { s with night := s.night.exit status }
  | .nightLightConfirm => if s.night.confirm then { s with night := s.night.confirmed } else s
  | .nightLightRetry => if s.night.retry then { s with night := s.night.retried } else s
  | .warmthRestart => if s.night.warmthRestart then { s with night := s.night.warmed } else s
  | .setIdleInhibitMode mode now => { s with idle := s.idle.setIdleInhibitMode mode now }
  | .settingsChanged mode untilMs =>
      { s with idle := (s.idle.setUntil untilMs).changeMode mode }
  | .battery isLaptop pluggedIn now => { s with idle := s.idle.setBattery isLaptop pluggedIn now }
  | .countdown now => { s with idle := s.idle.tick now }
  | .inhibitExited status => { s with idle := s.idle.exit status }
  | .idleInhibitConfirm => if s.idle.confirm then { s with idle := s.idle.confirmed } else s
  | .idleInhibitRetry => if s.idle.retry then { s with idle := s.idle.retried } else s

end SysInfo

end Shell

end CybexOS
