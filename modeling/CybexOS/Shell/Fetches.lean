/-
The fetches of Calendar, Weather and Tailscale (`Common/*.qml`): a request that
replaces a running fetch counts that one as stale, and an exit that is not of a
stale run settles the request.
-/
import CybexOS.Shell.Proc
import CybexOS.Text
import Mathlib.Data.Int.Notation

namespace CybexOS

namespace Shell

/-- A run of the fetch: the request that it was started for, and its arguments. -/
structure Run (κ : Type) where
  request : ℕ
  given : κ
deriving DecidableEq

/-- A run that is over: whether its output was settled, and whether it was a run
of the latest request that nobody had cancelled. -/
structure Ended where
  settled : Bool
  wanted : Bool
deriving DecidableEq

/-- A `fetchProc`. `arguments` are those of a run that starts now; `requests`
counts the requests; `awaited` tells that the latest one is neither settled nor
cancelled. -/
structure Fetch (κ : Type) where
  proc : Proc (Run κ)
  staleRuns : ℕ
  arguments : κ
  requests : ℕ
  awaited : Bool
  ended : List Ended
deriving DecidableEq

namespace Fetch

variable {κ : Type}

def opened (arguments : κ) : Fetch κ := ⟨.idle, 0, arguments, 0, false, []⟩

def requested (fetch : Fetch κ) : Fetch κ :=
  { fetch with requests := fetch.requests + 1, awaited := true }

def cancelled (fetch : Fetch κ) : Fetch κ := { fetch with awaited := false }

/-- `staleRuns += running ? 1 : 0; running = false` -/
def stop (fetch : Fetch κ) : Fetch κ :=
  { fetch with
    staleRuns := fetch.staleRuns + if fetch.proc.running then 1 else 0
    proc := fetch.proc.stop }

/-- `running = true` -/
def start (fetch : Fetch κ) : Fetch κ :=
  { fetch with proc := fetch.proc.start ⟨fetch.requests, fetch.arguments⟩ }

/-- The run is of the latest request, which nobody has cancelled. -/
def wanted (fetch : Fetch κ) : Bool :=
  fetch.awaited && fetch.proc.run.any fun run => run.request = fetch.requests

/-- `onRunningChanged` of an exit calls `settle`. -/
def settles (fetch : Fetch κ) : Bool := fetch.proc.running && fetch.staleRuns = 0

/-- An exit, or a start that failed, and the start that waited for it. -/
def exit (fetch : Fetch κ) : Fetch κ :=
  if fetch.proc.running then
    { fetch with
      proc := fetch.proc.exited.resume ⟨fetch.requests, fetch.arguments⟩
      staleRuns := fetch.staleRuns - 1
      awaited := fetch.awaited && !(fetch.settles && fetch.wanted)
      ended := fetch.ended ++ [⟨fetch.settles, fetch.wanted⟩] }
  else fetch

end Fetch

/-! ### Calendar -/

structure Calendar where
  /-- The arguments are `requestStartMs` and `requestEndMs`, in seconds. -/
  fetch : Fetch (ℤ × ℤ)
  enabled : Bool
  loading : Bool
deriving DecidableEq

namespace Calendar

inductive Move where
  | startRange (startMs endMs : ℤ)
  /-- `showEvents`, with the default window. -/
  | setEnabled (value : Bool) (startMs endMs : ℤ)
  /-- The timer that runs while the calendar is loading. -/
  | timedOut
  | exit

def startRange (s : Calendar) (startMs endMs : ℤ) : Calendar :=
  if s.enabled = false then s
  else
    let start := startMs / 1000 * 1000
    let stop := -(-endMs / 1000) * 1000
    if stop ≤ start then s
    else
      { s with
        loading := true
        fetch := { s.fetch with arguments := (start / 1000, stop / 1000) }.requested.stop.start }

def onEnabledChanged (s : Calendar) (startMs endMs : ℤ) : Calendar :=
  if s.enabled then s.startRange startMs endMs
  else { s with fetch := s.fetch.stop.cancelled, loading := false }

def abandonFetch (s : Calendar) : Calendar :=
  { s with
    fetch :=
      if s.fetch.proc.running then s.fetch.stop.cancelled
      else { s.fetch with staleRuns := 0 }.cancelled
    loading := false }

def exit (s : Calendar) : Calendar :=
  { s with fetch := s.fetch.exit, loading := if s.fetch.settles then false else s.loading }

def step (s : Calendar) : Move → Calendar
  | .startRange startMs endMs => s.startRange startMs endMs
  | .setEnabled value startMs endMs =>
      if value = s.enabled then s else { s with enabled := value }.onEnabledChanged startMs endMs
  | .timedOut => if s.loading then s.abandonFetch else s
  | .exit => s.exit

def opened (enabled : Bool) : Calendar := ⟨.opened (0, 0), enabled, false⟩

end Calendar

/-! ### Weather -/

structure Weather where
  /-- The argument is `url`. -/
  fetch : Fetch Text
  fetchedUrl : Text
deriving DecidableEq

namespace Weather

inductive Move where
  | setUrl (url : Text)
  | refresh (replaceRunning : Bool)
  /-- The coordinates are cleared. -/
  | clearLocation
  | exit

def refresh (s : Weather) (replaceRunning : Bool) : Weather :=
  if s.fetch.proc.running ∧ replaceRunning = false then s
  else ⟨s.fetch.requested.stop.start, s.fetch.arguments⟩

def step (s : Weather) : Move → Weather
  | .setUrl url => { s with fetch := { s.fetch with arguments := url } }
  | .refresh replaceRunning => s.refresh replaceRunning
  | .clearLocation => ⟨s.fetch.stop.cancelled, []⟩
  | .exit => { s with fetch := s.fetch.exit }

def opened (url : Text) : Weather := ⟨.opened url, []⟩

end Weather

/-! ### Tailscale -/

namespace Tailscale

inductive Move where
  | refresh
  | exit

def refresh (fetch : Fetch Unit) : Fetch Unit := fetch.requested.stop.start

def step (fetch : Fetch Unit) : Move → Fetch Unit
  | .refresh => refresh fetch
  | .exit => fetch.exit

def opened : Fetch Unit := .opened ()

end Tailscale

end Shell

end CybexOS
