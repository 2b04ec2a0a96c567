/-
Which saved displays `displays.lua` switches off: the loop of `M.decide` is a
greedy pick over the entries saved as off.
-/
import CybexOS.Displays.LuaValidate
import CybexOS.GreedyPick

namespace CybexOS

namespace Displays

/-- A connected output as `current_monitors` reports it. -/
structure Monitor where
  name : Text
  description : Text
deriving DecidableEq, Repr

namespace Lua

def monitorMatches (key : Text) (monitor : Monitor) : Bool :=
  if isDesc key then
    let selector := trim (key.drop 5)
    selector != [] && monitor.description.take selector.length == selector
  else monitor.name == key

/-- `monitor_matches(other, monitor) and not monitor_matches(entry.key,
monitor)` for one of the entry's `disabled_with`. -/
def isCompanion (entry : Entry) (monitor : Monitor) : Bool :=
  entry.disabledWith.any fun other =>
    monitorMatches other monitor && !monitorMatches entry.key monitor

/-- The loop state of `M.decide`: the outputs still on and the keys switched
off. -/
structure Decision where
  remaining : List Monitor
  disabled : List Text
deriving DecidableEq, Repr

def decideEntry (state : Decision) (entry : Entry) : Decision :=
  if entry.enabled then state
  else if entry.disabledWith.any fun other =>
      state.remaining.any fun monitor =>
        monitorMatches other monitor && !monitorMatches entry.key monitor then
    { remaining := state.remaining.filter
        fun monitor => !monitorMatches entry.key monitor
      disabled := state.disabled ++ [entry.key] }
  else state

/-- `M.decide`: the keys to switch off. -/
def decideDisabled (entries : List Entry) (monitors : List Monitor) :
    List Text :=
  (entries.foldl decideEntry ⟨monitors, []⟩).disabled

/-- Entries saved as off, the candidates of the pick. -/
def savedOff (entries : List Entry) : List Entry :=
  entries.filter fun entry => !entry.enabled

/-- The entries the loop switches off, as a greedy pick. -/
def switchedOff (entries : List Entry) (monitors : List Monitor) :
    List Entry :=
  greedyPick isCompanion (fun entry => monitorMatches entry.key) monitors
    (savedOff entries)

theorem switchedOff_cons_off {entry : Entry} (hoff : entry.enabled = false)
    (rest : List Entry) (monitors : List Monitor) :
    switchedOff (entry :: rest) monitors =
      if monitors.any (isCompanion entry) then
        entry :: switchedOff rest
          (monitors.filter fun monitor => !monitorMatches entry.key monitor)
      else switchedOff rest monitors := by
  simp [switchedOff, savedOff, hoff, greedyPick]

/-- The nested loops look for a remaining companion. -/
theorem any_companion (entry : Entry) (remaining : List Monitor) :
    (entry.disabledWith.any fun other => remaining.any fun monitor =>
      monitorMatches other monitor && !monitorMatches entry.key monitor) =
      remaining.any (isCompanion entry) := by
  rw [Bool.eq_iff_iff]
  simp only [isCompanion, List.any_eq_true]
  constructor
  · rintro ⟨other, hother, monitor, hmonitor, hmatch⟩
    exact ⟨monitor, hmonitor, other, hother, hmatch⟩
  · rintro ⟨monitor, hmonitor, other, hother, hmatch⟩
    exact ⟨other, hother, monitor, hmonitor, hmatch⟩

theorem foldl_decideEntry (entries : List Entry) (state : Decision) :
    (entries.foldl decideEntry state).disabled =
      state.disabled ++ (switchedOff entries state.remaining).map Entry.key := by
  induction entries generalizing state with
  | nil => simp [switchedOff, savedOff, greedyPick]
  | cons entry rest ih =>
      rw [List.foldl_cons, ih]
      cases henabled : entry.enabled with
      | true => simp [decideEntry, switchedOff, savedOff, henabled]
      | false =>
          rw [switchedOff_cons_off henabled, decideEntry, any_companion,
            henabled]
          by_cases hany : state.remaining.any (isCompanion entry) = true
          · simp [hany]
          · simp [hany]

theorem decideDisabled_eq (entries : List Entry) (monitors : List Monitor) :
    decideDisabled entries monitors =
      (switchedOff entries monitors).map Entry.key := by
  simp [decideDisabled, foldl_decideEntry]

theorem not_matches_of_isCompanion {entry : Entry} {monitor : Monitor}
    (h : isCompanion entry monitor = true) :
    monitorMatches entry.key monitor = false := by
  obtain ⟨other, _, hmatch⟩ := List.any_eq_true.mp h
  simpa using (Bool.and_eq_true_iff.mp hmatch).2

/-- Some connected output is matched by no key that `decide` switches off. -/
theorem decideDisabled_leaves_one_on (entries : List Entry)
    {monitors : List Monitor} (hmonitors : monitors ≠ []) :
    ∃ monitor ∈ monitors, ∀ key ∈ decideDisabled entries monitors,
      monitorMatches key monitor = false := by
  obtain ⟨monitor, hmem, hkept⟩ :=
    greedyPick_survivor
      (fun _ _ hcompanion => not_matches_of_isCompanion hcompanion)
      hmonitors (savedOff entries)
  refine ⟨monitor, hmem, fun key hkey => ?_⟩
  rw [decideDisabled_eq, List.mem_map] at hkey
  obtain ⟨entry, hentry, rfl⟩ := hkey
  exact hkept entry hentry

/-- A saved-off entry of `displays.json`. -/
def offEntry (companion : String) : LuaValue :=
  .obj [(ascii "enabled", .bool false),
    (ascii "disabledWith", .arr [.str (ascii companion)])]

def offDocument (entries : List (String × String)) : LuaValue :=
  .obj [(ascii "v", .num (Double.ofInt 1 (by norm_num))),
    (ascii "monitors", .obj (entries.map fun entry =>
      (ascii entry.1, offEntry entry.2)))]

/-- What `validate` makes of such an entry. -/
def offRule (key companion : String) : Entry where
  key := ascii key
  enabled := false
  disabledWith := [ascii companion]

/-- Two displays each saved as off beside the other. -/
theorem decideDisabled_leaves_one_on_cycle :
    ∃ monitor ∈ [⟨ascii "DP-1", ascii "A"⟩, ⟨ascii "DP-2", ascii "B"⟩],
      ∀ key ∈ decideDisabled [offRule "DP-1" "DP-2", offRule "DP-2" "DP-1"]
        [⟨ascii "DP-1", ascii "A"⟩, ⟨ascii "DP-2", ascii "B"⟩],
        monitorMatches key monitor = false :=
  decideDisabled_leaves_one_on _ (by simp)

/-- Every display that is switched off has a companion, not matched by its own
key, that stays on. -/
def CompanionsStayOn (entries : List Entry) (monitors : List Monitor) : Prop :=
  ∀ entry ∈ entries, entry.key ∈ decideDisabled entries monitors →
    ∃ monitor ∈ monitors, isCompanion entry monitor = true ∧
      ∀ key ∈ decideDisabled entries monitors,
        monitorMatches key monitor = false

/-- With distinct keys a key is switched off through its own entry only. -/
theorem key_mem_decideDisabled_iff {entries : List Entry}
    (hkeys : (entries.map Entry.key).Nodup) (monitors : List Monitor)
    {entry : Entry} (hentry : entry ∈ entries) :
    entry.key ∈ decideDisabled entries monitors ↔
      entry ∈ switchedOff entries monitors := by
  rw [decideDisabled_eq, List.mem_map]
  constructor
  · rintro ⟨other, hother, hkey⟩
    have hmem : other ∈ entries :=
      (List.mem_filter.mp (mem_of_mem_greedyPick hother)).1
    have heq := List.inj_on_of_nodup_map hkeys hmem hentry hkey
    rwa [← heq]
  · intro h
    exact ⟨entry, h, rfl⟩

end Lua

end Displays

end CybexOS
