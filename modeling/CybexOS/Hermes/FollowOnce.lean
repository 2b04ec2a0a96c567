/-
A remote run is observed exactly once, as long as no connection ends inside an
event that it dispatches, and no reader is started for a run that was observed.
-/
import CybexOS.Hermes.Calm
import CybexOS.Hermes.Follow

namespace CybexOS

namespace Hermes

open Json (PyValue)

/-- The journal of a run: its events have ids of their own. -/
structure JournalValid (journal : List Entry) : Prop where
  entries : ∀ entry ∈ journal, entry.Valid
  ids : (journal.map Entry.id).Nodup

/-- The lines up to the next blank one complete the event. -/
def gather (pending : Pending) : List (List Nat) → Option Pending
  | [] => none
  | raw :: rest =>
      match pending.read raw with
      | .fault => none
      | .blank => some pending
      | .more next => gather next rest

/-- The id of the last event, or no id. -/
def lastId (events : List SseEvent) : Text := (events.getLast?.map SseEvent.id).getD []

section

variable (str : PyValue → Text) (loads : Text → Option PyValue) (journal : Text → List Entry)

/-- The event of an entry, if its data can be read. -/
def Entry.event (entry : Entry) : Option SseEvent :=
  (loads ([10].intercalate (dataOf entry.lines))).map fun parsed =>
    ⟨nameOf entry.lines, entry.id, eventData parsed⟩

/-- What the end of a connection may find gathered: nothing, data that cannot be
read, or the whole event. -/
def Pending.Clean (pending : Pending) (whole : Option Pending) : Prop :=
  if pending.data = [] then pending.id = []
  else loads ([10].intercalate pending.data) = none ∨
    ∃ event ∈ whole, pending.name = event.name ∧ pending.data = event.data ∧ pending.id = event.id

instance (pending : Pending) (whole : Option Pending) : Decidable (pending.Clean loads whole) :=
  inferInstanceAs (Decidable (if pending.data = [] then pending.id = []
    else loads ([10].intercalate pending.data) = none ∨ ∃ event ∈ whole,
      pending.name = event.name ∧ pending.data = event.data ∧ pending.id = event.id))

namespace Follower

/-- The text of a run. -/
def runText (stream : Text) : Text :=
  ((journal stream).map (Entry.event loads)).flatMap fun event =>
    (event.map fun event => (streamEvent str event).chunk).getD []

/-- The events handled for a run are its journal's, in order, and so is the text
that was broadcast for it. -/
def Once (f : Follower) : Prop :=
  ∀ stream, (f.handledOf stream).map some <+: (journal stream).map (Entry.event loads) ∧
    f.streams.said stream <+: runText str loads journal stream

/-- A reader follows the stream, or nothing was handled for it yet. -/
def Followable (f : Follower) (stream : Text) : Prop :=
  (f.streams.current = some stream ∧ f.streams.Busy) ∨ f.handledOf stream = []

/-- What the end of a connection within its next line finds gathered. -/
def found (f : Follower) (reader taken : Nat) : Option Pending :=
  let connection := f.connections reader
  let raw := (connection.rest.headD []).take taken
  if raw = [] then some connection.pending
  else
    match connection.pending.read raw with
    | .fault => none
    | .blank => some connection.pending
    | .more pending => some pending

/-- The move neither starts a reader of a run that was observed, nor ends a
connection inside an event that is dispatched. -/
def Fit (f : Follower) : FollowMove → Prop
  | .streams (.attaches stream) | .streams (.asks stream) => f.Followable stream
  | .streams (.startEnds index) => ∀ call ∈ f.streams.starts[index]?, ∀ stream ∈ call.next,
      f.streams.current = none ∧ f.handledOf stream = []
  | .streams (.unwinds reader) => f.stage reader = .cancelled →
      f.streams.current ≠ some (f.stream reader)
  | .cuts reader taken => f.stage reader = .reading → ∀ pending ∈ f.found reader taken,
      pending.Clean loads (gather (f.connections reader).pending (f.connections reader).rest)
  | _ => True

instance (f : Follower) (stream : Text) : Decidable (f.Followable stream) :=
  inferInstanceAs (Decidable (_ ∨ _))

instance (f : Follower) : (move : FollowMove) → Decidable (f.Fit loads move)
  | .streams (.attaches stream) | .streams (.asks stream) =>
      inferInstanceAs (Decidable (f.Followable stream))
  | .streams (.startEnds index) =>
      inferInstanceAs (Decidable (∀ call ∈ f.streams.starts[index]?, ∀ stream ∈ call.next, _))
  | .streams (.unwinds reader) => inferInstanceAs (Decidable (f.stage reader = .cancelled → _ ≠ _))
  | .cuts reader taken => inferInstanceAs (Decidable (f.stage reader = .reading →
      ∀ pending ∈ f.found reader taken, _))
  | .reads _ => isTrue trivial
  | .streams (.names _) | .streams (.interrupts _) | .streams .stops | .streams (.looks _)
  | .streams (.begins ..) | .streams (.opens _) | .streams (.refused _) | .streams (.unopened _)
  | .streams (.handles ..) | .streams (.idles _) | .streams (.breaks _) | .streams (.closed _)
  | .streams (.answers ..) | .streams (.settles _) | .streams (.wakes ..) => isTrue trivial

/-! ### Places in a journal -/

variable {loads}

theorem lastId_concat (events : List SseEvent) (event : SseEvent) :
    lastId (events ++ [event]) = event.id := by
  unfold lastId
  rw [List.getLast?_concat]
  rfl

/-- The server sends what follows the events that were handled. -/
theorem after_handled {done later : List Entry} (h : JournalValid (done ++ later))
    {events : List SseEvent} (hdone : done.map (Entry.event loads) = events.map some) :
    after (done ++ later) (lastId events) = later := by
  rcases List.eq_nil_or_concat' done with rfl | ⟨before, last, rfl⟩
  · rw [List.map_nil, eq_comm, List.map_eq_nil_iff] at hdone
    rw [hdone]
    rfl
  · rcases List.eq_nil_or_concat' events with rfl | ⟨earlier, event, rfl⟩
    · simp at hdone
    · rw [List.map_append, List.map_append] at hdone
      have hlast := (List.append_inj' hdone rfl).2
      have hid : event.id = last.id := by
        obtain ⟨parsed, -, hparsed⟩ := Option.map_eq_some_iff.mp (List.head_eq_of_cons_eq hlast)
        rw [← hparsed]
      rw [lastId_concat, hid]
      have hne : last.id ≠ [] := (h.entries last (by simp)).id
      have hids : last.id ∉ before.map Entry.id := by
        have hnodup := h.ids
        rw [List.append_assoc, List.map_append, List.nodup_append] at hnodup
        exact fun hmem => hnodup.2.2 _ hmem _ (by simp) rfl
      unfold after
      rw [if_neg hne, List.append_assoc, List.dropWhile_append_of_pos]
      · simp
      · intro entry hentry
        exact decide_eq_true fun hsame => hids (hsame ▸ List.mem_map_of_mem hentry)

/-- A connection stands at its end or within an event, after those handled. -/
def At (loads : Text → Option PyValue) (journal : List Entry) (events : List SseEvent)
    (connection : Connection) : Prop :=
  connection = ⟨[], .fresh⟩ ∨
    ∃ done entry later read unread, journal = done ++ entry :: later ∧
      done.map (Entry.event loads) = events.map some ∧ entry.lines = read ++ unread ∧
      connection.pending = gathered read ∧
      connection.rest = unread.map WireLine.bytes ++ lineEnd entry.crlf :: later.flatMap Entry.wire

/-- A connection that begins with an event. -/
theorem at_wire {done later : List Entry} {events : List SseEvent}
    (hdone : done.map (Entry.event loads) = events.map some) :
    At loads (done ++ later) events ⟨later.flatMap Entry.wire, .fresh⟩ := by
  cases later with
  | nil => exact Or.inl rfl
  | cons entry later =>
      refine Or.inr ⟨done, entry, later, [], entry.lines, rfl, hdone, rfl, gathered_nil.symm, ?_⟩
      rw [List.flatMap_cons, Entry.wire, List.append_assoc]
      rfl

/-- What completes a pending event is the whole event. -/
theorem gather_eq {read unread : List WireLine} (h : ∀ line ∈ unread, line.Valid) {crlf : Bool}
    {rest : List (List Nat)} {whole : Pending}
    (hwhole : gather (gathered read) (unread.map WireLine.bytes ++ lineEnd crlf :: rest) =
      some whole) : whole = gathered (read ++ unread) := by
  induction unread generalizing read with
  | nil =>
      rw [List.map_nil, List.nil_append, gather, read_blank] at hwhole
      rw [List.append_nil]
      exact (Option.some.inj hwhole).symm
  | cons line unread ih =>
      rw [List.map_cons, List.cons_append, gather] at hwhole
      rcases read_line read (h line List.mem_cons_self) with hfault | hmore
      · rw [hfault] at hwhole
        cases hwhole
      · rw [hmore] at hwhole
        have hrest := ih (fun other hother => h other (List.mem_cons_of_mem _ hother)) hwhole
        rw [hrest, List.append_assoc]
        rfl

/-! ### What is kept -/

variable (loads)

/-- The live reader stands where its run was left. -/
structure Observed (f : Follower) : Prop where
  one : f.streams.OneReader
  once : ∀ stream,
    (f.handledOf stream).map some <+: (journal stream).map (Entry.event loads)
  said : ∀ stream, f.streams.said stream =
    (f.handledOf stream).flatMap fun event => (streamEvent str event).chunk
  cursor : ∀ reader, (f.stage reader).Live →
    f.streams.cursor = lastId (f.handledOf (f.stream reader))
  sent : ∀ reader, f.stage reader = .connecting → f.sent reader = f.streams.cursor
  place : ∀ reader, (f.stage reader).Reads →
    At loads (journal (f.stream reader)) (f.handledOf (f.stream reader)) (f.connections reader)

variable {str loads journal}

theorem Observed.once_of {f : Follower} (h : Observed str loads journal f) :
    Once str loads journal f := by
  refine fun stream => ⟨h.once stream, ?_⟩
  obtain ⟨later, hlater⟩ := h.once stream
  refine ⟨later.flatMap fun event =>
    (event.map fun event => (streamEvent str event).chunk).getD [], ?_⟩
  rw [h.said, runText, ← hlater, List.flatMap_append, List.flatMap_map]
  rfl

/-- A calm move of the streams. -/
theorem Observed.calm {f : Follower} (h : Observed str loads journal f) {b : Streams}
    (hcalm : Streams.Calm f.streams b) : Observed str loads journal { f with streams := b } where
  one := hcalm.one
  once := h.once
  said := fun stream => (hcalm.said stream).trans (h.said stream)
  cursor := fun reader hlive => by
    obtain ⟨hbefore, hstream, hcursor⟩ := hcalm.live reader hlive
    change b.cursor = lastId (f.handledOf (b.stream reader))
    rw [hcursor, hstream]
    exact h.cursor reader hbefore
  sent := fun reader hconnecting => by
    have hlive : (b.stage reader).Live := by
      rw [show b.stage reader = .connecting from hconnecting]
      trivial
    change f.sent reader = b.cursor
    rw [(hcalm.live reader hlive).2.2]
    exact h.sent reader (hcalm.connects reader hconnecting)
  place := fun reader hreads => by
    change At loads (journal (b.stream reader)) (f.handledOf (b.stream reader)) _
    rw [(hcalm.live reader (Stage.Reads.live hreads)).2.1]
    exact h.place reader (hcalm.reads reader hreads)

theorem Observed.move {f : Follower} (h : Observed str loads journal f) {move : StreamMove}
    (hplain : f.streams.Plain move) : Observed str loads journal (f.move move) :=
  h.calm (Streams.Calm.step h.one hplain)

/-- A reader is started for a run of which nothing was handled. -/
theorem Observed.start {f : Follower} (h : Observed str loads journal f)
    (hnone : f.streams.current = none) {stream : Text} (hempty : f.handledOf stream = []) :
    Observed str loads journal { f with streams := f.streams.start stream } where
  one := fun reader hlive => by
    obtain rfl := h.one.live_start hnone hlive
    exact ⟨rfl, by rw [Streams.stream_start]; rfl⟩
  once := h.once
  said := h.said
  cursor := fun reader hlive => by
    obtain rfl := h.one.live_start hnone hlive
    change [] = lastId (f.handledOf ((f.streams.start stream).stream f.streams.made))
    rw [Streams.stream_start, hempty]
    rfl
  sent := fun reader hconnecting => by
    change (f.streams.start stream).stage reader = .connecting at hconnecting
    obtain rfl := h.one.live_start hnone
      (show ((f.streams.start stream).stage reader).Live by rw [hconnecting]; trivial)
    rw [Streams.stage_start] at hconnecting
    cases hconnecting
  place := fun reader hreads => by
    change ((f.streams.start stream).stage reader).Reads at hreads
    obtain rfl := h.one.live_start hnone hreads.live
    rw [Streams.stage_start] at hreads
    exact hreads.elim

theorem Observed.attach {f : Follower} (h : Observed str loads journal f) {stream : Text}
    (hfit : f.Followable stream) (status : Option Status) :
    Observed str loads journal { f with streams := f.streams.attach stream status } := by
  unfold Streams.attach
  split_ifs with hheld hfree
  · exact h.calm (Streams.Calm.mark h.one stream status)
  · have hempty : f.handledOf stream = [] := by
      refine hfit.resolve_left fun hfollows => ?_
      cases hfree.2.symm.trans hfollows.1
    have hstarted := h.start hfree.2 hempty
    exact hstarted.calm (Streams.Calm.mark hstarted.one stream status)
  · have hhalt := Streams.Calm.halt h.one
    exact h.calm (hhalt.trans (Streams.Calm.starts hhalt.one _))

theorem Observed.resume {f : Follower} (h : Observed str loads journal f) {call : Start}
    (hfit : ∀ stream ∈ call.next, f.streams.current = none ∧ f.handledOf stream = []) :
    Observed str loads journal { f with streams := f.streams.resume call } := by
  have hforgot := h.calm (Streams.Calm.forget h.one)
  unfold Streams.resume
  cases hnext : call.next with
  | none => exact hforgot
  | some stream =>
      obtain ⟨hnone, hempty⟩ := hfit stream hnext
      have hcurrent : f.streams.forget.current = none := by
        unfold Streams.forget
        rw [if_pos hnone]
        exact hnone
      have hstarted := hforgot.start hcurrent hempty
      exact hstarted.calm (Streams.Calm.mark hstarted.one stream call.status)

/-- A reader goes around its loop, from a stage where it holds no connection. -/
theorem Observed.loop {f : Follower} (h : Observed str loads journal f) {reader : Nat}
    {move : StreamMove} (from_ : Stage) (known : Bool) (hlive : from_.Live)
    (hnew : from_ ≠ .connecting) (hstep : f.streams.step move =
      if f.streams.stage reader = from_ then f.streams.loop reader known else f.streams) :
    Observed str loads journal (f.loop reader move) := by
  unfold Follower.loop Follower.move
  rw [hstep]
  by_cases hstage : f.streams.stage reader = from_
  · have hreader : (f.streams.stage reader).Live := hstage ▸ hlive
    rw [if_pos hstage]
    change Observed str loads journal ⟨f.streams.loop reader known,
      if f.stage reader = .connecting then f.sent
        else Function.update f.sent reader f.streams.cursor, f.connections, f.handled⟩
    have hother : ¬ f.stage reader = .connecting := fun hconnecting =>
      hnew (hstage.symm.trans hconnecting)
    rw [if_neg hother]
    unfold Streams.loop
    split_ifs
    · refine ⟨h.one.turn hreader .connecting, h.once, h.said, fun other hother => ?_,
        fun other hconnecting => ?_, fun other hreads => ?_⟩
      · obtain rfl := h.one.live_turn hreader hother
        change _ = lastId (f.handledOf ((f.streams.turn other .connecting).stream other))
        rw [Streams.stream_turn]
        exact h.cursor other hreader
      · obtain rfl := h.one.live_turn hreader
          (show ((f.streams.turn reader .connecting).stage other).Live by
            rw [show (f.streams.turn reader .connecting).stage other = .connecting from hconnecting]
            trivial)
        exact Function.update_self _ _ _
      · obtain rfl := h.one.live_turn hreader (Stage.Reads.live hreads)
        change ((f.streams.turn other .connecting).stage other).Reads at hreads
        rw [Streams.stage_turn_self] at hreads
        exact hreads.elim
    · have hleft := h.calm (Streams.Calm.leave h.one hreader)
      have hdead := h.one.dead_leave hreader
      exact ⟨hleft.one, hleft.once, hleft.said, hleft.cursor, fun other hconnecting =>
        absurd (show ((f.streams.leave reader).stage other).Live by
          rw [show (f.streams.leave reader).stage other = .connecting from hconnecting]
          trivial) (hdead other), hleft.place⟩
  · rw [if_neg hstage]
    refine ⟨h.one, h.once, h.said, h.cursor, fun other hconnecting => ?_, h.place⟩
    change (if f.stage reader = .connecting then f.sent
      else Function.update f.sent reader f.streams.cursor) other = f.streams.cursor
    split_ifs with hsame
    · exact h.sent other hconnecting
    · have hne : other ≠ reader := by
        rintro rfl
        exact hsame hconnecting
      rw [Function.update_of_ne hne]
      exact h.sent other hconnecting

/-- The connection of the live reader stands at a place in its journal. -/
theorem Observed.connect {f : Follower} (h : Observed str loads journal f) {reader : Nat}
    (hlive : (f.stage reader).Live) {connection : Connection}
    (hplace : At loads (journal (f.stream reader)) (f.handledOf (f.stream reader)) connection) :
    Observed str loads journal (f.connect reader connection) where
  one := h.one
  once := h.once
  said := h.said
  cursor := h.cursor
  sent := h.sent
  place := fun other hreads => by
    obtain rfl := h.one.eq_of_live hlive (Stage.Reads.live hreads)
    change At _ _ _ (Function.update f.connections other connection other)
    rw [Function.update_self]
    exact hplace

/-- A connection is opened behind the cursor. -/
theorem Observed.opens {f : Follower} (h : Observed str loads journal f)
    (hjournal : ∀ stream, JournalValid (journal stream)) {reader : Nat}
    (hstage : f.stage reader = .connecting) :
    Observed str loads journal ((f.connect reader
      ⟨(after (journal (f.stream reader)) (f.sent reader)).flatMap Entry.wire, .fresh⟩).move
        (.opens reader)) := by
  have hlive : (f.stage reader).Live := by
    rw [hstage]
    trivial
  obtain ⟨hcount, hdone⟩ : ∃ count, ((journal (f.stream reader)).take count).map (Entry.event loads) =
      (f.handledOf (f.stream reader)).map some := by
    refine ⟨(f.handledOf (f.stream reader)).length, ?_⟩
    rw [List.map_take, ← List.length_map some]
    exact (List.prefix_iff_eq_take.mp (h.once (f.stream reader))).symm
  have hplace : At loads (journal (f.stream reader)) (f.handledOf (f.stream reader))
      ⟨(after (journal (f.stream reader)) (f.sent reader)).flatMap Entry.wire, .fresh⟩ := by
    have hvalid := hjournal (f.stream reader)
    rw [h.sent reader hstage, h.cursor reader hlive]
    rw [← List.take_append_drop hcount (journal (f.stream reader))] at hvalid ⊢
    rw [after_handled hvalid hdone]
    exact at_wire hdone
  have hopened : f.streams.step (.opens reader) = f.streams.turn reader .reading := by
    unfold Streams.step
    dsimp only
    rw [if_pos (show f.streams.stage reader = .connecting from hstage),
      if_pos (h.one reader hlive).2]
  have hconnected := h.connect hlive hplace
  unfold Follower.move
  rw [show (f.connect reader _).streams = f.streams from rfl, hopened]
  refine ⟨h.one.turn hlive .reading, h.once, h.said, fun other hother => ?_,
    fun other hconnecting => ?_, fun other hreads => ?_⟩
  · obtain rfl := h.one.live_turn hlive hother
    change _ = lastId (f.handledOf ((f.streams.turn other .reading).stream other))
    rw [Streams.stream_turn]
    exact h.cursor other hlive
  · have hother : ((f.streams.turn reader .reading).stage other).Live := by
      rw [show (f.streams.turn reader .reading).stage other = .connecting from hconnecting]
      trivial
    obtain rfl := h.one.live_turn hlive hother
    change (f.streams.turn other .reading).stage other = .connecting at hconnecting
    rw [Streams.stage_turn_self] at hconnecting
    cases hconnecting
  · obtain rfl := h.one.live_turn hlive (Stage.Reads.live hreads)
    change At loads (journal ((f.streams.turn other .reading).stream other))
      (f.handledOf ((f.streams.turn other .reading).stream other)) _
    rw [Streams.stream_turn]
    change At _ _ _ (Function.update f.connections other _ other)
    rw [Function.update_self]
    exact hplace

theorem handledOf_append (f : Follower) (b : Streams) (sent : Nat → Text)
    (connections : Nat → Connection) (stream : Text) (event : SseEvent) (other : Text) :
    (⟨b, sent, connections, f.handled ++ [(stream, event)]⟩ : Follower).handledOf other =
      f.handledOf other ++ if stream = other then [event] else [] := by
  unfold handledOf
  dsimp only
  rw [List.filter_append, List.map_append, List.filter_singleton]
  by_cases hsame : stream = other
  · rw [if_pos hsame, decide_eq_true hsame]
    rfl
  · rw [if_neg hsame, decide_eq_false hsame]
    rfl

/-- The next event of the journal is dispatched. -/
theorem Observed.dispatch {f : Follower} (h : Observed str loads journal f) {reader : Nat}
    (hreading : f.stage reader = .reading) {done later : List Entry} {entry : Entry}
    (hjournal : journal (f.stream reader) = done ++ entry :: later)
    (hdone : done.map (Entry.event loads) = (f.handledOf (f.stream reader)).map some)
    (hvalid : entry.Valid) {pending : Pending} (hname : pending.name = nameOf entry.lines)
    (hdata : pending.data = dataOf entry.lines) (hid : pending.id = entry.id)
    {rest : List (List Nat)} (hrest : rest = [] ∨ rest = later.flatMap Entry.wire) :
    Observed str loads journal (f.dispatch str loads reader pending rest) := by
  have hlive : (f.stage reader).Live := by
    rw [hreading]
    trivial
  unfold Follower.dispatch
  rw [hname, hdata, hid, if_neg hvalid.data]
  cases hloads : loads ([10].intercalate (dataOf entry.lines)) with
  | none => exact h.move trivial
  | some parsed =>
      dsimp only
      have hevent : entry.event loads = some ⟨nameOf entry.lines, entry.id, eventData parsed⟩ := by
        unfold Entry.event
        rw [hloads]
        rfl
      generalize (⟨nameOf entry.lines, entry.id, eventData parsed⟩ : SseEvent) = event at hevent ⊢
      have heventId : event.id = entry.id := by
        obtain ⟨other, -, hother⟩ := Option.map_eq_some_iff.mp hevent
        rw [← hother]
      let moved : Streams := { f.streams with cursor := entry.id }
      let told : Streams := moved.append reader (streamEvent str event).chunk
      let handled : Streams := moved.handle reader (streamEvent str event)
      have hcalm : Streams.Calm told handled :=
        Streams.Calm.handle (b := moved) h.one hreading (streamEvent str event)
      obtain ⟨hreaders, hcursor, -, -, hsaid⟩ :=
        Streams.append_spec moved reader (streamEvent str event).chunk
      have htold : ∀ other, told.stage other = f.stage other ∧ told.stream other = f.stream other := by
        intro other
        unfold Streams.stage Streams.stream
        rw [show told.readers = moved.readers from hreaders]
        exact ⟨rfl, rfl⟩
      have honly : ∀ other, (handled.stage other).Live → other = reader := by
        intro other hother
        have hbefore := (hcalm.live other hother).1
        rw [(htold other).1] at hbefore
        exact h.one.eq_of_live hlive hbefore
      have hstream : ∀ other, (handled.stage other).Live → handled.stream other = f.stream reader := by
        intro other hother
        rw [(hcalm.live other hother).2.1, (htold other).2, honly other hother]
      have hwhole : ({ ((f.connect reader ⟨rest, .fresh⟩).advance entry.id).move
            (.handles reader (streamEvent str event)) with
          handled := f.handled ++ [(f.stream reader, event)] } : Follower) =
          ⟨handled, f.sent, Function.update f.connections reader ⟨rest, .fresh⟩,
            f.handled ++ [(f.stream reader, event)]⟩ := by
        unfold Follower.advance Follower.move
        rw [if_neg hvalid.id]
        unfold Streams.step
        dsimp only
        rw [if_pos (show Streams.stage { (f.connect reader ⟨rest, .fresh⟩).streams with
          cursor := entry.id } reader = .reading from hreading)]
        rfl
      refine Eq.mpr (congrArg (Observed str loads journal) hwhole) ?_
      have hhandled := handledOf_append f handled f.sent
        (Function.update f.connections reader ⟨rest, .fresh⟩) (f.stream reader) event
      refine ⟨hcalm.one, fun stream => ?_, fun stream => ?_, fun other hother => ?_,
        fun other hconnecting => ?_, fun other hreads => ?_⟩
      · rw [hhandled]
        by_cases hsame : f.stream reader = stream
        · subst hsame
          have hevents : (journal (f.stream reader)).map (Entry.event loads) =
              (f.handledOf (f.stream reader)).map some ++
                some event :: later.map (Entry.event loads) := by
            rw [hjournal, List.map_append, hdone, List.map_cons, hevent]
          rw [if_pos rfl, hevents]
          exact ⟨later.map (Entry.event loads), by simp⟩
        · rw [if_neg hsame, List.append_nil]
          exact h.once stream
      · rw [hhandled, List.flatMap_append]
        change handled.said stream = _
        rw [hcalm.said, show told.said stream = _ from hsaid stream]
        change f.streams.said stream ++ _ = _
        rw [h.said]
        refine congrArg₂ (· ++ ·) rfl ?_
        change (if f.stream reader = stream then _ else _) = _
        split_ifs
        · exact (List.flatMap_singleton _ _).symm
        · rfl
      · change (handled.stage other).Live at hother
        rw [hhandled]
        change handled.cursor = lastId (f.handledOf (handled.stream other) ++
          if f.stream reader = handled.stream other then [event] else [])
        rw [hstream other hother, if_pos rfl, lastId_concat, (hcalm.live other hother).2.2, heventId]
        exact hcursor
      · have hbefore := hcalm.connects other hconnecting
        rw [(htold other).1] at hbefore
        have hsame : other = reader := h.one.eq_of_live hlive (by
          change (f.stage other).Live
          rw [hbefore]
          trivial)
        rw [hsame, hreading] at hbefore
        cases hbefore
      · change (handled.stage other).Reads at hreads
        have hother := Stage.Reads.live hreads
        rw [hhandled]
        change At loads (journal (handled.stream other)) (f.handledOf (handled.stream other) ++
          if f.stream reader = handled.stream other then [event] else [])
            (Function.update f.connections reader ⟨rest, .fresh⟩ other)
        rw [hstream other hother, if_pos rfl, honly other hother, Function.update_self]
        rcases hrest with rfl | rfl
        · exact Or.inl rfl
        · rw [hjournal, List.append_cons]
          refine at_wire ?_
          rw [List.map_append, List.map_append, hdone, List.map_singleton, hevent]
          rfl

/-- The connection of a reading reader goes on. -/
theorem Observed.goOn {f : Follower} (h : Observed str loads journal f) {reader : Nat}
    (hreading : f.stage reader = .reading) {connection : Connection}
    (hplace : At loads (journal (f.stream reader)) (f.handledOf (f.stream reader)) connection) :
    Observed str loads journal ((f.connect reader connection).move (.idles reader)) :=
  (h.connect (by rw [hreading]; trivial) hplace).move trivial

theorem Observed.finish {f : Follower} (h : Observed str loads journal f)
    (hjournal : ∀ stream, JournalValid (journal stream)) {reader : Nat}
    (hreading : f.stage reader = .reading) {pending : Pending}
    (hclean : pending.Clean loads
      (gather (f.connections reader).pending (f.connections reader).rest)) :
    Observed str loads journal (f.finish str loads reader pending) := by
  unfold Follower.finish
  unfold Pending.Clean at hclean
  refine Observed.move ?_ trivial
  split_ifs at hclean with hempty
  · unfold Follower.dispatch Follower.advance
    rw [if_pos hempty, if_pos hclean]
    exact h.goOn hreading (Or.inl rfl)
  · rcases hclean with hunread | ⟨whole, hwhole, hname, hdata, hid⟩
    · unfold Follower.dispatch
      rw [if_neg hempty, hunread]
      exact h.move trivial
    · have hreads : (f.stage reader).Reads := by
        rw [hreading]
        trivial
      rcases h.place reader hreads with hover | ⟨done, entry, later, read, unread, hsplit, hdone,
        hlines, hpending, hrest⟩
      · rw [hover] at hwhole
        cases hwhole
      · have hvalid : entry.Valid := (hjournal (f.stream reader)).entries entry (by simp [hsplit])
        rw [hpending, hrest] at hwhole
        have hall := gather_eq (fun line hline => hvalid.lines line (by simp [hlines, hline])) hwhole
        rw [← hlines] at hall
        subst hall
        exact h.dispatch hreading hsplit hdone hvalid hname hdata hid (Or.inl rfl)

theorem Observed.reads {f : Follower} (h : Observed str loads journal f)
    (hjournal : ∀ stream, JournalValid (journal stream)) (reader : Nat) :
    Observed str loads journal (f.step str loads journal (.reads reader)) := by
  unfold Follower.step
  dsimp only
  split_ifs with hreading
  · have hreads : (f.stage reader).Reads := by
      rw [hreading]
      trivial
    rcases h.place reader hreads with hover | ⟨done, entry, later, read, unread, hsplit, hdone,
      hlines, hpending, hrest⟩
    · rw [hover]
      exact h
    · have hvalid : entry.Valid := (hjournal (f.stream reader)).entries entry (by simp [hsplit])
      rw [hrest, hpending]
      cases unread with
      | nil =>
          rw [List.map_nil, List.nil_append]
          dsimp only
          rw [read_blank]
          dsimp only
          rw [List.append_nil] at hlines
          rw [← hlines]
          exact h.dispatch hreading hsplit hdone hvalid rfl rfl rfl (Or.inr rfl)
      | cons line unread =>
          rw [List.map_cons, List.cons_append]
          dsimp only
          rcases read_line read (hvalid.lines line (by simp [hlines])) with hfault | hmore
          · rw [hfault]
            exact h.move trivial
          · rw [hmore]
            refine h.goOn hreading (Or.inr ⟨done, entry, later, read ++ [line], unread, hsplit,
              hdone, ?_, rfl, rfl⟩)
            rw [hlines, List.append_assoc]
            rfl
  · exact h

theorem Observed.cuts {f : Follower} (h : Observed str loads journal f)
    (hjournal : ∀ stream, JournalValid (journal stream)) {reader taken : Nat}
    (hfit : f.Fit loads (.cuts reader taken)) :
    Observed str loads journal (f.step str loads journal (.cuts reader taken)) := by
  unfold Follower.step
  dsimp only
  by_cases hreading : f.stage reader = .reading
  · have hclean := hfit hreading
    rw [if_pos hreading]
    unfold found at hclean
    dsimp only at hclean
    split_ifs at hclean ⊢
    · exact h.finish hjournal hreading (hclean _ rfl)
    · cases hread : (f.connections reader).pending.read
        (((f.connections reader).rest.headD []).take taken) with
      | fault => exact h.move trivial
      | blank =>
          rw [hread] at hclean
          exact h.finish hjournal hreading (hclean _ rfl)
      | more pending =>
          rw [hread] at hclean
          exact h.finish hjournal hreading (hclean _ rfl)
  · rw [if_neg hreading]
    exact h

theorem Observed.step {f : Follower} (h : Observed str loads journal f)
    (hjournal : ∀ stream, JournalValid (journal stream)) {move : FollowMove}
    (hfit : f.Fit loads move) : Observed str loads journal (f.step str loads journal move) := by
  cases move with
  | streams move =>
      cases move with
      | attaches stream => exact h.attach hfit none
      | asks stream => exact h.attach hfit _
      | startEnds index =>
          unfold Follower.step Follower.move Streams.step
          dsimp only
          split
          · rename_i call hcall
            split_ifs
            · have hremoved := h.calm (Streams.Calm.starts h.one (f.streams.starts.eraseIdx index))
              exact hremoved.resume fun stream hnext => hfit call hcall stream hnext
            · exact h
          · exact h
      | begins reader known =>
          exact h.loop .created known trivial (by decide) rfl
      | wakes reader known =>
          exact h.loop .sleeping known trivial (by decide) rfl
      | opens reader =>
          unfold Follower.step
          dsimp only
          split_ifs with hstage
          · exact h.opens hjournal hstage
          · exact h
      | handles reader event => exact h
      | idles reader => exact h
      | unwinds reader => exact h.move hfit
      | _ => exact h.move trivial
  | reads reader => exact h.reads hjournal reader
  | cuts reader taken => exact h.cuts hjournal hfit

theorem start_observed : Observed str loads journal start where
  one := fun _ hlive => hlive.elim
  once := fun _ => List.nil_prefix
  said := fun _ => rfl
  cursor := fun _ hlive => hlive.elim
  sent := fun _ hconnecting => by cases hconnecting
  place := fun _ hreads => hreads.elim

/-- In a fit run, every run is observed exactly once and in order. -/
theorem observed_once (str : PyValue → Text) (loads : Text → Option PyValue)
    {journal : Text → List Entry} (hjournal : ∀ stream, JournalValid (journal stream))
    {moves : List FollowMove}
    (hrun : EachStep (fun f move => f.step str loads journal move) (Fit loads) start moves) :
    ∀ f ∈ states (fun f move => f.step str loads journal move) start moves,
      Once str loads journal f := by
  have hstep : ∀ f move, Observed str loads journal f → Fit loads f move →
      Observed str loads journal (f.step str loads journal move) :=
    fun _ _ h hfit => h.step hjournal hfit
  exact fun f hf => (EachStep.states hstep start_observed hrun f hf).once_of

/-! ### Two events -/

/-- `str` of a text; the journals below hold no other value. -/
def plainStr : PyValue → Text
  | .str text => text
  | _ => []

def tokenEntry (id data : String) : Entry :=
  ⟨[⟨.id, ascii id, true, false⟩, ⟨.event, ascii "token", true, false⟩,
    ⟨.data, ascii data, true, false⟩], false⟩

def hiEntry : Entry := tokenEntry "1" "\x7b\"text\": \"Hi\"\x7d"

def youEntry : Entry := tokenEntry "2" "\x7b\"text\": \" you\"\x7d"

/-- The run `r1` says "Hi you". -/
def hiYou (stream : Text) : List Entry :=
  if stream = ascii "r1" then [hiEntry, youEntry] else []

theorem hiYou_valid (stream : Text) : JournalValid (hiYou stream) := by
  unfold hiYou
  split_ifs
  · refine ⟨fun entry hentry => ?_, by decide⟩
    have hline : ∀ entry ∈ [hiEntry, youEntry],
        ∀ line ∈ entry.lines, line.value.all Utf8.isScalar = true ∧
          (10 ∉ line.value ∧ 13 ∉ line.value) ∧ line.value.head? ≠ some 32 ∧
          (line.value.length ≤ 1024 ∧ 0 ∉ line.value) ∧ line.value.length ≤ 256 := by
      decide
    have hentries : ∀ entry ∈ [hiEntry, youEntry],
        entry.id ≠ [] ∧ dataOf entry.lines ≠ [] := by
      decide
    refine ⟨fun line hmem => ?_, (hentries entry hentry).1, (hentries entry hentry).2⟩
    obtain ⟨hscalar, hone, hplain, hid, hevent⟩ := hline entry hentry line hmem
    exact ⟨hscalar, hone, fun _ => hplain, fun _ => hid, fun _ => hevent⟩
  · exact ⟨fun _ hnever => absurd hnever List.not_mem_nil, List.nodup_nil⟩

def reconnects : List FollowMove :=
  [.streams (.closed 0), .streams (.answers 0 .reattach), .streams (.wakes 0 true),
    .streams (.opens 0)]

/-- The first connection ends right after the `id` line of the first event. -/
def cutAfterId : List FollowMove :=
  [.streams (.attaches (ascii "r1")), .streams (.begins 0 true), .streams (.opens 0), .reads 0,
    .cuts 0 0] ++ reconnects ++ [.reads 0, .reads 0, .reads 0, .reads 0]

/-- The cursor has passed the first event, which is never handled. -/
theorem cutAfterId_skips :
    ¬ ∀ (str : PyValue → Text) (loads : Text → Option PyValue) (journal : Text → List Entry),
      (∀ stream, JournalValid (journal stream)) → ∀ moves,
        ∀ f ∈ states (fun f move => f.step str loads journal move) start moves,
          Once str loads journal f := by
  intro h
  have hmem := @foldl_mem_states _ _
    (fun f move => Follower.step plainStr Json.loads hiYou f move) start cutAfterId
  have hfront := (h plainStr Json.loads hiYou hiYou_valid cutAfterId _ hmem (ascii "r1")).1
  have hids := List.IsPrefix.map (Option.map SseEvent.id) hfront
  exact absurd hids (by decide +kernel)

/-- The first connection ends between the two events. -/
def cutBetween : List FollowMove :=
  [.streams (.attaches (ascii "r1")), .streams (.begins 0 true), .streams (.opens 0), .reads 0,
    .reads 0, .reads 0, .reads 0, .cuts 0 0] ++ reconnects ++ [.reads 0, .reads 0, .reads 0, .reads 0]

theorem observed_once_cutBetween :
    Once plainStr Json.loads hiYou
      (cutBetween.foldl (fun f move => Follower.step plainStr Json.loads hiYou f move) start) :=
  observed_once plainStr Json.loads hiYou_valid (by decide +kernel) _ (foldl_mem_states _ _)

end Follower

end

end Hermes

end CybexOS
