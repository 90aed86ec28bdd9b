import ChannelMux.Channel
import ChannelMux.Encoder

/-! # Journals

Everything that a connection does, in the order in which it does it: what it hands to the encoder
and for which channel, what it reports to the application, and the moments at which items are
delivered and channels are closed. Reports and calls are collected from the journal as they are
asked for, and stay in it.
-/

namespace ChannelMux

inductive Entry where
  /-- A call, and the channel for which it was made. -/
  | wire (owner : Option ChannelId) (entry : WireEntry)
  | event (e : Event)
  | delivered (channel : ChannelId) (item : Inbound)
  | closed (channel : ChannelId)
deriving DecidableEq, Repr

namespace Entry

def wire? : Entry → Option WireEntry
  | wire _ e => some e
  | event _ | delivered .. | closed _ => none

def event? : Entry → Option Event
  | event e => some e
  | wire .. | delivered .. | closed _ => none

/-- The call, if it was made for the given channel. -/
def wireFor? (id : ChannelId) : Entry → Option WireEntry
  | wire owner e => if owner = some id then some e else none
  | event _ | delivered .. | closed _ => none

end Entry

structure Journal where
  entries : List Entry := []
  eventsTaken : Nat := 0
  wireTaken : Nat := 0
deriving DecidableEq, Repr

namespace Journal

def push (j : Journal) (e : Entry) : Journal := { j with entries := j.entries ++ [e] }

/-- All calls to the encoder and the next listener. -/
def wire (j : Journal) : List WireEntry := j.entries.filterMap Entry.wire?

/-- All reports to the application. -/
def events (j : Journal) : List Event := j.entries.filterMap Entry.event?

/-- All reports about one channel. -/
def eventsOf (j : Journal) (id : ChannelId) : List Happening :=
  (j.events.filter fun e => e.channel = id).map Event.what

/-- All calls made for one channel. -/
def wireFor (j : Journal) (id : ChannelId) : List WireEntry :=
  j.entries.filterMap (Entry.wireFor? id)

/-! ## Collecting -/

/-- The reports that have not been collected, the oldest first. -/
def pendingEvents (j : Journal) : List Event := j.events.drop j.eventsTaken

/-- Collect the oldest report, if there is one. -/
def nextEvent (j : Journal) : Option Event × Journal :=
  match j.pendingEvents with
  | [] => (none, j)
  | e :: _ => (some e, { j with eventsTaken := j.eventsTaken + 1 })

/-- Collect all reports. -/
def takeEvents (j : Journal) : List Event × Journal :=
  (j.pendingEvents, { j with eventsTaken := j.events.length })

/-- Collect all calls made since they were collected last. -/
def takeWire (j : Journal) : List WireEntry × Journal :=
  (j.wire.drop j.wireTaken, { j with wireTaken := j.wire.length })

/-! ## The history after each operation -/

@[simp] theorem entries_push (j : Journal) (e : Entry) : (j.push e).entries = j.entries ++ [e] :=
  rfl

@[simp] theorem wire_push (j : Journal) (e : Entry) :
    (j.push e).wire = j.wire ++ e.wire?.toList := by
  cases e <;> simp [wire, Entry.wire?]

@[simp] theorem events_push (j : Journal) (e : Entry) :
    (j.push e).events = j.events ++ e.event?.toList := by
  cases e <;> simp [events, Entry.event?]

@[simp] theorem entries_takeEvents (j : Journal) : j.takeEvents.2.entries = j.entries := rfl
@[simp] theorem entries_takeWire (j : Journal) : j.takeWire.2.entries = j.entries := rfl

@[simp] theorem entries_nextEvent (j : Journal) : j.nextEvent.2.entries = j.entries := by
  unfold nextEvent
  split <;> rfl

@[simp] theorem pendingEvents_takeEvents (j : Journal) : j.takeEvents.2.pendingEvents = [] :=
  List.drop_length

end Journal

end ChannelMux
