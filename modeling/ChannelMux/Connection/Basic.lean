import ChannelMux.Journal
import ChannelMux.Registry
import ChannelMux.Timers

/-! # Connections

The state of one HTTP/2 connection that carries conversations, and the elementary steps from which
everything else is made: reporting events, settling tickets, calling the encoder and changing one
channel.
-/

namespace ChannelMux

/-- Counters of a connection. -/
structure Stats where
  /-- Frames that were received and not delivered to a channel. -/
  discardedFrames : Nat := 0
  discardedBytes : Nat := 0
  /-- Frames passed on to the next listener. -/
  forwarded : Nat := 0
  /-- Channels opened by a client. -/
  opened : Nat := 0
  /-- Channels accepted by a server. -/
  accepted : Nat := 0
  closed : Nat := 0
deriving DecidableEq, Repr

/-- Work put off until the next turn. -/
inductive Task where
  | reportWritability (channel : ChannelId) (writable : Bool)
  | tearDown (channel : ChannelId)
deriving DecidableEq, Repr

/-- A write handed to the encoder whose fate is not known. -/
structure Inflight where
  channel : ChannelId
  size : Nat
  ticket : Ticket
deriving DecidableEq, Repr

/-- What the peer has said about itself. -/
structure PeerState where
  settingsReceived : Bool := false
  extendedConnect : Bool := false
  maxStreams : Option Nat := none
deriving DecidableEq, Repr

structure Connection where
  config : Config
  encoder : Encoder
  batch : ReadBatch
  journal : Journal := {}
  ledger : Ledger := {}
  registry : Registry ChannelId := .empty
  channels : Table Channel := .empty
  nextChannel : ChannelId := 1
  /-- Whether the connection is inside a read cycle. -/
  reading : Bool := false
  tasks : List Task := []
  timers : Timers := {}
  inflight : Table Inflight := .empty
  nextWrite : WriteId := 1
  peer : PeerState := {}
  goingAway : Option Reason := none
  stats : Stats := {}
  clock : Time := 0

namespace Connection

/-- A fresh connection, if its configuration is valid. -/
def start (config : Config) (encoder : Encoder) : Except ConfigFault Connection :=
  config.validate.map fun _ =>
    { config, encoder, batch := .ofCapacity config.batchCapacity }

/-! ## Reports -/

def note (c : Connection) (e : Entry) : Connection := { c with journal := c.journal.push e }

def emit (c : Connection) (id : ChannelId) (what : Happening) : Connection :=
  c.note (.event ⟨id, what⟩)

def addTask (c : Connection) (t : Task) : Connection := { c with tasks := c.tasks ++ [t] }

def resolve (c : Connection) (t : Ticket) (o : Outcome) : Connection :=
  { c with ledger := c.ledger.resolve t o }

def resolveAll (c : Connection) (ts : List Ticket) (o : Outcome) : Connection :=
  { c with ledger := c.ledger.resolveAll ts o }

/-- Count received items that are not delivered. -/
def discard (c : Connection) (frames bytes : Nat) : Connection :=
  { c with stats := { c.stats with
      discardedFrames := c.stats.discardedFrames + frames
      discardedBytes := c.stats.discardedBytes + bytes } }

/-! ## The encoder and the next listener -/

def isActive (c : Connection) : Bool := c.encoder.active c.journal.wire

def isWritable (c : Connection) : Bool := c.encoder.writable c.journal.wire

/-- Hand the encoder something it may refuse, for a channel or for none. -/
def submit (c : Connection) (owner : Option ChannelId) (call : WireCall) :
    Option WriteFault × Connection :=
  let fault := c.encoder.fault c.journal.wire call
  (fault, c.note (.wire owner ⟨call, fault⟩))

/-- Tell the encoder or the next listener something, for a channel or for none. -/
def tell (c : Connection) (owner : Option ChannelId) (call : WireCall) : Connection :=
  c.note (.wire owner ⟨call, none⟩)

def flush (c : Connection) : Connection := c.tell none .flush

/-- Reserve a stream for a channel. -/
def reserve (c : Connection) (id : ChannelId) : Except WriteFault StreamId × Connection :=
  let stream := c.encoder.nextStream c.journal.wire
  match c.submit (some id) (.reserve stream) with
  | (none, c) => (.ok stream, c)
  | (some fault, c) => (.error fault, c)

def forward (c : Connection) (f : Frame) : Connection :=
  { c.tell none (.forward f) with stats := { c.stats with forwarded := c.stats.forwarded + 1 } }

/-! ## Channels -/

def updateChannel (c : Connection) (id : ChannelId) (f : Channel → Channel) : Connection :=
  { c with channels := c.channels.modify id f }

def isOpen (c : Connection) (id : ChannelId) : Bool := (c.channels.get? id).any fun ch => !ch.closed

/-- The open channels in the order in which they were made. -/
def openChannels (c : Connection) : List ChannelId :=
  (c.channels.entries.filter fun e => !e.2.closed).map Prod.fst

/-- Make a channel; its first read begins at once if reads are automatic. -/
def allocate (c : Connection) (path : String) : ChannelId × Connection :=
  let ch : Channel := {
    path
    autoRead := c.config.autoRead
    handshake := if c.config.role = .client then .awaitingSettings else .complete }
  let ch := if ch.autoRead then ch.requestRead c.config.messagesPerRead else ch
  (c.nextChannel,
    { c with channels := c.channels.insert c.nextChannel ch, nextChannel := c.nextChannel + 1 })

/-- Fail the parked writes of a channel with their cause. -/
def failParked (c : Connection) (id : ChannelId) (cause : Fault) : Connection :=
  match c.channels.get? id with
  | none => c
  | some ch => (c.updateChannel id (·.giveUpParked)).resolveAll ch.parkedTickets (.failed cause)

/-- Report that a channel has turned writable. A turn of the same channel that is still put off
has to be seen first, so this one then queues behind it. -/
def reportWritable (c : Connection) (id : ChannelId) : Connection :=
  if c.tasks.any fun t => match t with
      | .reportWritability other _ => other = id
      | .tearDown _ => false
  then c.addTask (.reportWritability id true)
  else c.emit id (.writability true)

end Connection

end ChannelMux
