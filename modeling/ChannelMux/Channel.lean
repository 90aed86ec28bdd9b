import ChannelMux.Config
import ChannelMux.Event
import ChannelMux.Parked

/-! # Channels

One conversation on one stream: what it has received and not delivered, what it has sent and not
seen off, and how far it is from closing. The transitions here concern a channel alone; the
connection drives them.
-/

namespace ChannelMux

/-- The wish to read. -/
inductive Demand where
  | idle
  | inProgress
  /-- A further read was asked for while one was in progress. -/
  | requested
deriving DecidableEq, Repr

/-- Who ended a stream first. -/
inductive Initiator where
  | ours
  | theirs
deriving DecidableEq, Repr

/-- How far the extended CONNECT of a channel has come. -/
inductive Handshake where
  /-- The peer has not said yet whether it knows extended CONNECT. -/
  | awaitingSettings
  | requestSent
  | complete
  | failed
deriving DecidableEq, Repr

def Handshake.isPending : Handshake → Bool
  | awaitingSettings | requestSent => true
  | complete | failed => false

/-- Something received that waits to be delivered. -/
inductive Inbound where
  | data (payload : Bytes) (endStream : Bool)
  /-- Headers that end the stream; there is nothing in them to deliver. -/
  | trailers
deriving DecidableEq, Repr

namespace Inbound

def size : Inbound → Nat
  | data payload _ => payload.length
  | trailers => 0

def endsStream : Inbound → Bool
  | data _ e => e
  | trailers => true

end Inbound

structure Channel where
  /-- Zero until a stream has been assigned. -/
  stream : StreamId := 0
  path : String
  subprotocol : Option String := none
  compression : Option Deflate.Terms := none
  demand : Demand := .idle
  inbound : List Inbound := []
  /-- How many more items the current read may deliver. -/
  budget : Nat := 0
  /-- The current read is finished and waits in the batch. -/
  batched : Bool := false
  autoRead : Bool
  inboundClosed : Bool := false
  /-- The end of the stream has been delivered. -/
  endReported : Bool := false
  /-- The bytes accepted for sending whose fate is not known. -/
  pendingBytes : Nat := 0
  writable : Bool := true
  /-- Something was sent since the last flush. -/
  unflushed : Bool := false
  outboundClosed : Bool := false
  closed : Bool := false
  initiator : Option Initiator := none
  remoteReset : Bool := false
  /-- A weight to be sent as soon as there is a stream. -/
  cachedWeight : Option Nat := none
  handshake : Handshake
  parked : Parked := {}
  requested : Option String := none
deriving DecidableEq, Repr

namespace Channel

/-- Nothing more can pass in either direction. -/
def isStreamClosed (ch : Channel) : Bool :=
  ch.remoteReset || (ch.inboundClosed && ch.outboundClosed)

/-- Note who ended the stream, unless that is known already. -/
def noteInitiator (ch : Channel) (who : Initiator) : Channel :=
  { ch with initiator := some (ch.initiator.getD who) }

/-! ## Reading -/

/-- Ask for a read of at most `budget` items. -/
def requestRead (ch : Channel) (budget : Nat) : Channel :=
  match ch.demand with
  | .idle => { ch with demand := .inProgress, budget := budget }
  | .inProgress | .requested => { ch with demand := .requested }

/-- The demand that remains after a read. -/
def demandAfterRead (ch : Channel) : Demand :=
  match ch.demand with
  | .requested => .inProgress
  | .inProgress => if ch.autoRead then .inProgress else .idle
  | .idle => .idle

/-- A read has ended; the next one, if it is wanted, may deliver `budget` items. -/
def finishRead (ch : Channel) (budget : Nat) : Channel :=
  { ch with
    batched := false
    demand := ch.demandAfterRead
    budget := if ch.demandAfterRead = .idle then 0 else budget }

/-- Receive an item. -/
def receive (ch : Channel) (item : Inbound) : Channel :=
  let ch := { ch with inbound := ch.inbound ++ [item] }
  if item.endsStream then { ch with inboundClosed := true }.noteInitiator .theirs else ch

/-- There is something to deliver and the wish to have it. -/
def isHungry (ch : Channel) : Bool := ch.demand ≠ .idle && !ch.inbound.isEmpty

/-! ## Writing -/

/-- Byte counts do not grow beyond 64 bits. -/
def maxBytes : Nat := UInt64.size - 1

/-- Count bytes accepted for sending; the flag says that the channel has just turned unwritable. -/
def addPending (ch : Channel) (size high : Nat) : Channel × Bool :=
  let now := min (ch.pendingBytes + size) maxBytes
  let turns := ch.pendingBytes ≤ high && high < now && ch.writable
  ({ ch with pendingBytes := now, writable := ch.writable && !turns }, turns)

/-- Count bytes seen off; the flag says that the channel has just turned writable. -/
def subPending (ch : Channel) (size low : Nat) (parentWritable : Bool) : Channel × Bool :=
  let now := ch.pendingBytes - size
  let turns := low ≤ ch.pendingBytes && now < low && parentWritable && !ch.writable
  ({ ch with pendingBytes := now, writable := ch.writable || turns }, turns)

/-- The connection has turned writable; the flag says that the channel has just followed. -/
def recover (ch : Channel) (low : Nat) : Channel × Bool :=
  let turns := ch.pendingBytes < low && !ch.writable
  ({ ch with writable := ch.writable || turns }, turns)

/-- Give up the parked writes and stop counting them. -/
def giveUpParked (ch : Channel) : Channel :=
  { ch with
    pendingBytes := ch.pendingBytes - ch.parked.bytes
    handshake := if ch.handshake.isPending then .failed else ch.handshake
    parked := ch.parked.giveUp.2 }

/-- The tickets of the parked writes. -/
def parkedTickets (ch : Channel) : List Ticket := ch.parked.giveUp.1.getD []

end Channel

end ChannelMux
