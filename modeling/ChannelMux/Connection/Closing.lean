import ChannelMux.Connection.Basic

/-! # Closing channels

Every way in which a channel ends goes through `close`. It settles all that the channel still owes,
ends its half of the stream where that is due, and leaves the rest of the channel's life to a
task. A stream that was closed here keeps its registry entry for a while, to absorb late frames.
-/

namespace ChannelMux

/-- How a channel is closed. -/
inductive CloseKind where
  /-- By resetting the stream. -/
  | reset
  /-- By ending our half of the stream. -/
  | graceful
  /-- The peer or the connection has ended the stream; there is nothing to send. -/
  | remote
deriving DecidableEq, Repr

def CloseKind.initiator : CloseKind → Initiator
  | reset | graceful => .ours
  | remote => .theirs

/-- The frame that ends our half of a stream. -/
inductive ClosingFrame where
  | endStream
  | cancel
deriving DecidableEq, Repr

namespace Channel

/-- The frame with which a channel is closed. Once the peer has ended its half, only ours is left
to end, and there is nothing to cancel. -/
def closingFrame (ch : Channel) (kind : CloseKind) (active : Bool) : Option ClosingFrame :=
  if ch.stream = 0 ∨ ¬ active ∨ ch.remoteReset ∨ kind = .remote then none
  else match kind, ch.inboundClosed, ch.outboundClosed with
    | .graceful, _, false | _, true, false => some .endStream
    | _, true, true => none
    | _, _, _ => some .cancel

/-- A channel after it was closed. -/
def shut (ch : Channel) (kind : CloseKind) : Channel :=
  { ch.noteInitiator kind.initiator |>.giveUpParked with
    closed := true
    outboundClosed := true
    inbound := []
    batched := false }

/-- The bytes that wait to be delivered. -/
def inboundBytes (ch : Channel) : Nat := ch.inbound.foldr (fun item n => item.size + n) 0

end Channel

namespace Connection

/-- Send the frame that ends our half of a stream; a refusal changes nothing any more. -/
def sendClosing (c : Connection) (id : ChannelId) (stream : StreamId) :
    Option ClosingFrame → Connection
  | none => c
  | some .endStream =>
    let c' := { c with nextWrite := c.nextWrite + 1 }
    (c'.submit (some id) (.data c.nextWrite stream [] true)).2.flush
  | some .cancel => (c.submit (some id) (.reset stream .cancel)).2.flush

/-- Fail the writes of a channel that are on their way. -/
def failInflight (c : Connection) (id : ChannelId) (cause : Fault) : Connection :=
  let lost := c.inflight.entries.filterMap fun e =>
    if e.2.channel = id then some e.2.ticket else none
  { c with inflight := c.inflight.keep fun w => w.channel ≠ id }.resolveAll lost (.failed cause)

/-- Give up the registry entry of a stream, at once or after the grace period. -/
def retireStream (c : Connection) (stream : StreamId) (absorb : Bool) : Connection :=
  if stream = 0 then c
  else if absorb then
    { c with
      registry := c.registry.markClosed stream
      timers := c.timers.arm (c.clock + c.config.grace) (.registryRemoval stream) }
  else { c with registry := c.registry.remove stream }

def countClosed (c : Connection) : Connection :=
  { c with stats := { c.stats with closed := c.stats.closed + 1 } }

/-- Close a channel, unless it is closed already. -/
def close (c : Connection) (id : ChannelId) (kind : CloseKind) : Connection :=
  match c.channels.get? id with
  | none => c
  | some ch =>
    if ch.closed then c
    else
      let active := c.isActive
      let shut := ch.shut kind
      let c := { c with channels := c.channels.insert id shut }
      let c := c.discard ch.inbound.length ch.inboundBytes
      let c := c.resolveAll ch.parkedTickets (.failed .channelClosed)
      let c := c.sendClosing id ch.stream (ch.closingFrame kind active)
      let c := c.failInflight id .channelClosed
      let c := { c with
        batch := c.batch.remove id
        timers := c.timers.cancel (.handshakeTimeout id) }
      let c := c.retireStream ch.stream (active && shut.initiator = some .ours)
      (c.countClosed.addTask (.tearDown id)).note (.closed id)

/-- Report what went wrong on a channel, and reset it. -/
def failChannel (c : Connection) (id : ChannelId) (cause : Fault) : Connection :=
  (c.emit id (.failed cause)).close id .reset

end Connection

end ChannelMux
