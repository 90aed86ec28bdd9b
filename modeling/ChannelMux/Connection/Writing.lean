import ChannelMux.Connection.Closing

/-! # Sending

A write is counted, and then parked or handed to the encoder. Its fate is reported later, or at
once if the encoder refuses it. After a failed write a channel sends nothing more.
-/

namespace ChannelMux.Connection

/-! ## The fate of a write -/

/-- A write of a channel has failed. -/
def writeFailed (c : Connection) (id : ChannelId) : Connection :=
  match c.channels.get? id with
  | none => c
  | some ch =>
    if ch.closed then c
    else if c.config.closeOnWriteFailure then c.close id .reset
    else
      let ended := { ch with outboundClosed := true }
      let c := { c with channels := c.channels.insert id ended }
      if ended.isStreamClosed && ch.inbound.isEmpty then c.close id .remote else c

/-- Stop counting the bytes of a write that was seen off. -/
def releaseBytes (c : Connection) (w : Inflight) : Connection :=
  match c.channels.get? w.channel with
  | none => c
  | some ch =>
    let (ch, turns) := ch.subPending w.size c.config.lowWatermark c.isWritable
    let c := { c with channels := c.channels.insert w.channel ch }
    if turns then c.reportWritable w.channel else c

/-- The fate of a write has become known; one that is not on its way is passed over. -/
def writeCompleted (c : Connection) (id : WriteId) (fault : Option WriteFault) : Connection :=
  match c.inflight.get? id with
  | none => c
  | some w =>
    let c := { c with inflight := c.inflight.erase id }.releaseBytes w
    match fault with
    | none => c.resolve w.ticket .done
    | some f => (c.resolve w.ticket (.failed (.write f))).writeFailed w.channel

/-! ## Writes -/

/-- Hand a write that has been counted to the encoder. -/
def sendData (c : Connection) (id : ChannelId) (stream : StreamId) (payload : Bytes)
    (ticket : Ticket) : Connection :=
  let write := c.nextWrite
  let c := { c with
    nextWrite := write + 1
    inflight := c.inflight.insert write ⟨id, payload.length, ticket⟩ }
  match c.submit (some id) (.data write stream payload false) with
  | (none, c) => c.updateChannel id fun ch => { ch with unflushed := true }
  | (some f, c) => c.writeCompleted write (some f)

/-- Count the bytes of a write; a turn to unwritable is reported in the next turn. -/
def countBytes (c : Connection) (id : ChannelId) (ch : Channel) (size : Nat) : Connection :=
  let (ch, turns) := ch.addPending size c.config.highWatermark
  let c := { c with channels := c.channels.insert id ch }
  if turns then c.addTask (.reportWritability id false) else c

/-- Issue a ticket whose promise stands as given. -/
def issue (c : Connection) (p : Promise) : Ticket × Connection :=
  let (ticket, ledger) := c.ledger.issue p
  (ticket, { c with ledger := ledger })

def write (c : Connection) (id : ChannelId) (payload : Bytes) : Ticket × Connection :=
  match c.channels.get? id with
  | none => c.issue (.kept (.failed .channelClosed))
  | some ch =>
    if ch.closed || ch.outboundClosed then c.issue (.kept (.failed .channelClosed))
    else
      let (ticket, c) := c.issue .held
      let c := c.countBytes id ch payload.length
      if ch.handshake.isPending then
        match ch.parked.push? payload ticket with
        | some parked => (ticket, c.updateChannel id fun ch => { ch with parked := parked })
        | none => (ticket, c.resolve ticket (.failed .channelClosed))
      else (ticket, c.sendData id ch.stream payload ticket)

/-- Flush what a channel has sent. -/
def flushChannel (c : Connection) (id : ChannelId) : Connection :=
  (c.updateChannel id fun ch => { ch with unflushed := false }).flush

/-! ## Priority -/

/-- Send a weight; the fault is that of a refusal. -/
def sendPriority (c : Connection) (id : ChannelId) (stream : StreamId) (weight : Nat) :
    Option WriteFault × Connection :=
  match c.submit (some id) (.priority stream (.ofWeight weight)) with
  | (some f, c) => (some f, c)
  | (none, c) => (none, c.emit id (.priorityApplied weight))

/-- Set the weight of a channel's stream, or keep it until there is one. -/
def setPriority (c : Connection) (id : ChannelId) (weight : Nat) : Outcome × Connection :=
  if weight < 1 ∨ 256 < weight then (.failed (.weight weight), c)
  else match c.channels.get? id with
    | none => (.failed .channelClosed, c)
    | some ch =>
      if ch.closed then (.failed .channelClosed, c)
      else if ch.stream = 0 then
        (.done, c.updateChannel id fun ch => { ch with cachedWeight := some weight })
      else match c.sendPriority id ch.stream weight with
        | (some f, c) => (.failed (.write f), c)
        | (none, c) => (.done, c.flush)

end ChannelMux.Connection
