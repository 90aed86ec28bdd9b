import ChannelMux.Connection.Closing

/-! # Delivering what was received

A channel delivers while its application wants to read. One read delivers at most a set number of
items; when it has delivered all there is, its completion waits in the batch until the connection's
read cycle ends, and otherwise it completes at once. A full batch is drained early. While a batch
is drained, reads complete at once, so a drain never starts inside another.
-/

namespace ChannelMux.Connection

/-! ## One read -/

/-- Deliver one item of a channel's queue, `rest` being what stays in it. -/
def handOver (c : Connection) (id : ChannelId) (stream : StreamId) (item : Inbound)
    (rest : List Inbound) : Connection :=
  let c := c.note (.delivered id item)
  let c := match item with
    | .data payload _ =>
      (c.emit id (.read payload)).tell (some id) (.consume stream payload.length)
    | .trailers => c
  let reports := item.endsStream && (c.channels.get? id).any fun ch => !ch.endReported
  let c := c.updateChannel id fun ch =>
    { ch with inbound := rest, budget := ch.budget - 1, endReported := ch.endReported || reports }
  if reports then c.emit id (.remoteClosed .endOfStream) else c

/-- A channel has nothing left to deliver: it closes if its stream is finished, and otherwise
flushes what it has sent. -/
def settle (c : Connection) (id : ChannelId) : Connection :=
  match c.channels.get? id with
  | none => c
  | some ch =>
    if ch.isStreamClosed then c.close id .remote
    else if ch.unflushed then (c.updateChannel id (fun ch => { ch with unflushed := false })).flush
    else c

/-- Deliver items while the budget lasts; the number of items delivered comes with the result. -/
def deliverItems (id : ChannelId) (stream : StreamId) :
    Nat → List Inbound → Connection → Nat × Connection
  | _, [], c => (0, c.settle id)
  | budget, item :: rest, c =>
    let c := c.handOver id stream item rest
    if budget ≤ 1 then (1, c)
    else
      let (n, c) := deliverItems id stream (budget - 1) rest c
      (n + 1, c)

/-- Deliver what a channel has received, as far as it wants it and its budget allows. -/
def deliver (c : Connection) (id : ChannelId) : Nat × Connection :=
  match c.channels.get? id with
  | none => (0, c)
  | some ch =>
    if ch.closed ∨ ch.demand = .idle ∨ (ch.budget = 0 ∧ ch.inbound ≠ []) then (0, c)
    else deliverItems id ch.stream ch.budget ch.inbound c

/-! ## Completing a read -/

def fireReadComplete (c : Connection) (id : ChannelId) : Connection :=
  match c.channels.get? id with
  | none => c
  | some _ =>
    (c.updateChannel id (·.finishRead c.config.messagesPerRead)).emit id .readComplete

/-- Let a finished read wait in the batch, after `drainFull` if that is full; the flag says whether
it waits. -/
def joinBatch (drainFull : Connection → Connection) (c : Connection) (id : ChannelId) :
    Bool × Connection :=
  let wait (c : Connection) : ReadBatch.Admission × Connection :=
    let (admission, batch) := c.batch.enqueue id
    (admission, { c with batch := batch })
  let (admission, c) := wait c
  let (admission, c) := if admission = .full then wait (drainFull c) else (admission, c)
  if admission = .queued then (true, c.updateChannel id (fun ch => { ch with batched := true }))
  else (false, c)

/-- Complete a read or let it wait; the flag says whether it was completed. -/
def completeRead (drainFull : Connection → Connection) (c : Connection) (id : ChannelId) :
    Bool × Connection :=
  match c.channels.get? id with
  | none => (false, c)
  | some ch =>
    if ch.closed || ch.batched then (false, c)
    else
      let (waits, c) :=
        if c.reading && 0 < ch.budget then joinBatch drainFull c id else (false, c)
      if waits then (false, c) else (true, c.fireReadComplete id)

/-! ## Reads one after another -/

def wantsMore (c : Connection) (id : ChannelId) : Bool :=
  (c.channels.get? id).any fun ch => !ch.closed && ch.isHungry

/-- Read again and again while reads complete and there is more; every round but the last delivers
an item, so as many rounds as there are items and one more are enough. -/
def readRounds (drainFull : Connection → Connection) (id : ChannelId) :
    Nat → Connection → Connection
  | 0, c => c
  | rounds + 1, c =>
    let (n, c) := c.deliver id
    if n = 0 then c
    else
      let (completed, c) := completeRead drainFull c id
      if completed && c.wantsMore id then readRounds drainFull id rounds c else c

def inboundSize (c : Connection) (id : ChannelId) : Nat :=
  ((c.channels.get? id).map (·.inbound.length)).getD 0

/-- Deliver a channel's queue, draining a full batch by the given means. -/
def drainWith (drainFull : Connection → Connection) (c : Connection) (id : ChannelId) :
    Connection :=
  readRounds drainFull id (c.inboundSize id + 1) c

/-- Complete a read that waited, and deliver what has arrived in the meantime. -/
def resume (c : Connection) (id : ChannelId) : Connection :=
  match c.channels.get? id with
  | none => c
  | some ch =>
    if ch.closed || !ch.batched then c
    else
      let c := c.fireReadComplete id
      if (c.channels.get? id).any Channel.isHungry then drainWith (fun c => c) c id else c

/-- A channel all of whose frames have been flushed. -/
def flushed (ch : Channel) : Channel := { ch with unflushed := false }

/-- Complete every read that waits, in the order of their arrival, and flush once. -/
def drainBatch (c : Connection) : Connection :=
  let (waiting, batch) := c.batch.beginDrain
  let c := { c with batch := batch }
  if waiting = [] then { c with batch := c.batch.finishDrain }
  else
    let c := waiting.foldl resume c
    { c with batch := c.batch.finishDrain, channels := c.channels.mapEntries fun _ => flushed }.flush

/-- Deliver a channel's queue. -/
def drain (c : Connection) (id : ChannelId) : Connection := drainWith drainBatch c id

/-! ## The wish to read -/

def beginRead (c : Connection) (id : ChannelId) : Connection :=
  match c.channels.get? id with
  | none => c
  | some ch =>
    if ch.closed then c
    else
      let c := c.updateChannel id (·.requestRead c.config.messagesPerRead)
      if ch.demand = .idle then c.drain id else c

def setAutoRead (c : Connection) (id : ChannelId) (on : Bool) : Connection :=
  match c.channels.get? id with
  | none => c
  | some ch =>
    let c := c.updateChannel id (fun ch => { ch with autoRead := on })
    if on && ch.demand = .idle then
      (c.updateChannel id (·.requestRead c.config.messagesPerRead)).drain id
    else c

/-- The read cycle of the connection has ended. -/
def readCycleEnded (c : Connection) : Connection := { c.drainBatch with reading := false }

end ChannelMux.Connection
