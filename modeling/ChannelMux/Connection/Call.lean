import ChannelMux.Connection.Arrival
import ChannelMux.Connection.Upkeep

/-! # Calls

Everything that can be done to a connection from outside: what the connection layer reports, what
the application asks for, and what changes around it. A run is a list of calls made one after
another.
-/

namespace ChannelMux

inductive Call where
  -- What the connection layer reports.
  | frame (f : Frame)
  | readCycleEnded
  | writeCompleted (write : WriteId) (fault : Option WriteFault)
  | streamFailed (stream : StreamId) (cause : Fault)
  | writabilityChanged (writable : Bool)
  | connectionLost
  | timePassed (now : Time)
  | runTasks
  -- What the application asks for.
  | openStream (path : String) (subprotocol : Option String)
  | beginRead (channel : ChannelId)
  | setAutoRead (channel : ChannelId) (on : Bool)
  | write (channel : ChannelId) (payload : Bytes)
  | flush (channel : ChannelId)
  | writeAndFlush (channel : ChannelId) (payload : Bytes)
  | setPriority (channel : ChannelId) (weight : Nat)
  /-- Reset the stream of a channel. -/
  | close (channel : ChannelId)
  /-- End our half of the stream of a channel. -/
  | closeGracefully (channel : ChannelId)
  -- What the application collects.
  | nextEvent
  | takeEvents
  | takeOutcomes
  | dropTicket (ticket : Ticket)
  -- What changes around the connection.
  | advanceClock (ms : Time)
  | setEncoder (e : Encoder)

inductive Reply where
  | unit
  /-- There is no such channel: there never was one, or it was torn down. -/
  | noChannel
  | outcome (o : Outcome)
  | opened (r : Except Fault ChannelId)
  | ticket (t : Ticket)
  | event (e : Option Event)
  | events (es : List Event)
  | outcomes (os : List (Ticket × Outcome))

namespace Connection

/-- Do something to a channel that has not been torn down. -/
def onChannel (c : Connection) (id : ChannelId) (f : Reply × Connection) : Reply × Connection :=
  if c.channels.contains id then f else (.noChannel, c)

/-- Close a channel on request; the outcome is known at once. -/
def closeOnRequest (c : Connection) (id : ChannelId) (kind : CloseKind) : Reply × Connection :=
  let (t, c) := (c.close id kind).issue (.kept .done)
  (.ticket t, c)

def call (c : Connection) : Call → Reply × Connection
  | .frame f => (.unit, c.frameArrived f)
  | .readCycleEnded => (.unit, c.readCycleEnded)
  | .writeCompleted id fault => (.unit, c.writeCompleted id fault)
  | .streamFailed stream cause =>
    let (o, c) := c.streamFailed stream cause
    (.outcome o, c)
  | .writabilityChanged writable => (.unit, c.writabilityChanged writable)
  | .connectionLost => (.unit, c.connectionLost)
  | .timePassed now => (.unit, c.timePassed now)
  | .runTasks => (.unit, c.runTasks)
  | .openStream path subprotocol =>
    let (r, c) := c.openStream path subprotocol
    (.opened r, c)
  | .beginRead id => c.onChannel id (.unit, c.beginRead id)
  | .setAutoRead id on => c.onChannel id (.unit, c.setAutoRead id on)
  | .write id payload =>
    let (t, c') := c.write id payload
    c.onChannel id (.ticket t, c')
  | .flush id => c.onChannel id (.unit, c.flushChannel id)
  | .writeAndFlush id payload =>
    let (t, c') := c.write id payload
    c.onChannel id (.ticket t, c'.flushChannel id)
  | .setPriority id weight =>
    let (o, c') := c.setPriority id weight
    c.onChannel id (.outcome o, c')
  | .close id => c.onChannel id (c.closeOnRequest id .reset)
  | .closeGracefully id => c.onChannel id (c.closeOnRequest id .graceful)
  | .nextEvent =>
    let (e, journal) := c.journal.nextEvent
    (.event e, { c with journal := journal })
  | .takeEvents =>
    let (es, journal) := c.journal.takeEvents
    (.events es, { c with journal := journal })
  | .takeOutcomes =>
    let (os, ledger) := c.ledger.collect
    (.outcomes os, { c with ledger := ledger })
  | .dropTicket t => (.unit, { c with ledger := c.ledger.drop t })
  | .advanceClock ms => (.unit, { c with clock := c.clock + ms })
  | .setEncoder e => (.unit, { c with encoder := e })

/-- The connection after a call. -/
def after (c : Connection) (k : Call) : Connection := (c.call k).2

/-- The connection after calls made one after another. -/
def run (c : Connection) (ks : List Call) : Connection := ks.foldl after c

@[simp] theorem run_nil (c : Connection) : c.run [] = c := rfl
@[simp] theorem run_cons (c : Connection) (k : Call) (ks : List Call) :
    c.run (k :: ks) = (c.after k).run ks := rfl

theorem run_append (c : Connection) (ks ls : List Call) :
    c.run (ks ++ ls) = (c.run ks).run ls := List.foldl_append

theorem run_concat (c : Connection) (ks : List Call) (k : Call) :
    c.run (ks ++ [k]) = (c.run ks).after k := run_append ..

end Connection

end ChannelMux
