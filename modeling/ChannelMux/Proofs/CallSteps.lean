import ChannelMux.Proofs.Effects
import ChannelMux.Proofs.Runs
import Mathlib.Logic.Relation

/-!
# Call steps: the steps of which calls are made

A call does many things one after another, and some of them again and again.  This file takes the
calls apart.  A `Change` is one step that leaves nothing half done, and a `CallStep` is a change or
a step in which a write is taken up or put down; between the two the write is *loose*.  What every
step keeps, every call keeps (`CallPath.induction`), so an invariant has to look at each kind of
step once and never at loops.

Some steps are made once in a call and before all others, such as the acceptance of a write.  A
step therefore knows the call that it is a part of and the connection on which that was made, its
`Cause`, and these steps are made on that connection only.

Reading appears among the changes as a whole, because its own steps leave a channel between two
reads.  `Proofs/Reads.lean` takes it apart in turn.
-/

namespace ChannelMux

/-- A call, and the connection on which it is made. -/
structure Cause where
  conn : Connection
  call : Call

/-- The payload to be delivered, if there is one. -/
def Inbound.payload? : Inbound → Option Bytes
  | data payload _ => some payload
  | trailers => none

/-- Reports that go with no change of the connection. -/
def Happening.isNotice : Happening → Bool
  | remoteClosed _ | goAway .. | peerPriority _ | handshakeCompleted .. | failed _ => true
  | opened .. | read _ | readComplete | writability _ | priorityApplied _ => false
  | inactive | unregistered => false

/-- How a write ends whose fate is reported. -/
def Outcome.ofReport : Option WriteFault → Outcome
  | none => .done
  | some f => .failed (.write f)

namespace Connection

/-- What is done once the fate of a write is known, short of what a failure means for its
channel. -/
def settleWrite (c : Connection) (write : WriteId) (w : Inflight) (fault : Option WriteFault) :
    Connection :=
  ({ c with inflight := c.inflight.erase write }.releaseBytes w).resolve w.ticket (.ofReport fault)

/-- A write is entered among those on their way. -/
def enterWrite (c : Connection) (id : ChannelId) (payload : Bytes) (ticket : Ticket) :
    Connection :=
  { c with
    nextWrite := c.nextWrite + 1
    inflight := c.inflight.insert c.nextWrite ⟨id, payload.length, ticket⟩ }

/-- The loss of the connection fails every write that is on its way. -/
def loseInflight (c : Connection) : Connection :=
  let lost := c.inflight.entries.map fun e => e.2.ticket
  { c with inflight := .empty }.resolveAll lost (.failed .connectionClosed)

/-- What is left to do when every channel of a lost connection is closed. -/
def clearAll (c : Connection) : Connection :=
  { c with registry := c.registry.clear, timers := {}, batch := c.batch.clear,
           reading := false }.tell none .inactive

/-- The handshake of a channel is over and the parked writes are taken out of it. -/
def markComplete (c : Connection) (id : ChannelId) (subprotocol : Option String)
    (compression : Option Deflate.Terms) : Connection :=
  { c with
    channels := c.channels.modify id fun ch =>
      { ch with
        handshake := .complete
        subprotocol := subprotocol
        compression := compression
        parked := ch.parked.take.2 }
    timers := c.timers.cancel (.handshakeTimeout id) }

/-- Who may be told of something: a channel that is open or whose stream is registered.  That its
conversation was accepted is the last thing which a call says, and it is said whatever has become of
the channel in the meantime. -/
inductive MayTell (k : Cause) (c : Connection) (id : ChannelId) : Happening → Prop
  | opened {what : Happening} : c.isOpen id = true → MayTell k c id what
  | registered {what : Happening} :
      (∃ stream, c.registry.get? stream = some (.active id)) → MayTell k c id what
  | completed {ch : Channel} {subprotocol extensions : Option String} :
      c.channels.get? id = some ch → (∃ stream, k.conn.Answers k.call id stream) →
      c.emit id (.handshakeCompleted subprotocol extensions) = k.conn.after k.call →
      MayTell k c id (.handshakeCompleted subprotocol extensions)

end Connection

open Connection in
/-- One step that leaves nothing half done.  `strict` says that streams are reserved fresh and that
no conversation is opened on stream zero; `k` is the call of which the step is a part. -/
inductive Change (strict : Prop) (k : Cause) : Connection → Connection → Prop where
  -- What changes around the connection, and what is collected from it.
  | around {c : Connection} (encoder : Encoder) (journal : Journal) (ledger : Ledger)
      (clock : Time) :
      journal.entries = c.journal.entries → (∀ t, ledger.promise? t = c.ledger.promise? t) →
      ledger.next = c.ledger.next → c.clock ≤ clock →
      encoder = c.encoder ∨ k.call = .setEncoder encoder →
      clock = c.clock ∨ (∃ ms, k.call = .advanceClock ms) →
      Change strict k c { c with encoder := encoder, journal := journal, ledger := ledger,
                                 clock := clock }
  -- Frames.
  | cycleBegun (c : Connection) : Change strict k c { c with reading := true }
  | settingsNoted (c : Connection) (s : Settings) :
      k.call = .frame (.settings s) → Change strict k c (c.noteSettings s)
  | endNoted (c : Connection) (last : StreamId) (reason : Reason) (debug : Bytes) :
      k.call = .frame (.goAway last reason debug) →
      Change strict k c { c with goingAway := some reason }
  | forwarded (c : Connection) (f : Frame) : Change strict k c (c.forward f)
  | discarded (c : Connection) (frames bytes : Nat) : Change strict k c (c.discard frames bytes)
  | resetArrived (c : Connection) (id : ChannelId) (reason : Reason) :
      (∃ stream, c.registry.get? stream = some (.active id)) →
      Change strict k c (c.resetArrived id reason)
  | noticed (c : Connection) (id : ChannelId) (what : Happening) :
      what.isNotice = true → MayTell k c id what → Change strict k c (c.emit id what)
  | flushed (c : Connection) : Change strict k c c.flush
  -- Conversations that begin.
  | asked (c : Connection) (path : String) (subprotocol : Option String) :
      c.config.role = .client → c.goingAway = none → c.isActive = true →
      k = ⟨c, .openStream path subprotocol⟩ →
      Change strict k c (c.addAsking path subprotocol).2
  | unreserved {c c' : Connection} {id : ChannelId} {ch : Channel} {f : WriteFault} :
      c.channels.get? id = some ch → ch.closed = false → ch.handshake = .awaitingSettings →
      c.reserve id = (.error f, c') → k.call.asks = true →
      Change strict k c (c'.failHandshake id (.write f))
  | requested {c c₁ c₂ : Connection} {id : ChannelId} {ch : Channel} {stream : StreamId} :
      c.channels.get? id = some ch → ch.closed = false → ch.handshake = .awaitingSettings →
      c.reserve id = (.ok stream, c₁) →
      (strict → stream ≠ 0 ∧ c.registry.get? stream = none) →
      (c₁.assignStream id stream).submit (some id)
        (.headers stream ((c₁.assignStream id stream).requestFor ch).toHeaders false) =
          (none, c₂) → k.call.asks = true →
      Change strict k c (c₂.updateChannel id fun ch => { ch with handshake := .requestSent })
  | requestRefused {c c₁ c₂ : Connection} {id : ChannelId} {ch : Channel} {stream : StreamId}
      {f : WriteFault} :
      c.channels.get? id = some ch → ch.closed = false → ch.handshake = .awaitingSettings →
      c.reserve id = (.ok stream, c₁) →
      (strict → stream ≠ 0 ∧ c.registry.get? stream = none) →
      (c₁.assignStream id stream).submit (some id)
        (.headers stream ((c₁.assignStream id stream).requestFor ch).toHeaders false) =
          (some f, c₂) → k.call.asks = true →
      Change strict k c (c₂.failHandshake id (.write f))
  | handshakeFailed (c : Connection) (id : ChannelId) (cause : Fault) :
      Change strict k c (c.failHandshake id cause)
  | refused (c : Connection) (stream : StreamId) (status : Nat) :
      c.config.role = .server → Change strict k c (c.refuse stream status)
  | answered {c : Connection} {stream : StreamId} (path : String) (subprotocol : Option String)
      (compression : Option Deflate.Terms) :
      c.config.role = .server → c.registry.get? stream = none → (strict → stream ≠ 0) →
      c = { k.conn with reading := true } →
      (∃ block endStream, k.call = .frame (.headers stream block endStream)) →
      Change strict k c (c.accept stream path subprotocol compression)
  -- Reading.
  | received {c : Connection} {id : ChannelId} {ch : Channel} (item : Inbound) :
      c.channels.get? id = some ch → ch.inboundClosed = false →
      c = { k.conn with reading := true } →
      (∃ stream, c.registry.get? stream = some (.active id)) →
      k.conn.arriving id k.call = item.payload?.toList → ch.handshake ≠ .requestSent →
      Change strict k c (c.receive id ch item)
  | cycleEnded (c : Connection) : Change strict k c c.readCycleEnded
  | readBegun (c : Connection) (id : ChannelId) : Change strict k c (c.beginRead id)
  | autoReadSet (c : Connection) (id : ChannelId) (on : Bool) :
      Change strict k c (c.setAutoRead id on)
  -- Writing.
  | issued (c : Connection) (o : Outcome) : Change strict k c (c.issue (.kept o)).2
  | writeSettled {c : Connection} {write : WriteId} {w : Inflight} (fault : Option WriteFault) :
      k = ⟨c, .writeCompleted write fault⟩ → c.inflight.get? write = some w →
      Change strict k c (c.settleWrite write w fault)
  | writeFailed (c : Connection) (id : ChannelId) : Change strict k c (c.writeFailed id)
  | channelFlushed (c : Connection) (id : ChannelId) : Change strict k c (c.flushChannel id)
  | weightCached {c : Connection} {id : ChannelId} {ch : Channel} (weight : Nat) :
      c.channels.get? id = some ch → ch.closed = false → ch.stream = 0 →
      Change strict k c (c.updateChannel id fun ch => { ch with cachedWeight := some weight })
  | weightSent (c : Connection) (id : ChannelId) (stream : StreamId) (weight : Nat) :
      c.isOpen id = true → Change strict k c (c.sendPriority id stream weight).2
  -- The end of channels and of the connection.
  | closed (c : Connection) (id : ChannelId) (kind : CloseKind) :
      (kind = .graceful → k = ⟨c, .closeGracefully id⟩) → Change strict k c (c.close id kind)
  | inflightLost (c : Connection) : k.call = .connectionLost → Change strict k c c.loseInflight
  | channelLost (c : Connection) (id : ChannelId) :
      k.call = .connectionLost → c.isOpen id = true → Change strict k c (c.loseChannel id)
  | cleared (c : Connection) :
      k.call = .connectionLost → (∀ id, c.isOpen id = false) → Change strict k c c.clearAll
  -- Upkeep.
  | recovered (c : Connection) (id : ChannelId) :
      c.isOpen id = true → Change strict k c (c.recoverChannel id)
  | timerFired {c : Connection} {now : Time} {t : Timer} {timers : Timers} :
      c.timers.popDue now = some (t, timers) → k.call = .timePassed now →
      Change strict k c ({ c with timers := timers }.fireTimer t)
  | taskRun {c : Connection} {t : Task} {tasks : List Task} :
      c.tasks = t :: tasks → k.call = .runTasks →
      Change strict k c ({ c with tasks := tasks }.runTask t)

/-! ## Loose writes -/

/-- A write that has been counted and is neither parked nor on its way yet. -/
structure LooseWrite where
  channel : ChannelId
  payload : Bytes
  ticket : Ticket
deriving DecidableEq, Repr

/-- A connection in the middle of a call, with the loose writes in the order in which they will be
put down. -/
structure Stage where
  conn : Connection
  loose : List LooseWrite := []

open Connection in
inductive CallStep (strict : Prop) (k : Cause) : Stage → Stage → Prop where
  | change {c c' : Connection} (ws : List LooseWrite) :
      Change strict k c c' → CallStep strict k ⟨c, ws⟩ ⟨c', ws⟩
  /-- A write is accepted from the application. -/
  | takenUp {c : Connection} {id : ChannelId} {ch : Channel} {payload : Bytes} :
      k.call = .write id payload ∨ k.call = .writeAndFlush id payload → k.conn = c →
      c.channels.get? id = some ch → ch.closed = false → ch.outboundClosed = false →
      CallStep strict k ⟨c, []⟩
        ⟨(c.issue .held).2.countBytes id ch payload.length, [⟨id, payload, c.ledger.next⟩]⟩
  | parked {c : Connection} {w : LooseWrite} {ws : List LooseWrite} {ch : Channel}
      {parked : Parked} :
      c.channels.get? w.channel = some ch → ch.closed = false → ch.handshake.isPending = true →
      ch.parked.push? w.payload w.ticket = some parked →
      CallStep strict k ⟨c, w :: ws⟩
        ⟨c.updateChannel w.channel fun ch => { ch with parked := parked }, ws⟩
  /-- The parked writes of a channel are taken out to be sent. -/
  | unparked {c : Connection} {id : ChannelId} {ch : Channel} (subprotocol : Option String)
      (compression : Option Deflate.Terms) :
      c.channels.get? id = some ch → ch.handshake = .requestSent →
      (∃ stream, c.registry.get? stream = some (.active id) ∧ k.conn.Answers k.call id stream) →
      CallStep strict k ⟨c, []⟩
        ⟨c.markComplete id subprotocol compression,
          (ch.parked.take.1.getD []).map fun w => ⟨id, w.1, w.2⟩⟩
  | sent {c c' : Connection} {w : LooseWrite} {ws : List LooseWrite} {ch : Channel}
      {stream : StreamId} :
      c.channels.get? w.channel = some ch → ch.closed = false →
      ch.handshake.isPending = false → ch.stream = stream →
      (c.enterWrite w.channel w.payload w.ticket).submit (some w.channel)
        (.data c.nextWrite stream w.payload false) = (none, c') →
      CallStep strict k ⟨c, w :: ws⟩
        ⟨c'.updateChannel w.channel fun ch => { ch with unflushed := true }, ws⟩
  /-- The encoder refuses a write, whose fate is thereby known, and its channel sends no more. -/
  | bounced {c c' : Connection} {w : LooseWrite} {ws : List LooseWrite} {ch : Channel}
      {stream : StreamId} {f : WriteFault} :
      c.channels.get? w.channel = some ch → ch.closed = false →
      ch.handshake.isPending = false → ch.stream = stream →
      (c.enterWrite w.channel w.payload w.ticket).submit (some w.channel)
        (.data c.nextWrite stream w.payload false) = (some f, c') →
      CallStep strict k ⟨c, w :: ws⟩
        ⟨(c'.settleWrite c.nextWrite ⟨w.channel, w.payload.length, w.ticket⟩
          (some f)).writeFailed w.channel, ws⟩
  /-- A write can no longer be sent. -/
  | dropped {c : Connection} {w : LooseWrite} {ws : List LooseWrite} :
      (∀ ch, c.channels.get? w.channel = some ch → ch.closed = false →
        ch.handshake.isPending = true ∧ ch.parked.settled = true) →
      CallStep strict k ⟨c, w :: ws⟩ ⟨c.resolve w.ticket (.failed .channelClosed), ws⟩

/-- Steps of a call made one after another. -/
def CallPath (strict : Prop) (k : Cause) : Stage → Stage → Prop :=
  Relation.ReflTransGen (CallStep strict k)

namespace CallPath

variable {strict : Prop} {k : Cause} {c c' : Connection} {ws : List LooseWrite} {s t u : Stage}

theorem refl (s : Stage) : CallPath strict k s s := Relation.ReflTransGen.refl

theorem trans (h : CallPath strict k s t) (h' : CallPath strict k t u) : CallPath strict k s u :=
  Relation.ReflTransGen.trans h h'

theorem tail (h : CallPath strict k s t) (h' : CallStep strict k t u) : CallPath strict k s u :=
  Relation.ReflTransGen.tail h h'

theorem change (h : CallPath strict k s ⟨c, ws⟩) (h' : Change strict k c c') :
    CallPath strict k s ⟨c', ws⟩ := h.tail (.change ws h')

/-- What every step keeps, every path keeps. -/
theorem induction {P : Stage → Prop} (step : ∀ s t, CallStep strict k s t → P s → P t)
    (h : CallPath strict k s t) (hs : P s) : P t := by
  induction h with
  | refl => exact hs
  | tail _ hm ih => exact step _ _ hm ih

end CallPath

theorem CallStep.path {strict : Prop} {k : Cause} {s t : Stage} (h : CallStep strict k s t) :
    CallPath strict k s t := (CallPath.refl s).tail h

theorem Change.path {strict : Prop} {k : Cause} {c c' : Connection} (h : Change strict k c c')
    (ws : List LooseWrite) : CallPath strict k ⟨c, ws⟩ ⟨c', ws⟩ := (CallStep.change ws h).path

end ChannelMux
