import ChannelMux.Proofs.Tidy

/-!
# Core steps: what a call does, one thing at a time

A `Change` is a whole operation, and an invariant about bytes, turns of writability or payloads
would have to open each of them.  A `CoreStep` does one thing that such an invariant can see.  All
that it cannot see is one kind of step (`Plain`), described by the part of a channel that counts
(`Channel.Core`) and by the entries of the journal that do not (`Entry.isPlain`).  The end of a
channel is one step as well (`Ended`): what is done to a channel that is about to be closed, such as
the failure of its parked writes, leaves it in a state in which it is never seen.
-/

namespace ChannelMux

/-! ## What steps are about -/

/-- What the invariants say of a channel is about these fields. -/
structure Channel.Core where
  stream : StreamId
  closed : Bool
  handshake : Handshake
  parked : Parked
  cachedWeight : Option Nat
  pendingBytes : Nat
  writable : Bool
  inbound : List Inbound

def Channel.core (ch : Channel) : Core :=
  ⟨ch.stream, ch.closed, ch.handshake, ch.parked, ch.cachedWeight, ch.pendingBytes, ch.writable,
    ch.inbound⟩

/-- The timer is armed. -/
def Timers.Armed (ts : Timers) (t : Timer) : Prop := ∃ due, (due, t) ∈ ts.entries

/-- The peer states its settings or announces the end of the connection. -/
def Call.announces : Call → Bool
  | frame (.settings _) | frame (.goAway ..) => true
  | _ => false

/-- The history after an item was delivered on a stream. -/
def Journal.report (j : Journal) (id : ChannelId) (stream : StreamId) : Inbound → Journal
  | .data payload _ =>
    (j.push (.event ⟨id, .read payload⟩)).push
      (.wire (some id) ⟨.consume stream payload.length, none⟩)
  | .trailers => j

/-- The entries with which the attempt to start a handshake fails.  No attempt is made if there are
none. -/
inductive Channel.FailedStart (ch : Channel) (id : ChannelId) : List Entry → Prop
  | none : ch.FailedStart id []
  | unreserved (stream : StreamId) (f : WriteFault) :
      ch.handshake = .awaitingSettings →
      ch.FailedStart id [.wire (some id) ⟨.reserve stream, some f⟩]
  | refused (stream : StreamId) (block : HeaderBlock) (f : WriteFault) :
      ch.handshake = .awaitingSettings →
      ch.FailedStart id [.wire (some id) ⟨.reserve stream, none⟩,
        .wire (some id) ⟨.headers stream block false, some f⟩]

/-- The second channel has the stream of the first, which may have had none yet, and it waits for
the settings only if the first did. -/
structure Channel.Follows (ch ch' : Channel) : Prop where
  stream : ch'.stream = ch.stream ∨ ch.closed = false ∧ ch.handshake = .awaitingSettings
  waiting : ch'.closed = false → ch'.handshake = .awaitingSettings →
    ch.closed = false ∧ ch.handshake = .awaitingSettings

/-- The second channel is what the first has become by being closed.  The parked writes may have
been given up twice on the way, and they are counted off once, if nothing is counted for writes that
were given up. -/
structure Channel.Over (ch ch' : Channel) : Prop where
  closed : ch'.closed = true
  inbound : ch'.inbound = []
  writable : ch'.writable = ch.writable
  pendingBytes : ch'.pendingBytes ≤ ch.pendingBytes
  countedOff : ch.parked.giveUp.2.bytes = 0 →
    ch'.pendingBytes = ch.pendingBytes - ch.parked.bytes
  parked : ch'.parked = ch.parked.giveUp.2
  handshake : ch'.handshake.isPending = false
  stream : ch'.stream = ch.stream ∨ ch.handshake = .awaitingSettings

namespace Channel

variable {ch ch' : Channel}

theorem Follows.of_core (h : ch'.core = ch.core) : ch.Follows ch' := by
  refine ⟨.inl (congrArg Core.stream h), fun ho ha => ⟨?_, ?_⟩⟩
  · exact (congrArg Core.closed h).symm.trans ho
  · exact (congrArg Core.handshake h).symm.trans ha

theorem Follows.refl (ch : Channel) : ch.Follows ch := .of_core rfl

theorem Akin.follows (h : ch.Akin ch') : ch.Follows ch' :=
  ⟨.inl h.stream, fun ho ha => ⟨h.closed.symm.trans ho, h.awaiting ha⟩⟩

theorem Alike.follows (h : ch.Alike ch') : ch.Follows ch' :=
  ⟨.inl h.stream, fun ho ha => ⟨h.closed.symm.trans ho, h.handshake.symm.trans ha⟩⟩

theorem Over.follows (h : ch.Over ch') (ho : ch.closed = false) : ch.Follows ch' where
  stream := h.stream.imp_right fun ha => ⟨ho, ha⟩
  waiting ho' := absurd (ho'.symm.trans h.closed) (by decide)

end Channel

namespace Connection

/-- The peer has stated its settings or announced the end of the connection. -/
def announced (c : Connection) : Bool := c.peer.settingsReceived || c.goingAway.isSome

/-- Nothing has changed that the invariants are about. -/
structure Plain (k : Cause) (c c' : Connection) : Prop where
  config : c'.config = c.config
  encoder : c'.encoder = c.encoder ∨ ∃ e, k.call = .setEncoder e
  announced : c'.announced = c.announced ∨ c'.announced = true ∧ k.call.announces = true
  nextChannel : c'.nextChannel = c.nextChannel
  nextWrite : c'.nextWrite = c.nextWrite
  inflight : c'.inflight = c.inflight
  tasks : c'.tasks = c.tasks
  timeouts : ∀ id, c'.timers.Armed (.handshakeTimeout id) ↔ c.timers.Armed (.handshakeTimeout id)
  cores : ∀ id, (c'.channels.get? id).map Channel.core = (c.channels.get? id).map Channel.core
  journal : c.journal.Extends (fun e => e.isPlain = true) c'.journal

/-- An open channel was closed; before that the given entries were made. -/
structure Ended (c : Connection) (id : ChannelId) (ch : Channel) (es : List Entry)
    (c' : Connection) : Prop where
  config : c'.config = c.config
  encoder : c'.encoder = c.encoder
  announced : c'.announced = c.announced
  nextChannel : c'.nextChannel = c.nextChannel
  nextWrite : c.nextWrite ≤ c'.nextWrite
  inflight : c'.inflight = c.inflight.keep fun w => w.channel ≠ id
  tasks : c'.tasks = c.tasks ++ [.tearDown id]
  timeouts : ∀ j, c'.timers.Armed (.handshakeTimeout j) ↔
    j ≠ id ∧ c.timers.Armed (.handshakeTimeout j)
  channels : ∃ ch', c'.channels = c.channels.insert id ch' ∧ ch.Over ch'
  frames : c'.stats.discardedFrames = c.stats.discardedFrames + ch.inbound.length
  bytes : c'.stats.discardedBytes = c.stats.discardedBytes + ch.inboundBytes
  journal : ({ c.journal with entries := c.journal.entries ++ es }).Extends
    (fun e => e.isPlain = true) c'.journal

end Connection

open Connection in
/-- One thing that is done in the course of a call. -/
inductive CoreStep (strict : Prop) (k : Cause) : Stage → Stage → Prop where
  | plain {c c' : Connection} (ws : List LooseWrite) :
      Plain k c c' → CoreStep strict k ⟨c, ws⟩ ⟨c', ws⟩
  -- Conversations that begin.
  | asked {c : Connection} (path : String) (subprotocol : Option String) (ws : List LooseWrite) :
      c.config.role = .client → k = ⟨c, .openStream path subprotocol⟩ →
      CoreStep strict k ⟨c, ws⟩ ⟨(c.addAsking path subprotocol).2, ws⟩
  | requested {c : Connection} {id : ChannelId} {ch : Channel} {stream : StreamId}
      (block : HeaderBlock) (ws : List LooseWrite) :
      c.channels.get? id = some ch → ch.closed = false → ch.handshake = .awaitingSettings →
      (strict → stream ≠ 0) →
      CoreStep strict k ⟨c, ws⟩ ⟨{ c with
        channels := c.channels.insert id
          { ch with stream := stream, cachedWeight := none, handshake := .requestSent }
        registry := c.registry.insert stream id
        journal := (c.journal.push (.wire (some id) ⟨.reserve stream, none⟩)).push
          (.wire (some id) ⟨.headers stream block false, none⟩) }, ws⟩
  | enrolled {c : Connection} {stream : StreamId} (path : String) (subprotocol : Option String)
      (compression : Option Deflate.Terms) (block : HeaderBlock) (ws : List LooseWrite) :
      c.config.role = .server → (strict → stream ≠ 0) →
      CoreStep strict k ⟨c, ws⟩ ⟨{ c.enrol stream path subprotocol compression with
        journal := c.journal.push
          (.wire (some c.nextChannel) ⟨.headers stream block false, none⟩) }, ws⟩
  /-- The answer that admits a conversation is not taken. -/
  | turnedAway {c : Connection} {stream : StreamId} (block : HeaderBlock) (f : WriteFault)
      (registry : Registry ChannelId) (ws : List LooseWrite) :
      c.config.role = .server →
      CoreStep strict k ⟨c, ws⟩ ⟨{ c with
        nextChannel := c.nextChannel + 1
        registry := registry
        journal := c.journal.push
          (.wire (some c.nextChannel) ⟨.headers stream block false, some f⟩) }, ws⟩
  | weightCached {c : Connection} {id : ChannelId} {ch : Channel} (weight : Nat)
      (ws : List LooseWrite) :
      c.channels.get? id = some ch → ch.closed = false → ch.stream = 0 →
      CoreStep strict k ⟨c, ws⟩
        ⟨{ c with channels := c.channels.insert id { ch with cachedWeight := some weight } }, ws⟩
  -- Reading.
  | received {c : Connection} {id : ChannelId} {ch : Channel} (item : Inbound)
      (ws : List LooseWrite) :
      c.channels.get? id = some ch → c = { k.conn with reading := true } →
      (∃ stream, c.registry.get? stream = some (.active id)) →
      k.conn.arriving id k.call = item.payload?.toList →
      CoreStep strict k ⟨c, ws⟩ ⟨{ c with channels := c.channels.insert id (ch.receive item) }, ws⟩
  | handed {c : Connection} {id : ChannelId} {ch : Channel} {item : Inbound}
      {rest : List Inbound} (ws : List LooseWrite) :
      c.channels.get? id = some ch → ch.closed = false → ch.inbound = item :: rest →
      CoreStep strict k ⟨c, ws⟩ ⟨{ c with
        channels := c.channels.insert id { ch with inbound := rest }
        journal := c.journal.report id ch.stream item }, ws⟩
  -- Writing.
  /-- A write is accepted from the application. -/
  | takenUp {c : Connection} {id : ChannelId} {ch : Channel} {payload : Bytes} :
      k.call = .write id payload ∨ k.call = .writeAndFlush id payload → k.conn = c →
      c.channels.get? id = some ch → ch.closed = false → ch.outboundClosed = false →
      CoreStep strict k ⟨c, []⟩
        ⟨(c.issue .held).2.countBytes id ch payload.length, [⟨id, payload, c.ledger.next⟩]⟩
  | parked {c : Connection} {w : LooseWrite} {ws : List LooseWrite} {ch : Channel}
      {parked : Parked} :
      c.channels.get? w.channel = some ch → ch.closed = false → ch.handshake.isPending = true →
      ch.parked.push? w.payload w.ticket = some parked →
      CoreStep strict k ⟨c, w :: ws⟩
        ⟨{ c with channels := c.channels.insert w.channel { ch with parked := parked } }, ws⟩
  | unparked {c : Connection} {id : ChannelId} {ch : Channel} (subprotocol : Option String)
      (compression : Option Deflate.Terms) :
      c.channels.get? id = some ch → ch.handshake = .requestSent →
      CoreStep strict k ⟨c, []⟩
        ⟨c.markComplete id subprotocol compression,
          (ch.parked.take.1.getD []).map fun w => ⟨id, w.1, w.2⟩⟩
  | sent {c : Connection} {w : LooseWrite} {ws : List LooseWrite} {ch : Channel} :
      c.channels.get? w.channel = some ch → ch.closed = false →
      CoreStep strict k ⟨c, w :: ws⟩ ⟨{ c.enterWrite w.channel w.payload w.ticket with
        journal := c.journal.push
          (.wire (some w.channel) ⟨.data c.nextWrite ch.stream w.payload false, none⟩) }, ws⟩
  | bounced {c : Connection} {w : LooseWrite} {ws : List LooseWrite} {ch : Channel}
      (f : WriteFault) :
      c.channels.get? w.channel = some ch → ch.closed = false →
      CoreStep strict k ⟨c, w :: ws⟩ ⟨{ c.enterWrite w.channel w.payload w.ticket with
        journal := c.journal.push (.wire (some w.channel)
          ⟨.data c.nextWrite ch.stream w.payload false, some f⟩) }.settleWrite c.nextWrite
            ⟨w.channel, w.payload.length, w.ticket⟩ (some f), ws⟩
  | settled {c : Connection} {write : WriteId} {w : Inflight} (fault : Option WriteFault)
      (ws : List LooseWrite) :
      k = ⟨c, .writeCompleted write fault⟩ → c.inflight.get? write = some w →
      CoreStep strict k ⟨c, ws⟩ ⟨c.settleWrite write w fault, ws⟩
  | dropped {c : Connection} {w : LooseWrite} {ws : List LooseWrite} :
      (∀ ch, c.channels.get? w.channel = some ch → ch.closed = false →
        ch.handshake.isPending = true ∧ ch.parked.settled = true) →
      CoreStep strict k ⟨c, w :: ws⟩ ⟨c.resolve w.ticket (.failed .channelClosed), ws⟩
  | recovered {c : Connection} {id : ChannelId} {ch : Channel} (ws : List LooseWrite) :
      c.channels.get? id = some ch → ch.closed = false →
      CoreStep strict k ⟨c, ws⟩ ⟨c.recoverChannel id, ws⟩
  -- The end of channels and of the connection.
  | ended {c c' : Connection} {id : ChannelId} {ch : Channel} {es : List Entry}
      (ws : List LooseWrite) :
      c.channels.get? id = some ch → ch.closed = false → ch.FailedStart id es →
      Ended c id ch es c' → CoreStep strict k ⟨c, ws⟩ ⟨c', ws⟩
  /-- The parked writes of a channel that is closed already are failed once more. -/
  | gaveUp {c : Connection} {id : ChannelId} {ch : Channel} (cause : Fault)
      (ws : List LooseWrite) :
      c.channels.get? id = some ch → ch.closed = true →
      CoreStep strict k ⟨c, ws⟩ ⟨c.failParked id cause, ws⟩
  | inflightLost (c : Connection) (ws : List LooseWrite) :
      k.call = .connectionLost → CoreStep strict k ⟨c, ws⟩ ⟨c.loseInflight, ws⟩
  | cleared (c : Connection) (ws : List LooseWrite) :
      k.call = .connectionLost → (∀ id, c.isOpen id = false) →
      CoreStep strict k ⟨c, ws⟩ ⟨c.clearAll, ws⟩
  -- Upkeep.
  /-- The deadline of a handshake passes that is not waited for any more. -/
  | missed {c : Connection} {id : ChannelId} {timers : Timers} (ws : List LooseWrite) :
      (∃ now, c.timers.popDue now = some (.handshakeTimeout id, timers)) →
      (∀ ch, c.channels.get? id = some ch → ch.closed = false → ch.handshake.isPending = false) →
      CoreStep strict k ⟨c, ws⟩ ⟨{ c with timers := timers }, ws⟩
  | turned {c : Connection} {id : ChannelId} {on : Bool} {tasks : List Task}
      (ws : List LooseWrite) :
      c.tasks = .reportWritability id on :: tasks → c.channels.contains id = true →
      CoreStep strict k ⟨c, ws⟩
        ⟨{ c with tasks := tasks, journal := c.journal.push (.event ⟨id, .writability on⟩) }, ws⟩
  | unheard {c : Connection} {id : ChannelId} {on : Bool} {tasks : List Task}
      (ws : List LooseWrite) :
      c.tasks = .reportWritability id on :: tasks → c.channels.contains id = false →
      CoreStep strict k ⟨c, ws⟩ ⟨{ c with tasks := tasks }, ws⟩
  | tornDown {c : Connection} {id : ChannelId} {tasks : List Task} (ws : List LooseWrite) :
      c.tasks = .tearDown id :: tasks →
      CoreStep strict k ⟨c, ws⟩ ⟨{ c with tasks := tasks, channels := c.channels.erase id }, ws⟩

/-- Steps of a call made one after another. -/
def CorePath (strict : Prop) (k : Cause) : Stage → Stage → Prop :=
  Relation.ReflTransGen (CoreStep strict k)

namespace Connection

variable {strict : Prop} {k : Cause} {c c' d : Connection} {id j : ChannelId}
  {ch ch' : Channel} {ws : List LooseWrite} {s t u : Stage}

/-! ## Plain steps -/

namespace Plain

theorem refl (c : Connection) : Plain k c c :=
  ⟨rfl, .inl rfl, .inl rfl, rfl, rfl, rfl, rfl, fun _ => Iff.rfl, fun _ => rfl, .refl _⟩

/-- A channel after a plain step was there before it. -/
theorem back (h : Plain k c c') (hch : c'.channels.get? id = some ch') :
    ∃ ch, c.channels.get? id = some ch ∧ ch'.core = ch.core := by
  have hcore := h.cores id
  rw [hch, Option.map_some, eq_comm, Option.map_eq_some_iff] at hcore
  obtain ⟨ch, hch, heq⟩ := hcore
  exact ⟨ch, hch, heq.symm⟩

theorem forth (h : Plain k c c') (hch : c.channels.get? id = some ch) :
    ∃ ch', c'.channels.get? id = some ch' ∧ ch'.core = ch.core := by
  have hcore := h.cores id
  rw [hch, Option.map_some, Option.map_eq_some_iff] at hcore
  exact hcore

/-- The channels match in any way that the core decides. -/
theorem channels {R : Channel → Channel → Prop} (h : Plain k c c')
    (hR : ∀ ch ch' : Channel, ch'.core = ch.core → R ch ch') :
    c.channels.Matches R c'.channels := by
  intro id
  cases hch : c.channels.get? id with
  | none =>
    have hcore := h.cores id
    rw [hch, Option.map_none, Option.map_eq_none_iff] at hcore
    rw [hcore]
    exact .none
  | some ch =>
    obtain ⟨ch', hch', hcore⟩ := h.forth hch
    rw [hch']
    exact .some (hR ch ch' hcore)

/-- The connection has said or counted something. -/
theorem told (c : Connection) {journal : Journal}
    (h : c.journal.Extends (fun e => e.isPlain = true) journal) (stats : Stats) :
    Plain k c { c with journal := journal, stats := stats } :=
  { refl c with journal := h }

theorem note (c : Connection) {e : Entry} (h : e.isPlain = true) : Plain k c (c.note e) :=
  told c (Journal.extends_push _ h) c.stats

theorem emit (c : Connection) (id : ChannelId) (what : Happening)
    (h : (Entry.event ⟨id, what⟩).isPlain = true) : Plain k c (c.emit id what) :=
  note c h

theorem flush (c : Connection) : Plain k c c.flush := note c rfl

theorem submit (c : Connection) (owner : Option ChannelId) (call : WireCall)
    (h : ∀ fault, (Entry.wire owner ⟨call, fault⟩).isPlain = true) :
    Plain k c (c.submit owner call).2 :=
  note c (h _)

theorem insert (h : c.channels.get? id = some ch) (ch' : Channel) (hcore : ch'.core = ch.core) :
    Plain k c { c with channels := c.channels.insert id ch' } := by
  refine { refl c with cores := ?_ }
  intro j
  rw [Table.get?_insert]
  split
  next hj => rw [hj, h, Option.map_some, Option.map_some, hcore]
  next => rfl

theorem update (c : Connection) (id : ChannelId) {f : Channel → Channel}
    (hf : ∀ ch : Channel, (f ch).core = ch.core) : Plain k c (c.updateChannel id f) := by
  cases h : c.channels.get? id with
  | none => rw [updateChannel, Table.modify_of_none h]; exact refl c
  | some ch => rw [updateChannel_eq h]; exact insert h _ (hf ch)

end Plain

theorem Plain.path (h : Plain k c c') (ws : List LooseWrite) :
    CorePath strict k ⟨c, ws⟩ ⟨c', ws⟩ := Relation.ReflTransGen.single (.plain ws h)

/-! ## Paths of steps -/

end Connection

namespace CorePath

open Connection

variable {strict : Prop} {k : Cause} {c c' : Connection} {ws : List LooseWrite} {s t u : Stage}

theorem refl (s : Stage) : CorePath strict k s s := Relation.ReflTransGen.refl

theorem trans (h : CorePath strict k s t) (h' : CorePath strict k t u) : CorePath strict k s u :=
  Relation.ReflTransGen.trans h h'

theorem tail (h : CorePath strict k s t) (h' : CoreStep strict k t u) : CorePath strict k s u :=
  Relation.ReflTransGen.tail h h'

theorem plain (h : CorePath strict k s ⟨c, ws⟩) (h' : Plain k c c') :
    CorePath strict k s ⟨c', ws⟩ := h.tail (.plain ws h')

end CorePath

theorem CoreStep.path {strict : Prop} {k : Cause} {s t : Stage} (h : CoreStep strict k s t) :
    CorePath strict k s t := Relation.ReflTransGen.single h

namespace Connection

variable {strict : Prop} {k : Cause} {c c' : Connection} {id : ChannelId} {ch ch' : Channel}
  {s t : Stage}

/-! ## Steps keep connections tidy -/

namespace Tidy

/-- A new value for a channel that is open, and changes that concern no channel. -/
theorem of_open (hc : c.Tidy) (h : c.channels.get? id = some ch) (ho : ch.closed = false)
    (ch' : Channel) (ho' : ch'.closed = false) (hchannels : c'.channels = c.channels.insert id ch')
    (hnext : c'.nextChannel = c.nextChannel) (htasks : c'.tasks = c.tasks) : c'.Tidy := by
  refine hc.of_insert ch' hchannels (Nat.le_of_eq hnext.symm) (hnext ▸ hc.numbered h) ?_ ?_
  · intro j hj
    rw [htasks] at hj
    refine .inr ⟨?_, hj⟩
    rintro rfl
    exact Bool.false_ne_true (ho.symm.trans ((hc.doomed hj).2 ch h))
  · intro hclosed
    exact absurd (ho'.symm.trans hclosed) Bool.false_ne_true

/-- Changes that concern no channel. -/
theorem of_eq (hc : c.Tidy) (hchannels : c'.channels = c.channels)
    (hnext : c.nextChannel ≤ c'.nextChannel) (htasks : ∀ t ∈ c'.tasks, t ∈ c.tasks) : c'.Tidy :=
  hc.of_back hnext (fun _ ht => htasks _ ht) fun _ ch h => ⟨ch, hchannels ▸ h, rfl, fun hp => hp⟩

theorem plain (hc : c.Tidy) (h : Plain k c c') : c'.Tidy := by
  refine hc.of_back (Nat.le_of_eq h.nextChannel.symm) (fun id ht => h.tasks ▸ ht) ?_
  intro id ch' hch'
  obtain ⟨ch, hch, hcore⟩ := h.back hch'
  have hhand : ch'.handshake = ch.handshake := congrArg Channel.Core.handshake hcore
  exact ⟨ch, hch, congrArg Channel.Core.closed hcore, fun hp => hhand ▸ hp⟩

/-- A channel is open that waits for an answer. -/
theorem open_of_requestSent (hc : c.Tidy) (h : c.channels.get? id = some ch)
    (hs : ch.handshake = .requestSent) : ch.closed = false := by
  apply Bool.eq_false_iff.mpr
  intro hclosed
  have hdecided := hc.decided h hclosed
  rw [hs] at hdecided
  cases hdecided

theorem ended (hc : c.Tidy) (h : c.channels.get? id = some ch) {es : List Entry}
    (he : Ended c id ch es c') : c'.Tidy := by
  obtain ⟨ch', hchannels, hover⟩ := he.channels
  refine hc.of_insert ch' hchannels (Nat.le_of_eq he.nextChannel.symm)
    (he.nextChannel ▸ hc.numbered h) ?_ fun _ => hover.handshake
  intro j hj
  rw [he.tasks, List.mem_append, List.mem_singleton, Task.tearDown.injEq] at hj
  by_cases hji : j = id
  · exact .inl ⟨hji, hover.closed⟩
  · exact .inr ⟨hji, hj.resolve_right hji⟩

theorem made_of_eq (hc : c.Tidy) {ch : Channel} (ho : ch.closed = false)
    (hchannels : c'.channels = c.channels.insert c.nextChannel ch)
    (hnext : c'.nextChannel = c.nextChannel + 1) (htasks : c'.tasks = c.tasks) : c'.Tidy :=
  (hc.made ho).of_eq hchannels (Nat.le_of_eq hnext.symm) fun _ ht => htasks ▸ ht

theorem coreStep (hc : s.conn.Tidy) (h : CoreStep strict k s t) : t.conn.Tidy := by
  cases h with
  | plain ws h => exact hc.plain h
  | asked => rw [addAsking_eq]; exact hc.made_of_eq (by rfl) rfl rfl rfl
  | requested block ws h ho => exact hc.of_open h ho _ (by exact ho) rfl rfl rfl
  | enrolled => exact hc.made_of_eq (by rfl) rfl rfl rfl
  | turnedAway => exact hc.of_eq rfl (Nat.le_succ _) fun _ ht => ht
  | weightCached weight ws h ho => exact hc.of_open h ho _ (by exact ho) rfl rfl rfl
  | received item ws h =>
    exact hc.quiet (.insert h _ (alike_receive _ item) _)
  | handed ws h ho => exact hc.of_open h ho _ (by exact ho) rfl rfl rfl
  | @takenUp c id ch payload _ _ h =>
    have hissued : (c.issue .held).2.Tidy := hc.of_eq rfl (Nat.le_refl _) fun _ ht => ht
    exact hissued.beside (beside_countBytes (c.issue .held).2 h _)
  | parked h ho => exact hc.of_open h ho _ (by exact ho) rfl rfl rfl
  | @unparked c id ch subprotocol compression h hs =>
    have ho := hc.open_of_requestSent h hs
    rw [markComplete, Table.modify_eq_insert h]
    exact hc.of_open h ho _ (by exact ho) rfl rfl rfl
  | sent => exact hc.of_eq rfl (Nat.le_refl _) fun _ ht => ht
  | @bounced c w _ ch f =>
    have hsent : { c.enterWrite w.channel w.payload w.ticket with
        journal := c.journal.push (.wire (some w.channel)
          ⟨.data c.nextWrite ch.stream w.payload false, some f⟩) }.Tidy :=
      hc.of_eq rfl (Nat.le_refl _) fun _ ht => ht
    exact hsent.beside (beside_settleWrite ..)
  | settled fault => exact hc.beside (beside_settleWrite ..)
  | dropped => exact hc.of_eq rfl (Nat.le_refl _) fun _ ht => ht
  | recovered => exact hc.beside (beside_recoverChannel ..)
  | ended ws h _ _ he => exact hc.ended h he
  | gaveUp cause => exact hc.beside (.failParked ..)
  | inflightLost => exact hc.of_eq rfl (Nat.le_refl _) fun _ ht => ht
  | cleared => exact hc.of_eq rfl (Nat.le_refl _) fun _ ht => ht
  | missed => exact hc.of_eq rfl (Nat.le_refl _) fun _ ht => ht
  | turned ws h => exact hc.of_eq rfl (Nat.le_refl _) fun t ht => h ▸ List.mem_cons_of_mem _ ht
  | unheard ws h => exact hc.of_eq rfl (Nat.le_refl _) fun t ht => h ▸ List.mem_cons_of_mem _ ht
  | tornDown ws h => exact hc.erase _ (fun t ht => h ▸ List.mem_cons_of_mem _ ht) _

end Tidy

end Connection

namespace CoreStep

open Connection

variable {strict : Prop} {k : Cause} {s t : Stage}

theorem config (h : CoreStep strict k s t) : t.conn.config = s.conn.config := by
  cases h with
  | plain ws h => exact h.config
  | asked => rw [addAsking_eq]
  | @takenUp c id ch payload =>
    obtain ⟨_, heq, -⟩ := countBytes_eq (c.issue .held).2 id ch payload.length
    rw [heq]
    rfl
  | bounced | settled => exact (beside_settleWrite ..).config
  | recovered => exact (beside_recoverChannel ..).config
  | ended ws _ _ _ he => exact he.config
  | gaveUp => exact (Beside.failParked ..).config
  | _ => rfl

/-- The encoder is the one that the call found, unless the call brings another. -/
theorem encoder (h : CoreStep strict k s t) (hk : ∀ e, k.call ≠ .setEncoder e) :
    t.conn.encoder = s.conn.encoder := by
  cases h with
  | plain ws h => exact h.encoder.resolve_right fun ⟨e, he⟩ => hk e he
  | asked => rw [addAsking_eq]
  | @takenUp c id ch payload =>
    obtain ⟨_, heq, -⟩ := countBytes_eq (c.issue .held).2 id ch payload.length
    rw [heq]
    rfl
  | bounced | settled => exact (surroundings_settleWrite ..).1
  | recovered ws h =>
    obtain ⟨_, _, heq, -⟩ := recoverChannel_eq h
    rw [heq]
  | ended ws _ _ _ he => exact he.encoder
  | gaveUp cause ws h => rw [failParked_eq h]
  | _ => rfl

/-- The history goes on. -/
theorem history (h : CoreStep strict k s t) :
    s.conn.journal.Extends (fun _ => True) t.conn.journal := by
  cases h with
  | plain ws h => exact h.journal.mono fun _ _ => trivial
  | asked => rw [addAsking_eq]; exact .refl _
  | requested => exact ((Journal.Extends.refl _).push trivial).push trivial
  | enrolled | turnedAway | turned | cleared => exact (Journal.Extends.refl _).push trivial
  | @handed c id ch item =>
    cases item with
    | data => exact ((Journal.Extends.refl _).push trivial).push trivial
    | trailers => exact .refl _
  | @takenUp c id ch payload =>
    obtain ⟨_, heq, -⟩ := countBytes_eq (c.issue .held).2 id ch payload.length
    rw [heq]
    exact .refl _
  | sent => exact (Journal.Extends.refl _).push trivial
  | bounced =>
    exact ((Journal.Extends.refl _).push trivial).trans
      ((beside_settleWrite ..).journal.mono fun _ _ => trivial)
  | settled => exact (beside_settleWrite ..).journal.mono fun _ _ => trivial
  | recovered => exact (beside_recoverChannel ..).journal.mono fun _ _ => trivial
  | @ended c c' id ch es ws _ _ _ he =>
    have hes : c.journal.Extends (fun _ => True)
        { c.journal with entries := c.journal.entries ++ es } := ⟨es, rfl, fun _ _ => trivial⟩
    exact hes.trans (he.journal.mono fun _ _ => trivial)
  | gaveUp cause ws h => rw [failParked_eq h]; exact .refl _
  | _ => exact .refl _

/-- Whether the settings are known or the end is announced changes only by such an announcement. -/
theorem announced (h : CoreStep strict k s t) : t.conn.announced = s.conn.announced ∨
    t.conn.announced = true ∧ k.call.announces = true := by
  cases h with
  | plain ws h => exact h.announced
  | asked => rw [addAsking_eq]; exact .inl rfl
  | @takenUp c id ch payload =>
    obtain ⟨_, heq, -⟩ := countBytes_eq (c.issue .held).2 id ch payload.length
    rw [heq]
    exact .inl rfl
  | bounced | settled =>
    obtain ⟨-, hpeer, hgoing⟩ := surroundings_settleWrite ..
    exact .inl (by rw [announced, hpeer, hgoing]; rfl)
  | recovered ws h =>
    obtain ⟨_, _, heq, -⟩ := recoverChannel_eq h
    rw [heq]
    exact .inl rfl
  | ended ws _ _ _ he => exact .inl he.announced
  | gaveUp cause ws h => rw [failParked_eq h]; exact .inl rfl
  | _ => exact .inl rfl

end CoreStep

/-- What every step of a call keeps, the call keeps.  A step is made on a tidy connection. -/
theorem CorePath.induction {strict : Prop} {k : Cause} {s t : Stage} {P : Stage → Prop}
    (step : ∀ u v, u.conn.Tidy → CoreStep strict k u v → P u → P v) (ht : s.conn.Tidy)
    (h : CorePath strict k s t) (hs : P s) : t.conn.Tidy ∧ P t := by
  induction h with
  | refl => exact ⟨ht, hs⟩
  | tail _ hstep ih => exact ⟨ih.1.coreStep hstep, step _ _ ih.1 hstep ih.2⟩

end ChannelMux
