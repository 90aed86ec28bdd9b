import ChannelMux.Proofs.Dispatch

/-!
# Stream steps: what a call does to streams and deadlines

Who may send on a stream, how long late frames of it are absorbed, and whether new streams are still
asked for are questions about the registry, the deadlines and the journal together.  A `StreamStep`
does one thing that such a question can see.  All that it cannot see is one kind of step (`Calm`),
and closing appears as itself, together with what is done to the channel just before.

A step knows its cause as far as the laws need it: the clock moves and streams are asked for in
certain calls only, and deadlines pass in no call but the one that says how late it is.
-/

namespace ChannelMux

/-! ## What does not matter -/

/-- The entry needs no stream of ours: nothing is reserved, no data is sent, no stream is reset and
no channel closed.  Headers are the answers of a server. -/
def Entry.isLight (role : Role) : Entry → Bool
  | wire _ e =>
    match e.call with
    | .headers .. => role = .server
    | .reserve _ | .data .. | .reset .. => false
    | .priority .. | .flush | .consume .. | .forward _ | .inactive => true
  | event _ | delivered .. => true
  | closed _ => false

/-- Where the handshake has come to an end the stream was asked for. -/
theorem Handshake.asked_of_decided {h : Handshake} (hp : h.isPending = false) :
    h ≠ .awaitingSettings := by
  rintro rfl
  cases hp

namespace Channel

/-- It was noted that the peer ended the stream, if nobody had ended it before.  The peer cannot end
a stream that was not asked for. -/
def NotesEnd (ch ch' : Channel) : Prop :=
  ch'.initiator = ch.initiator ∨
    ch.handshake ≠ .awaitingSettings ∧ ch.initiator = none ∧ ch'.initiator = some .theirs

/-- The second channel has the stream and the handshake of the first. -/
structure Unmoved (ch ch' : Channel) : Prop where
  stream : ch'.stream = ch.stream
  closed : ch'.closed = ch.closed
  handshake : ch'.handshake = ch.handshake
  inboundClosed : ch.handshake.isPending = true → ch'.inboundClosed = ch.inboundClosed
  initiator : ch.NotesEnd ch'

/-- What may be done to an open channel that is about to be closed. -/
structure Outgoing (ch ch' : Channel) : Prop where
  stream : ch'.stream = ch.stream
  closed : ch'.closed = false
  inboundClosed : ch'.inboundClosed = ch.inboundClosed
  handshake : ch.handshake ≠ .awaitingSettings → ch'.handshake ≠ .awaitingSettings
  initiator : ch.NotesEnd ch'

variable {ch ch' : Channel}

namespace Unmoved

/-- For a change that has nothing to do with streams. -/
theorem of_eq (hstream : ch'.stream = ch.stream) (hclosed : ch'.closed = ch.closed)
    (hhand : ch'.handshake = ch.handshake) (hin : ch'.inboundClosed = ch.inboundClosed)
    (hinit : ch'.initiator = ch.initiator) : ch.Unmoved ch' :=
  ⟨hstream, hclosed, hhand, fun _ => hin, .inl hinit⟩

theorem refl (ch : Channel) : ch.Unmoved ch := .of_eq rfl rfl rfl rfl rfl

theorem requestRead (ch : Channel) (budget : Nat) : ch.Unmoved (ch.requestRead budget) := by
  rw [Channel.requestRead]
  split <;> exact .of_eq rfl rfl rfl rfl rfl

theorem notesEnd (ha : ch.handshake ≠ .awaitingSettings)
    (hinit : ch'.initiator = some (ch.initiator.getD .theirs)) : ch.NotesEnd ch' := by
  cases hch : ch.initiator with
  | none => exact .inr ⟨ha, hch, by rw [hinit, hch]; rfl⟩
  | some who => exact .inl (by rw [hinit, hch]; rfl)

theorem receive (item : Inbound) (hp : ch.handshake.isPending = false) :
    ch.Unmoved (ch.receive item) := by
  have ha := Handshake.asked_of_decided hp
  rw [Channel.receive]
  dsimp only
  split
  · exact ⟨rfl, rfl, rfl, fun h => absurd (hp.symm.trans h) (by decide), notesEnd ha rfl⟩
  · exact .of_eq rfl rfl rfl rfl rfl

/-- The parked writes of a channel that is closed already do not matter. -/
theorem giveUpParked (hp : ch.handshake.isPending = false) : ch.Unmoved ch.giveUpParked :=
  .of_eq rfl rfl (handshake_giveUpParked hp) rfl rfl

end Unmoved

theorem Outgoing.of_open (ho : ch.closed = false) : ch.Outgoing ch :=
  ⟨rfl, ho, rfl, fun h => h, .inl rfl⟩

theorem Outgoing.giveUpParked (h : ch.Outgoing ch') : ch.Outgoing ch'.giveUpParked where
  stream := h.stream
  closed := h.closed
  inboundClosed := h.inboundClosed
  handshake _ := Handshake.asked_of_decided (isPending_giveUpParked ch')
  initiator := h.initiator

end Channel

namespace Connection

variable {strict : Prop} {k : Cause} {c c' d : Connection} {id : ChannelId} {ch ch' : Channel}

/-- Nothing has changed that a law about streams and deadlines is about. -/
structure Calm (k : Cause) (c c' : Connection) : Prop where
  config : c'.config = c.config
  encoder : c'.encoder = c.encoder ∨ k.call = .setEncoder c'.encoder
  clock : c'.clock = c.clock ∨ ∃ ms, k.call = .advanceClock ms
  goingAway : c'.goingAway = c.goingAway ∨ c'.goingAway.isSome = true
  nextChannel : c.nextChannel ≤ c'.nextChannel
  registry : ∀ s, c'.registry.get? s = c.registry.get? s
  timers : c'.timers = c.timers
  channels : c.channels.Matches Channel.Unmoved c'.channels
  journal : c.journal.Extends (fun e => e.isLight c.config.role = true) c'.journal

/-! ## Stream steps -/

/-- One thing that is done in the course of a call. -/
inductive StreamStep (strict : Prop) (k : Cause) : Connection → Connection → Prop where
  | calm {c c' : Connection} : Calm k c c' → StreamStep strict k c c'
  -- Conversations that begin.
  | asked {c : Connection} (path : String) (subprotocol : Option String) :
      c.config.role = .client → c.goingAway = none → k = ⟨c, .openStream path subprotocol⟩ →
      StreamStep strict k c (c.addAsking path subprotocol).2
  | unreserved {c : Connection} {id : ChannelId} {ch : Channel} (stream : StreamId)
      (f : WriteFault) :
      c.channels.get? id = some ch → ch.closed = false → ch.handshake = .awaitingSettings →
      k.call.asks = true →
      StreamStep strict k c (c.note (.wire (some id) ⟨.reserve stream, some f⟩))
  | requested {c : Connection} {id : ChannelId} {ch : Channel} {stream : StreamId}
      (block : HeaderBlock) :
      c.channels.get? id = some ch → ch.closed = false → ch.handshake = .awaitingSettings →
      k.call.asks = true → (strict → stream ≠ 0 ∧ c.registry.get? stream = none) →
      StreamStep strict k c { c with
        channels := c.channels.insert id
          { ch with stream := stream, cachedWeight := none, handshake := .requestSent }
        registry := c.registry.insert stream id
        journal := (c.journal.push (.wire (some id) ⟨.reserve stream, none⟩)).push
          (.wire (some id) ⟨.headers stream block false, none⟩) }
  /-- The request is refused when the channel has got its stream already. -/
  | requestRefused {c : Connection} {id : ChannelId} {ch : Channel} {stream : StreamId}
      (block : HeaderBlock) (f : WriteFault) (ledger : Ledger) :
      c.channels.get? id = some ch → ch.closed = false → ch.handshake = .awaitingSettings →
      k.call.asks = true → (strict → stream ≠ 0 ∧ c.registry.get? stream = none) →
      StreamStep strict k c ({ c with
        channels := c.channels.insert id
          ({ ch with stream := stream, cachedWeight := none }).giveUpParked
        registry := c.registry.insert stream id
        ledger := ledger
        journal := ((c.journal.push (.wire (some id) ⟨.reserve stream, none⟩)).push
          (.wire (some id) ⟨.headers stream block false, some f⟩)).push
            (.event ⟨id, .failed (.write f)⟩) }.close id .reset)
  | enrolled {c : Connection} {stream : StreamId} (path : String) (subprotocol : Option String)
      (compression : Option Deflate.Terms) (block : HeaderBlock) :
      c.config.role = .server → c.registry.get? stream = none → (strict → stream ≠ 0) →
      c = { k.conn with reading := true } →
      (∃ block endStream, k.call = .frame (.headers stream block endStream)) →
      StreamStep strict k c { c.enrol stream path subprotocol compression with
        journal := c.journal.push
          (.wire (some c.nextChannel) ⟨.headers stream block false, none⟩) }
  /-- The response that a channel waited for has accepted its conversation. -/
  | answered {c : Connection} {id : ChannelId} {ch : Channel} (subprotocol : Option String)
      (compression : Option Deflate.Terms) (parked : Parked) :
      c.channels.get? id = some ch → ch.closed = false → ch.handshake = .requestSent →
      (∃ stream, c.registry.get? stream = some (.active id) ∧ k.conn.Answers k.call id stream) →
      StreamStep strict k c { c with
        channels := c.channels.insert id { ch with
          handshake := .complete, subprotocol := subprotocol, compression := compression,
          parked := parked }
        timers := c.timers.cancel (.handshakeTimeout id) }
  -- Writing.
  | sent {c : Connection} {id : ChannelId} {ch : Channel} (write : WriteId) (payload : Bytes)
      (fault : Option WriteFault) :
      c.channels.get? id = some ch → ch.closed = false → ch.handshake.isPending = false →
      StreamStep strict k c (c.note (.wire (some id) ⟨.data write ch.stream payload false, fault⟩))
  -- The end of channels and of the connection.
  | ended {c : Connection} {id : ChannelId} {ch ch' : Channel} (kind : CloseKind)
      (ledger : Ledger) (journal : Journal) :
      c.channels.get? id = some ch → ch.closed = false → ch.Outgoing ch' →
      c.journal.Extends (fun e => e.isLight c.config.role = true) journal →
      (kind = .graceful → k = ⟨c, .closeGracefully id⟩ ∧ ch' = ch ∧ journal = c.journal) →
      StreamStep strict k c ({ c with
        channels := c.channels.insert id ch', ledger := ledger, journal := journal }.close id kind)
  | tornDown {c : Connection} {id : ChannelId} (tasks : List Task) :
      (∀ ch, c.channels.get? id = some ch → ch.closed = true) → k.call = .runTasks →
      StreamStep strict k c { c with tasks := tasks, channels := c.channels.erase id }
  | cleared (c : Connection) :
      k.call = .connectionLost → (∀ id, c.isOpen id = false) → StreamStep strict k c c.clearAll
  -- Deadlines.
  | missed {c : Connection} {id : ChannelId} {now : Time} {timers : Timers} :
      c.timers.popDue now = some (.handshakeTimeout id, timers) → k.call = .timePassed now →
      StreamStep strict k c { c with timers := timers }
  | expired {c : Connection} {stream : StreamId} {now : Time} {timers : Timers} :
      c.timers.popDue now = some (.registryRemoval stream, timers) → k.call = .timePassed now →
      StreamStep strict k c { c with timers := timers, registry := c.registry.removeClosed stream }

/-- Stream steps of a call one after another. -/
def StreamPath (strict : Prop) (k : Cause) : Connection → Connection → Prop :=
  Relation.ReflTransGen (StreamStep strict k)

namespace StreamPath

theorem refl (c : Connection) : StreamPath strict k c c := Relation.ReflTransGen.refl

theorem trans (h : StreamPath strict k c c') (h' : StreamPath strict k c' d) :
    StreamPath strict k c d :=
  Relation.ReflTransGen.trans h h'

theorem tail (h : StreamPath strict k c c') (h' : StreamStep strict k c' d) :
    StreamPath strict k c d :=
  Relation.ReflTransGen.tail h h'

theorem calm (h : StreamPath strict k c c') (h' : Calm k c' d) : StreamPath strict k c d :=
  h.tail (.calm h')

/-- What every step keeps, every path keeps. -/
theorem induction {P : Connection → Prop} (step : ∀ c d, StreamStep strict k c d → P c → P d)
    (h : StreamPath strict k c c') (hc : P c) : P c' := by
  induction h with
  | refl => exact hc
  | tail _ hstep ih => exact step _ _ hstep ih

end StreamPath

theorem StreamStep.entries (h : StreamStep strict k c c') :
    c.journal.entries <+: c'.journal.entries := by
  have hadd (j : Journal) (e : Entry) : j.entries <+: (j.push e).entries := List.prefix_append _ _
  cases h with
  | calm hcalm =>
    obtain ⟨es, hes, -⟩ := hcalm.journal
    exact ⟨es, hes.symm⟩
  | asked path subprotocol =>
    have hsame : (c.addAsking path subprotocol).2.journal = c.journal := by rw [addAsking_eq]
    exact hsame ▸ List.prefix_refl _
  | unreserved | enrolled | sent | cleared => exact hadd _ _
  | requested => exact (hadd _ _).trans (hadd _ _)
  | requestRefused =>
    refine List.IsPrefix.trans ?_ (prefix_close _ _ _)
    exact ((hadd _ _).trans (hadd _ _)).trans (hadd _ _)
  | ended kind ledger journal _ _ _ hjournal =>
    obtain ⟨es, hes, -⟩ := hjournal
    refine List.IsPrefix.trans ?_ (prefix_close _ _ _)
    exact ⟨es, hes.symm⟩
  | answered | tornDown | missed | expired => exact List.prefix_refl _

theorem StreamStep.path (h : StreamStep strict k c c') : StreamPath strict k c c' :=
  Relation.ReflTransGen.single h

theorem Calm.path (h : Calm k c c') : StreamPath strict k c c' := (StreamStep.calm h).path

/-! ## Calm steps -/

namespace Calm

theorem refl (c : Connection) : Calm k c c :=
  ⟨rfl, .inl rfl, .inl rfl, .inl rfl, Nat.le_refl _, fun _ => rfl, rfl, .refl .refl _, .refl _⟩

/-- The connection has said or counted something. -/
theorem told (c : Connection) {journal : Journal}
    (h : c.journal.Extends (fun e => e.isLight c.config.role = true) journal) (stats : Stats) :
    Calm k c { c with journal := journal, stats := stats } :=
  { refl c with journal := h }

theorem note (c : Connection) {e : Entry} (h : e.isLight c.config.role = true) :
    Calm k c (c.note e) :=
  told c (Journal.extends_push _ h) c.stats

theorem emit (c : Connection) (id : ChannelId) (what : Happening) : Calm k c (c.emit id what) :=
  note c rfl

theorem flush (c : Connection) : Calm k c c.flush := note c rfl

theorem insert (h : c.channels.get? id = some ch) (hs : ch.Unmoved ch') :
    Calm k c { c with channels := c.channels.insert id ch' } :=
  { refl c with channels := .insert .refl h hs }

theorem update (c : Connection) (id : ChannelId) {f : Channel → Channel}
    (hf : ∀ ch, c.channels.get? id = some ch → ch.Unmoved (f ch)) :
    Calm k c (c.updateChannel id f) :=
  { refl c with channels := .modify .refl _ _ hf }

end Calm

theorem extends_light_of_turned {journal : Journal} (h : c.journal.Turned id journal) :
    c.journal.Extends (fun e => e.isLight c.config.role = true) journal := by
  refine Journal.Extends.mono ?_ h
  rintro _ rfl
  rfl

theorem calm_recoverChannel (c : Connection) (id : ChannelId) :
    Calm k c (c.recoverChannel id) := by
  cases h : c.channels.get? id with
  | none => rw [recoverChannel_of_none h]; exact .refl c
  | some ch =>
    obtain ⟨_, _, heq, -, hturned⟩ := recoverChannel_eq h
    rw [heq]
    exact { Calm.refl c with
      channels := .insert .refl h (.of_eq rfl rfl rfl rfl rfl)
      journal := extends_light_of_turned hturned }

theorem calm_settleWrite (c : Connection) (write : WriteId) (w : Inflight)
    (fault : Option WriteFault) : Calm k c (c.settleWrite write w fault) := by
  cases h : c.channels.get? w.channel with
  | none => rw [settleWrite_of_none write h]; exact { Calm.refl c with }
  | some ch =>
    obtain ⟨_, _, heq, -, hturned⟩ := settleWrite_eq write h fault
    rw [heq]
    exact { Calm.refl c with
      channels := .insert .refl h (.of_eq rfl rfl rfl rfl rfl)
      journal := extends_light_of_turned hturned }

theorem calm_countBytes (h : c.channels.get? id = some ch) (size : Nat) :
    Calm k c (c.countBytes id ch size) := by
  obtain ⟨_, heq, -⟩ := countBytes_eq c id ch size
  rw [heq]
  exact { Calm.refl c with channels := .insert .refl h (.of_eq rfl rfl rfl rfl rfl) }

theorem calm_flushChannel (c : Connection) (id : ChannelId) :
    StreamPath strict k c (c.flushChannel id) := by
  have hflushed : Calm k c (c.updateChannel id fun ch => { ch with unflushed := false }) :=
    .update c id fun _ _ => .of_eq rfl rfl rfl rfl rfl
  exact hflushed.path.calm (.flush _)

theorem streamPath_sendPriority (c : Connection) (id : ChannelId) (stream : StreamId)
    (weight : Nat) :
    StreamPath strict k c (c.sendPriority id stream weight).2 := by
  have hsent : Calm k c (c.submit (some id) (.priority stream (.ofWeight weight))).2 :=
    .note c rfl
  rw [sendPriority]
  split
  next heq => rw [heq] at hsent; exact hsent.path
  next heq => rw [heq] at hsent; exact hsent.path.calm (.emit ..)

/-! ## The end of channels -/

theorem streamPath_close (id : ChannelId) (kind : CloseKind)
    (hk : kind = .graceful → k = ⟨c, .closeGracefully id⟩) :
    StreamPath strict k c (c.close id kind) := by
  rcases close_cases c id kind with ⟨-, heq⟩ | ⟨ch, h, ho⟩
  · rw [heq]
    exact .refl c
  · have hended : StreamStep strict k c _ :=
      .ended kind c.ledger c.journal h ho (.of_open ho) (.refl _)
      fun hkind => ⟨hk hkind, rfl, rfl⟩
    rw [Table.insert_self h] at hended
    exact hended.path

theorem streamPath_failHandshake (id : ChannelId) (cause : Fault) :
    StreamPath strict k c (c.failHandshake id cause) := by
  rcases failHandshake_cases c id cause with heq | ⟨ch, h, ho⟩
  · rw [heq]
    exact .refl c
  · rw [failHandshake_eq h ho]
    exact (StreamStep.ended .reset _ _ h ho (Channel.Outgoing.of_open ho).giveUpParked
      (Journal.extends_push _ rfl) nofun).path

/-- A channel was noted to have been ended by the peer or not; its parked writes are failed,
something is reported, and it is closed without a frame. -/
theorem streamPath_part (ht : c.Tidy) (h : c.channels.get? id = some ch)
    {f : Channel → Channel} (hcalm : ch.Unmoved (f ch)) (hin : (f ch).inboundClosed =
      ch.inboundClosed) (what : Happening) (cause : Fault) :
    StreamPath strict k c
      ((((c.updateChannel id f).failParked id cause).emit id what).close id .remote) := by
  have hupdated := updateChannel_eq h f
  have hch : (c.updateChannel id f).channels.get? id = some (f ch) := by
    rw [hupdated, Table.get?_insert_self]
  rw [failParked_eq hch, hupdated]
  dsimp only
  rw [Table.insert_insert]
  cases ho : ch.closed with
  | true =>
    have hp : (f ch).handshake.isPending = false := by
      rw [hcalm.handshake, ht.decided h ho]
    have hgave : ch.Unmoved (f ch).giveUpParked :=
      { hcalm with handshake := (Channel.handshake_giveUpParked hp).trans hcalm.handshake }
    have hinserted : Calm k c { c with
        channels := c.channels.insert id (f ch).giveUpParked
        ledger := c.ledger.resolveAll (f ch).parkedTickets (.failed cause)
        journal := c.journal.push (.event ⟨id, what⟩) } :=
      { Calm.insert (k := k) h hgave with journal := Journal.extends_push _ rfl }
    exact hinserted.path.trans (streamPath_close id .remote nofun)
  | false =>
    have hout : ch.Outgoing (f ch).giveUpParked := Channel.Outgoing.giveUpParked
      ⟨hcalm.stream, hcalm.closed.trans ho, hin, fun h => hcalm.handshake ▸ h, hcalm.initiator⟩
    exact (StreamStep.ended .remote _ _ h ho hout (Journal.extends_push _ rfl) nofun).path

theorem streamPath_resetArrived (ht : c.Tidy) (he : c.Enlisted)
    (hr : ∃ s, c.registry.get? s = some (.active id)) (reason : Reason) :
    StreamPath strict k c (c.resetArrived id reason) := by
  rw [resetArrived]
  split
  · exact .refl c
  next ch h =>
    obtain ⟨s, hs⟩ := hr
    have hnoted : ch.Unmoved ({ ch with remoteReset := true }.noteInitiator .theirs) :=
      ⟨rfl, rfl, rfl, fun _ => rfl, Channel.Unmoved.notesEnd (he.asked s id ch hs h) rfl⟩
    have hpart : StreamPath strict k c ((((c.updateChannel id fun ch =>
        { ch with remoteReset := true }.noteInitiator .theirs).failParked id
          (.streamReset reason)).emit id (.remoteClosed (.reset reason))).close id .remote) :=
      streamPath_part ht h hnoted rfl _ _
    exact hpart

theorem streamPath_loseChannel (ht : c.Tidy) (id : ChannelId) :
    StreamPath strict k c (c.loseChannel id) := by
  cases h : c.channels.get? id with
  | none =>
    rw [loseChannel, failParked, h]
    exact (Calm.emit c id _).path.trans (streamPath_close id .remote (by simp))
  | some ch =>
    have hself : c.updateChannel id (fun ch => ch) = c := by
      rw [updateChannel_eq h, Table.insert_self h]
    have hpart : StreamPath strict k c
        ((((c.updateChannel id fun ch => ch).failParked id .connectionClosed).emit id
          (.remoteClosed .connectionClosed)).close id .remote) :=
      streamPath_part (f := fun ch => ch) ht h (.refl ch) rfl _ _
    rwa [hself] at hpart

theorem streamPath_writeFailed (id : ChannelId) : StreamPath strict k c (c.writeFailed id) := by
  rw [writeFailed]
  split
  · exact .refl c
  next ch h =>
    split
    · exact .refl c
    · split
      · exact streamPath_close id .reset (by simp)
      · have hended : Calm k c
            { c with channels := c.channels.insert id { ch with outboundClosed := true } } :=
          .insert h (.of_eq rfl rfl rfl rfl rfl)
        dsimp only
        split
        · exact hended.path.trans (streamPath_close id .remote (by simp))
        · exact hended.path

/-! ## Conversations that begin -/

theorem streamPath_accept (ht : c.Tidy) {stream : StreamId} (path : String)
    (subprotocol : Option String) (compression : Option Deflate.Terms)
    (hrole : c.config.role = .server) (hr : c.registry.get? stream = none)
    (h0 : strict → stream ≠ 0) (hc : c = { k.conn with reading := true })
    (hk : ∃ block endStream, k.call = .frame (.headers stream block endStream)) :
    StreamPath strict k c (c.accept stream path subprotocol compression) := by
  rw [accept_eq]
  generalize (Connect.Response.accepting subprotocol _).toHeaders = block
  split
  next f d heq =>
    obtain ⟨hfault, rfl⟩ := Prod.mk.inj heq
    rw [hfault]
    have hchannels : (c.enrol stream path subprotocol compression).channels.erase c.nextChannel =
        c.channels := Table.erase_insert ht.get?_nextChannel _
    refine Calm.path { Calm.refl c with
      nextChannel := Nat.le_succ _
      registry := ?_
      channels := .of_get?_eq .refl fun j => congrArg (fun t => t.get? j) hchannels
      journal := Journal.extends_push _ (decide_eq_true hrole) }
    intro s
    change ((c.registry.insert stream c.nextChannel).remove stream).get? s = _
    rw [Registry.get?_remove, Registry.get?_insert]
    split
    next hs => rw [hs, hr]
    next => rfl
  next d heq =>
    obtain ⟨hfault, rfl⟩ := Prod.mk.inj heq
    rw [hfault]
    have henrolled : StreamStep strict k c { c.enrol stream path subprotocol compression with
        journal := c.journal.push
          (.wire (some c.nextChannel) ⟨.headers stream block false, none⟩) } :=
      .enrolled path subprotocol compression block hrole hr h0 hc hk
    exact (henrolled.path.calm (.told _ (Journal.extends_push _ (by rfl)) _)).calm (.emit _ _ _)

/-! ## Reading -/

theorem streamPath_handOver (c : Connection) (id : ChannelId) (stream : StreamId) (item : Inbound)
    (rest : List Inbound) : StreamPath strict k c (c.handOver id stream item rest) := by
  have hspent (d : Connection) (reports : Bool) : Calm k d (d.updateChannel id fun ch =>
      { ch with
        inbound := rest, budget := ch.budget - 1, endReported := ch.endReported || reports }) :=
    .update d id fun _ _ => .of_eq rfl rfl rfl rfl rfl
  have hnoted : Calm k c (c.note (.delivered id item)) := .note c rfl
  cases item with
  | data payload endStream =>
    have htold : StreamPath strict k c _ := (hnoted.path.calm (.emit _ id (.read payload))).calm
      (.note _ (e := .wire (some id) ⟨.consume stream payload.length, none⟩) rfl)
    rw [handOver]
    split
    · exact (htold.calm (hspent ..)).calm (.emit ..)
    · exact htold.calm (hspent ..)
  | trailers =>
    rw [handOver]
    split
    · exact (hnoted.path.calm (hspent ..)).calm (.emit ..)
    · exact hnoted.path.calm (hspent ..)

theorem streamPath_settle (id : ChannelId) : StreamPath strict k c (c.settle id) := by
  rw [settle]
  split
  · exact .refl c
  · split
    · exact streamPath_close id .remote (by simp)
    · split
      · exact calm_flushChannel c id
      · exact .refl c

theorem streamPath_readStep (h : ReadStep c c') : StreamPath strict k c c' := by
  cases h with
  | requested id => exact Calm.path (.update c id fun ch _ => .requestRead ch _)
  | automated id on => exact Calm.path (.update c id fun _ _ => .of_eq rfl rfl rfl rfl rfl)
  | delivered id =>
    exact deliver_rel .refl .trans (fun c => streamPath_handOver c id)
      (fun _ => streamPath_settle id) c
  | completed id =>
    cases h : c.channels.get? id with
    | none => rw [fireReadComplete, h]; exact .refl c
    | some ch =>
      have hfinished : ch.Unmoved (ch.finishRead c.config.messagesPerRead) :=
        .of_eq rfl rfl rfl rfl rfl
      rw [fireReadComplete_eq h]
      exact (Calm.insert h hfinished).path.calm (.emit _ id .readComplete)
  | @queued id batch _ =>
    have hbatch : Calm k c { c with batch := batch } := { Calm.refl c with }
    exact hbatch.path.calm (.update _ id fun _ _ => .of_eq rfl rfl rfl rfl rfl)
  | drainBegun | drainFinished | cycleEnded => exact Calm.path { Calm.refl c with }
  | swept =>
    have hswept : Calm k c { c with channels := c.channels.mapEntries fun _ => flushed } :=
      { Calm.refl c with channels := .mapEntries _ fun _ _ => .of_eq rfl rfl rfl rfl rfl }
    exact hswept.path.calm (.flush _)

theorem streamPath_readPath (h : ReadPath c c') : StreamPath strict k c c' := by
  induction h with
  | refl => exact .refl c
  | tail _ hstep ih => exact ih.trans (streamPath_readStep hstep)

/-! ## Upkeep -/

theorem streamPath_fireTimer {now : Time} {t : Timer} {timers : Timers}
    (h : c.timers.popDue now = some (t, timers)) (hk : k.call = .timePassed now) :
    StreamPath strict k c ({ c with timers := timers }.fireTimer t) := by
  cases t with
  | registryRemoval stream => exact (StreamStep.expired h hk).path
  | handshakeTimeout id =>
    have hmissed : StreamStep strict k c { c with timers := timers } := .missed h hk
    rw [fireTimer]
    split
    · exact hmissed.path.trans (streamPath_failHandshake id _)
    · exact hmissed.path

theorem streamPath_runTask (ht : c.Tidy) {t : Task} {tasks : List Task} (h : c.tasks = t :: tasks)
    (hk : k.call = .runTasks) :
    StreamPath strict k c ({ c with tasks := tasks }.runTask t) := by
  have htasks : Calm k c { c with tasks := tasks } := { Calm.refl c with }
  cases t with
  | reportWritability id on =>
    rw [runTask]
    split
    · exact htasks.path.calm (.emit _ id _)
    · exact htasks.path
  | tearDown id =>
    have htorn : StreamStep strict k c { c with tasks := tasks, channels := c.channels.erase id } :=
      .tornDown tasks (ht.doomed (h ▸ List.mem_cons_self)).2 hk
    rw [runTask]
    split
    · exact (htorn.path.calm (.emit _ id .inactive)).calm (.emit _ id .unregistered)
    · exact htasks.path

/-! ## Changes -/

/-- Every change is made of stream steps. -/
theorem streamPath_change (ht : c.Tidy) (he : c.Enlisted) (h : Change strict k c c') :
    StreamPath strict k c c' := by
  cases h with
  | around encoder journal ledger clock hentries _ _ _ hencoder hclock =>
    exact Calm.path { Calm.refl (k := k) c with
      encoder := hencoder, clock := hclock, journal := .of_eq hentries }
  | cycleBegun => exact Calm.path { Calm.refl c with }
  | settingsNoted s =>
    rw [noteSettings]
    dsimp only
    split <;> exact Calm.path { Calm.refl c with }
  | endNoted last reason => exact Calm.path { Calm.refl c with goingAway := .inr rfl }
  | forwarded f => exact Calm.path (.told c (Journal.extends_push _ (by rfl)) _)
  | discarded frames bytes => exact Calm.path (.told c (.refl _) _)
  | resetArrived id reason hr => exact streamPath_resetArrived ht he hr reason
  | noticed id what => exact (Calm.emit c id what).path
  | flushed => exact (Calm.flush c).path
  | asked path subprotocol hrole hgoing _ hk =>
    exact (StreamStep.asked path subprotocol hrole hgoing hk).path
  | @unreserved _ id ch f h ho ha hres hk =>
    obtain ⟨stream, rfl⟩ := reserve_eq_of_error hres
    exact (StreamStep.unreserved stream f h ho ha hk).path.trans
      (streamPath_failHandshake id (.write f))
  | @requested c₁ c₂ id ch stream h ho ha hres hfresh hsub hk =>
    rw [updateChannel_eq (get?_assigned h hres hsub), assigned_eq h hres hsub]
    dsimp only
    rw [Table.insert_insert]
    exact (StreamStep.requested _ h ho ha hk hfresh).path
  | requestRefused h ho ha hres hfresh hsub hk =>
    have hch := get?_assigned h hres hsub
    obtain rfl := assigned_eq h hres hsub
    rw [failHandshake_eq hch (by exact ho)]
    simp only [Table.insert_insert]
    exact (StreamStep.requestRefused _ _ _ h ho ha hk hfresh).path
  | handshakeFailed id cause => exact streamPath_failHandshake id cause
  | refused stream status hrole =>
    have hlight (block : HeaderBlock) (fault : Option WriteFault) :
        (Entry.wire none ⟨.headers stream block true, fault⟩).isLight c.config.role = true :=
      decide_eq_true hrole
    exact (Calm.note c (hlight _ _)).path.calm (.flush _)
  | answered path subprotocol compression hrole hr h0 hc hk =>
    exact streamPath_accept ht path subprotocol compression hrole hr h0 hc hk
  | @received id ch item h _ _ hr _ hs =>
    obtain ⟨stream, hactive⟩ := hr
    have hp : ch.handshake.isPending = false := by
      have ha := he.asked stream id ch hactive h
      cases hhand : ch.handshake with
      | awaitingSettings => exact absurd hhand ha
      | requestSent => exact absurd hhand hs
      | complete | failed => rfl
    exact (Calm.insert h (.receive item hp)).path.trans (streamPath_readPath (readPath_receive ..))
  | cycleEnded => exact streamPath_readPath (readPath_readCycleEnded c)
  | readBegun id => exact streamPath_readPath (readPath_beginRead c id)
  | autoReadSet id on => exact streamPath_readPath (readPath_setAutoRead c id on)
  | issued o => exact Calm.path { Calm.refl c with }
  | writeSettled fault => exact (calm_settleWrite c _ _ fault).path
  | writeFailed id => exact streamPath_writeFailed id
  | channelFlushed id => exact calm_flushChannel c id
  | weightCached weight =>
    exact Calm.path (.update c _ fun _ _ => .of_eq rfl rfl rfl rfl rfl)
  | weightSent id stream weight => exact streamPath_sendPriority c id stream weight
  | closed id kind hk => exact streamPath_close id kind hk
  | inflightLost => exact Calm.path { Calm.refl c with }
  | channelLost id => exact streamPath_loseChannel ht id
  | cleared hk hnone => exact (StreamStep.cleared c hk hnone).path
  | recovered id => exact (calm_recoverChannel c id).path
  | timerFired hpop hk => exact streamPath_fireTimer hpop hk
  | taskRun h hk => exact streamPath_runTask ht h hk

/-! ## Calls -/

/-- Every step of a call is made of stream steps. -/
theorem streamPath_callStep {s t : Stage} (ht : s.conn.Tidy) (he : s.conn.Enlisted)
    (h : CallStep strict k s t) : StreamPath strict k s.conn t.conn := by
  cases h with
  | change ws h => exact streamPath_change ht he h
  | @takenUp c id ch payload _ _ h =>
    have hissued : Calm k c (c.issue .held).2 := { Calm.refl c with }
    exact hissued.path.calm (calm_countBytes (c := (c.issue .held).2) h _)
  | parked h => exact Calm.path (.update _ _ fun _ _ => .of_eq rfl rfl rfl rfl rfl)
  | unparked subprotocol compression h hs hk =>
    rw [markComplete, Table.modify_eq_insert h]
    exact (StreamStep.answered subprotocol compression _ h (ht.open_of_requestSent h hs) hs hk).path
  | @sent c _ w _ ch _ h ho hp hs hsub =>
    obtain ⟨hfault, rfl⟩ := Prod.mk.inj hsub
    subst hs
    rw [hfault]
    have hsent : StreamStep strict k c (c.note
        (.wire (some w.channel) ⟨.data c.nextWrite ch.stream w.payload false, none⟩)) :=
      .sent _ _ _ h ho hp
    have hentered : Calm k _ { c.enterWrite w.channel w.payload w.ticket with
        journal := c.journal.push
          (.wire (some w.channel) ⟨.data c.nextWrite ch.stream w.payload false, none⟩) } :=
      { Calm.refl (c.note
        (.wire (some w.channel) ⟨.data c.nextWrite ch.stream w.payload false, none⟩)) with }
    exact (hsent.path.calm hentered).calm (.update _ _ fun _ _ => .of_eq rfl rfl rfl rfl rfl)
  | @bounced c _ w _ ch _ f h ho hp hs hsub =>
    obtain ⟨hfault, rfl⟩ := Prod.mk.inj hsub
    subst hs
    rw [hfault]
    have hsent : StreamStep strict k c (c.note
        (.wire (some w.channel) ⟨.data c.nextWrite ch.stream w.payload false, some f⟩)) :=
      .sent _ _ _ h ho hp
    have hentered : Calm k _ { c.enterWrite w.channel w.payload w.ticket with
        journal := c.journal.push
          (.wire (some w.channel) ⟨.data c.nextWrite ch.stream w.payload false, some f⟩) } :=
      { Calm.refl (c.note
        (.wire (some w.channel) ⟨.data c.nextWrite ch.stream w.payload false, some f⟩)) with }
    exact ((hsent.path.calm hentered).calm (calm_settleWrite ..)).trans
      (streamPath_writeFailed _)
  | dropped => exact Calm.path { Calm.refl _ with }

/-! ## Calls -/

theorem streamPath_callPath {s t : Stage} (ht : s.conn.Tidy) (he : s.conn.Enlisted)
    (h : CallPath strict k s t) : StreamPath strict k s.conn t.conn := by
  have hall : (t.conn.Tidy ∧ t.conn.Enlisted) ∧ StreamPath strict k s.conn t.conn := by
    refine CallPath.induction (P := fun u => (u.conn.Tidy ∧ u.conn.Enlisted) ∧
      StreamPath strict k s.conn u.conn) ?_ h ⟨⟨ht, he⟩, .refl _⟩
    rintro u v hm ⟨⟨hut, hue⟩, hu⟩
    exact ⟨⟨tidy_callStep hut hm, hue.registryPath hut (registryPath_callStep hm)⟩,
      hu.trans (streamPath_callStep hut hue hm)⟩
  exact hall.2

/-- Every call of a run is made of stream steps. -/
theorem streamPath_after {config : Config} {encoder : Encoder} (h : start config encoder = .ok c)
    (ks : List Call) (k : Call) (ho : strict → (c.run ks).Careful k) :
    StreamPath strict ⟨c.run ks, k⟩ (c.run ks) ((c.run ks).after k) :=
  streamPath_callPath (tidy_run h ks) (enlisted_run h ks) (callPath_after (c.run ks) k ho)

end Connection

end ChannelMux
