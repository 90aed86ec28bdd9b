import ChannelMux.Proofs.CorePaths

/-!
# Encoder steps: what a call hands to the encoder

The laws about frames compare the journal with the channels: a stream is open when DATA is sent on
it, a channel is open when a frame is sent for it, and what was accepted is what was sent and what
is still parked.  An `EncoderStep` does one thing to which such a law can be sensitive.  All else is
one kind of step (`Aloof`), and so is the end of a channel, together with what is done to the
channel just before (`Leaves`): in between, the channel is neither open nor closed as far as a law
can tell.

In these steps closing appears as itself, since two of the laws are about the frame that it sends;
what it sends, and what it amounts to for the others, is said at the end.
-/

namespace ChannelMux

/-! ## Frames in the journal -/

/-- The call writes a frame on a stream of a channel. -/
def WireCall.isFrame : WireCall → Bool
  | headers .. | data .. | reset .. | priority .. => true
  | reserve _ | flush | consume .. | forward _ | inactive => false

namespace Entry

/-- The encoder was asked to write a frame for the channel. -/
def isFrameOf (id : ChannelId) : Entry → Bool
  | wire owner e => e.call.isFrame && owner = some id
  | event _ | delivered .. | closed _ => false

/-- The entry opens no stream for a channel, carries no data, resets no stream and closes no
channel. -/
def isIdle : Entry → Bool
  | wire owner e =>
    match e.call with
    | .headers .. => owner = none || e.fault.isSome
    | .data .. | .reset .. => false
    | .reserve _ | .priority .. | .flush | .consume .. | .forward _ | .inactive => true
  | event _ | delivered .. => true
  | closed _ => false

/-- The payload that the encoder was asked to send for the channel, whether it took it or not. -/
def payloadOf? (id : ChannelId) : Entry → Option Bytes
  | wire owner e =>
    match e.call with
    | .data _ _ payload false => if owner = some id then some payload else none
    | _ => none
  | event _ | delivered .. | closed _ => none

theorem payloadOf?_of_idle {e : Entry} (h : e.isIdle = true) (id : ChannelId) :
    e.payloadOf? id = none := by
  cases e with
  | wire owner entry =>
    obtain ⟨call, fault⟩ := entry
    cases call with
    | data => cases h
    | _ => rfl
  | event | delivered | closed => rfl

end Entry

/-- Every entry stands in a relation to those before it. -/
def Journal.Obeys (law : List Entry → Entry → Prop) (j : Journal) : Prop :=
  ∀ xs e ys, j.entries = xs ++ e :: ys → law xs e

namespace Journal.Obeys

variable {law : List Entry → Entry → Prop} {P : Entry → Prop} {j j' : Journal} {es : List Entry}

/-- An entry of a continued history is old, or it is among the new ones. -/
theorem append (h : j.Obeys law) (hes : j'.entries = j.entries ++ es)
    (hnew : ∀ xs e ys, es = xs ++ e :: ys → law (j.entries ++ xs) e) : j'.Obeys law := by
  intro xs e ys heq
  obtain ⟨zs, rfl, hzs⟩ | ⟨zs, hzs, -⟩ := mem_pieces (hes.symm.trans heq)
  · exact hnew zs e ys hzs
  · exact h xs e zs hzs

theorem congr (h : j.Obeys law) (heq : j'.entries = j.entries) : j'.Obeys law :=
  fun xs e ys hes => h xs e ys (heq ▸ hes)

theorem push (h : j.Obeys law) {e : Entry} (he : law j.entries e) : (j.push e).Obeys law := by
  refine h.append rfl fun xs d ys heq => ?_
  obtain ⟨rfl, heq⟩ | ⟨_, rfl, heq⟩ := List.cons_eq_append_iff.mp heq
  · obtain ⟨rfl, -⟩ := List.cons.inj heq
    rwa [List.append_nil]
  · exact absurd heq (by simp)

theorem continued (h : j.Obeys law) (hext : j.Extends P j') (hP : ∀ xs e, P e → law xs e) :
    j'.Obeys law := by
  obtain ⟨es, hes, hall⟩ := hext
  refine h.append hes fun xs e ys heq => hP _ e (hall e ?_)
  rw [heq]
  exact List.mem_append_right xs List.mem_cons_self

end Journal.Obeys

/-- The payloads that the encoder was asked to send for the channel, in their order. -/
def Journal.payloads (j : Journal) (id : ChannelId) : List Bytes :=
  j.entries.filterMap (Entry.payloadOf? id)

/-! ## What does not matter -/

/-- The second channel sends as the first does, and has noticed no less of what the peer has
ended. -/
structure Channel.Constant (ch ch' : Channel) : Prop where
  stream : ch'.stream = ch.stream
  closed : ch'.closed = ch.closed
  outboundClosed : ch'.outboundClosed = ch.outboundClosed
  handshake : ch'.handshake = ch.handshake
  parked : ch.closed = false → ch'.parked = ch.parked
  inboundClosed : ch.inboundClosed = true → ch'.inboundClosed = true
  remoteReset : ch.remoteReset = true → ch'.remoteReset = true
  unasked : ch.handshake = .awaitingSettings → ch'.inboundClosed = ch.inboundClosed

/-- What may be done to a channel that is about to be closed. -/
structure Channel.Leaving (ch ch' : Channel) : Prop where
  closed : ch'.closed = false
  outboundClosed : ch'.outboundClosed = ch.outboundClosed
  inboundClosed : ch.inboundClosed = true → ch'.inboundClosed = true
  remoteReset : ch.remoteReset = true → ch'.remoteReset = true
  unasked : ch.handshake = .awaitingSettings → ch'.inboundClosed = ch.inboundClosed
  stream : ch'.stream = ch.stream ∨ ch.handshake = .awaitingSettings
  complete : ch.handshake = .complete → ch'.handshake = .complete

namespace Channel

variable {ch ch' ch'' : Channel}

namespace Constant

/-- For a change that has nothing to do with sending. -/
theorem of_eq (hstream : ch'.stream = ch.stream) (hclosed : ch'.closed = ch.closed)
    (hout : ch'.outboundClosed = ch.outboundClosed) (hhand : ch'.handshake = ch.handshake)
    (hparked : ch'.parked = ch.parked) (hin : ch'.inboundClosed = ch.inboundClosed)
    (hreset : ch'.remoteReset = ch.remoteReset) : ch.Constant ch' :=
  ⟨hstream, hclosed, hout, hhand, fun _ => hparked, hin.trans, hreset.trans, fun _ => hin⟩

theorem refl (ch : Channel) : ch.Constant ch := .of_eq rfl rfl rfl rfl rfl rfl rfl

theorem trans (h : ch.Constant ch') (h' : ch'.Constant ch'') : ch.Constant ch'' where
  stream := h'.stream.trans h.stream
  closed := h'.closed.trans h.closed
  outboundClosed := h'.outboundClosed.trans h.outboundClosed
  handshake := h'.handshake.trans h.handshake
  parked ho := (h'.parked (h.closed.trans ho)).trans (h.parked ho)
  inboundClosed hin := h'.inboundClosed (h.inboundClosed hin)
  remoteReset hreset := h'.remoteReset (h.remoteReset hreset)
  unasked ha := (h'.unasked (h.handshake.trans ha)).trans (h.unasked ha)

theorem leaving (h : ch.Constant ch') (ho : ch.closed = false) : ch.Leaving ch' where
  closed := h.closed.trans ho
  outboundClosed := h.outboundClosed
  inboundClosed := h.inboundClosed
  remoteReset := h.remoteReset
  unasked := h.unasked
  stream := .inl h.stream
  complete := h.handshake.trans

/-- The parked writes of a channel that is closed already do not matter. -/
theorem giveUpParked (hclosed : ch.closed = true) (hp : ch.handshake.isPending = false) :
    ch.Constant ch.giveUpParked where
  stream := rfl
  closed := rfl
  outboundClosed := rfl
  handshake := handshake_giveUpParked hp
  parked ho := absurd (hclosed.symm.trans ho) (by decide)
  inboundClosed := id
  remoteReset := id
  unasked _ := rfl

theorem receive (item : Inbound) (ha : ch.handshake ≠ .awaitingSettings) :
    ch.Constant (ch.receive item) := by
  rw [Channel.receive]
  dsimp only
  split
  · exact ⟨rfl, rfl, rfl, rfl, fun _ => rfl, fun _ => rfl, id, fun h => absurd h ha⟩
  · exact .of_eq rfl rfl rfl rfl rfl rfl rfl

theorem requestRead (ch : Channel) (budget : Nat) : ch.Constant (ch.requestRead budget) := by
  rw [Channel.requestRead]
  split <;> exact .of_eq rfl rfl rfl rfl rfl rfl rfl

end Constant

namespace Leaving

theorem giveUpParked (h : ch.Leaving ch') : ch.Leaving ch'.giveUpParked where
  closed := h.closed
  outboundClosed := h.outboundClosed
  inboundClosed := h.inboundClosed
  remoteReset := h.remoteReset
  unasked := h.unasked
  stream := h.stream
  complete hc := by
    have hc' := h.complete hc
    rw [handshake_giveUpParked (by rw [hc']; rfl)]
    exact hc'

end Leaving

end Channel

namespace Connection

variable {k : Cause} {c c' d : Connection} {id j : ChannelId} {ch ch' : Channel}
  {ws : List LooseWrite} {s t u : Stage}

/-- An entry of no weight, and a frame only for a channel that is open or still to come. -/
structure Minor (c : Connection) (e : Entry) : Prop where
  idle : e.isIdle = true
  frame : ∀ id, e.isFrameOf id = true → c.isOpen id = true ∨ c.nextChannel ≤ id

/-- Nothing has changed that a law about frames is about. -/
structure Aloof (k : Cause) (c c' : Connection) : Prop where
  config : c'.config = c.config
  encoder : c'.encoder = c.encoder ∨ k.call = .setEncoder c'.encoder
  nextChannel : c.nextChannel ≤ c'.nextChannel
  channels : c.channels.Matches Channel.Constant c'.channels
  inflight : ∀ w e, c'.inflight.get? w = some e → c.inflight.get? w = some e
  journal : c.journal.Extends c.Minor c'.journal

/-- Nothing has changed but for an open channel that is about to be closed. -/
structure Leaves (k : Cause) (c : Connection) (id : ChannelId) (ch : Channel) (c' : Connection) :
    Prop where
  config : c'.config = c.config
  encoder : c'.encoder = c.encoder ∨ k.call = .setEncoder c'.encoder
  nextChannel : c.nextChannel ≤ c'.nextChannel
  channel : ∃ ch', c'.channels.get? id = some ch' ∧ ch.Leaving ch'
  others : ∀ j ≠ id, ∀ e', c'.channels.get? j = some e' →
    ∃ e, c.channels.get? j = some e ∧ e.Constant e'
  inflight : ∀ w e, c'.inflight.get? w = some e → c.inflight.get? w = some e
  journal : c.journal.Extends c.Minor c'.journal

/-! ## Steps -/

/-- One thing that is done in the course of a call. -/
inductive EncoderStep (k : Cause) : Stage → Stage → Prop where
  | aloof {c c' : Connection} (ws : List LooseWrite) :
      Aloof k c c' → EncoderStep k ⟨c, ws⟩ ⟨c', ws⟩
  -- Conversations that begin.
  | asked {c : Connection} (path : String) (subprotocol : Option String) (ws : List LooseWrite) :
      c.config.role = .client → EncoderStep k ⟨c, ws⟩ ⟨(c.addAsking path subprotocol).2, ws⟩
  | requested {c : Connection} {id : ChannelId} {ch : Channel} {stream : StreamId}
      (block : HeaderBlock) (ws : List LooseWrite) :
      c.channels.get? id = some ch → ch.closed = false → ch.handshake = .awaitingSettings →
      EncoderStep k ⟨c, ws⟩ ⟨{ c with
        channels := c.channels.insert id
          { ch with stream := stream, cachedWeight := none, handshake := .requestSent }
        registry := c.registry.insert stream id
        journal := (c.journal.push (.wire (some id) ⟨.reserve stream, none⟩)).push
          (.wire (some id) ⟨.headers stream block false, none⟩) }, ws⟩
  | enrolled {c : Connection} {stream : StreamId} (path : String) (subprotocol : Option String)
      (compression : Option Deflate.Terms) (block : HeaderBlock) (ws : List LooseWrite) :
      c.config.role = .server →
      EncoderStep k ⟨c, ws⟩ ⟨{ c.enrol stream path subprotocol compression with
        journal := c.journal.push
          (.wire (some c.nextChannel) ⟨.headers stream block false, none⟩) }, ws⟩
  -- Writing.
  /-- A write is accepted from the application. -/
  | takenUp {c c' : Connection} {id : ChannelId} {ch : Channel} {payload : Bytes}
      (ticket : Ticket) :
      k.call = .write id payload ∨ k.call = .writeAndFlush id payload → k.conn = c →
      c.channels.get? id = some ch → ch.closed = false → ch.outboundClosed = false →
      Aloof k c c' → EncoderStep k ⟨c, []⟩ ⟨c', [⟨id, payload, ticket⟩]⟩
  | parked {c : Connection} {w : LooseWrite} {ws : List LooseWrite} {ch : Channel}
      {parked : Parked} :
      c.channels.get? w.channel = some ch → ch.closed = false → ch.handshake.isPending = true →
      ch.parked.push? w.payload w.ticket = some parked →
      EncoderStep k ⟨c, w :: ws⟩
        ⟨{ c with channels := c.channels.insert w.channel { ch with parked := parked } }, ws⟩
  | unparked {c : Connection} {id : ChannelId} {ch : Channel} (subprotocol : Option String)
      (compression : Option Deflate.Terms) :
      c.channels.get? id = some ch → ch.closed = false → ch.handshake = .requestSent →
      EncoderStep k ⟨c, []⟩
        ⟨{ c with
            channels := c.channels.insert id { ch with
              handshake := .complete, subprotocol := subprotocol, compression := compression,
              parked := .done }
            timers := c.timers.cancel (.handshakeTimeout id) },
          ch.parked.writes.map fun w => ⟨id, w.1, w.2⟩⟩
  | sent {c : Connection} {w : LooseWrite} {ws : List LooseWrite} {ch : Channel} :
      c.channels.get? w.channel = some ch → ch.closed = false →
      ch.handshake.isPending = false →
      EncoderStep k ⟨c, w :: ws⟩ ⟨{ c.enterWrite w.channel w.payload w.ticket with
        journal := c.journal.push
          (.wire (some w.channel) ⟨.data c.nextWrite ch.stream w.payload false, none⟩) }, ws⟩
  | bounced {c d : Connection} {w : LooseWrite} {ws : List LooseWrite} {ch : Channel}
      (f : WriteFault) :
      c.channels.get? w.channel = some ch → ch.closed = false →
      ch.handshake.isPending = false →
      Aloof k (c.note (.wire (some w.channel)
        ⟨.data c.nextWrite ch.stream w.payload false, some f⟩)) d →
      EncoderStep k ⟨c, w :: ws⟩ ⟨d.writeFailed w.channel, ws⟩
  | dropped {c c' : Connection} {w : LooseWrite} {ws : List LooseWrite} :
      c.isOpen w.channel = false → Aloof k c c' → EncoderStep k ⟨c, w :: ws⟩ ⟨c', ws⟩
  /-- What the report of a failed write comes to. -/
  | failed (c : Connection) (id : ChannelId) (ws : List LooseWrite) :
      EncoderStep k ⟨c, ws⟩ ⟨c.writeFailed id, ws⟩
  -- The end of channels.
  | ended {c d : Connection} {id : ChannelId} {ch : Channel} (kind : CloseKind)
      (ws : List LooseWrite) :
      c.channels.get? id = some ch → ch.closed = false → Leaves k c id ch d →
      (∀ ch', d.channels.get? id = some ch' → ch'.stream = ch.stream) →
      EncoderStep k ⟨c, ws⟩ ⟨d.close id kind, ws⟩
  /-- The request of a channel is refused when the channel has got its stream already. -/
  | requestRefused {c d : Connection} {id : ChannelId} {ch : Channel} {stream : StreamId}
      (block : HeaderBlock) (f : WriteFault) (ws : List LooseWrite) :
      c.channels.get? id = some ch → ch.closed = false → ch.handshake = .awaitingSettings →
      Leaves k c id ch d →
      (∀ ch', d.channels.get? id = some ch' → ch'.stream = stream) →
      d.journal.entries = c.journal.entries ++ [.wire (some id) ⟨.reserve stream, none⟩,
        .wire (some id) ⟨.headers stream block false, some f⟩,
        .event ⟨id, .failed (.write f)⟩] →
      EncoderStep k ⟨c, ws⟩ ⟨d.close id .reset, ws⟩
  | tornDown {c : Connection} {id : ChannelId} (tasks : List Task) (ws : List LooseWrite) :
      (∀ ch, c.channels.get? id = some ch → ch.closed = true) →
      EncoderStep k ⟨c, ws⟩ ⟨{ c with tasks := tasks, channels := c.channels.erase id }, ws⟩

/-- Steps of a call made one after another. -/
def EncoderPath (k : Cause) : Stage → Stage → Prop := Relation.ReflTransGen (EncoderStep k)

namespace EncoderPath

theorem refl (s : Stage) : EncoderPath k s s := Relation.ReflTransGen.refl

theorem trans (h : EncoderPath k s t) (h' : EncoderPath k t u) : EncoderPath k s u :=
  Relation.ReflTransGen.trans h h'

theorem tail (h : EncoderPath k s t) (h' : EncoderStep k t u) : EncoderPath k s u :=
  Relation.ReflTransGen.tail h h'

theorem aloof (h : EncoderPath k s ⟨c, ws⟩) (h' : Aloof k c c') : EncoderPath k s ⟨c', ws⟩ :=
  h.tail (.aloof ws h')

/-- What every step keeps, every path keeps. -/
theorem induction {P : Stage → Prop} (step : ∀ s t, EncoderStep k s t → P s → P t)
    (h : EncoderPath k s t) (hs : P s) : P t := by
  induction h with
  | refl => exact hs
  | tail _ hstep ih => exact step _ _ hstep ih

end EncoderPath

theorem EncoderStep.path (h : EncoderStep k s t) : EncoderPath k s t :=
  Relation.ReflTransGen.single h

theorem Aloof.path (h : Aloof k c c') (ws : List LooseWrite) : EncoderPath k ⟨c, ws⟩ ⟨c', ws⟩ :=
  (EncoderStep.aloof ws h).path

/-! ## Aloof steps -/

theorem minor_of {e : Entry} (hidle : e.isIdle = true) (hnone : ∀ id, e.isFrameOf id = false) :
    c.Minor e :=
  ⟨hidle, fun id hframe => absurd ((hnone id).symm.trans hframe) (by decide)⟩

namespace Aloof

theorem refl (c : Connection) : Aloof k c c :=
  ⟨rfl, .inl rfl, Nat.le_refl _, .refl .refl _, fun _ _ he => he, .refl _⟩

/-- Channels do not open, so what is minor later was minor before. -/
theorem minor (h : Aloof k c c') {e : Entry} (he : c'.Minor e) : c.Minor e where
  idle := he.idle
  frame id hframe := by
    refine (he.frame id hframe).imp (fun ho => ?_) (Nat.le_trans h.nextChannel)
    obtain ⟨ch', hch', ho'⟩ := isOpen_iff.mp ho
    obtain ⟨ch, hch, hconst⟩ := h.channels.back hch'
    exact isOpen_iff.mpr ⟨ch, hch, hconst.closed.symm.trans ho'⟩

theorem trans (h : Aloof k c c') (h' : Aloof k c' d) : Aloof k c d where
  config := h'.config.trans h.config
  encoder := by
    rcases h'.encoder with heq | hset
    · rw [heq]
      exact h.encoder
    · exact .inr hset
  nextChannel := Nat.le_trans h.nextChannel h'.nextChannel
  channels := h.channels.trans (fun _ _ _ => .trans) h'.channels
  inflight w e he := h.inflight w e (h'.inflight w e he)
  journal := h.journal.trans (h'.journal.mono fun _ => h.minor)

/-- The connection has said or counted something. -/
theorem told (c : Connection) {journal : Journal} (h : c.journal.Extends c.Minor journal)
    (stats : Stats) : Aloof k c { c with journal := journal, stats := stats } :=
  { refl c with journal := h }

theorem note {e : Entry} (h : c.Minor e) : Aloof k c (c.note e) :=
  told c (Journal.extends_push _ h) c.stats

theorem emit (c : Connection) (id : ChannelId) (what : Happening) : Aloof k c (c.emit id what) :=
  note (minor_of rfl fun _ => rfl)

theorem flush (c : Connection) : Aloof k c c.flush := note (minor_of rfl fun _ => rfl)

theorem insert (h : c.channels.get? id = some ch) (hconst : ch.Constant ch') :
    Aloof k c { c with channels := c.channels.insert id ch' } :=
  { refl c with channels := .insert .refl h hconst }

theorem update (c : Connection) (id : ChannelId) {f : Channel → Channel}
    (hf : ∀ ch, c.channels.get? id = some ch → ch.Constant (f ch)) :
    Aloof k c (c.updateChannel id f) :=
  { refl c with channels := .modify .refl _ _ hf }

theorem submit (c : Connection) (owner : Option ChannelId) (call : WireCall)
    (h : ∀ fault, c.Minor (.wire owner ⟨call, fault⟩)) : Aloof k c (c.submit owner call).2 :=
  note (h _)

theorem countBytes (h : c.channels.get? id = some ch) (size : Nat) :
    Aloof k c (c.countBytes id ch size) := by
  obtain ⟨_, heq, -⟩ := countBytes_eq c id ch size
  rw [heq]
  have hcounted : ch.Constant (ch.addPending size c.config.highWatermark).1 :=
    .of_eq rfl rfl rfl rfl rfl rfl rfl
  exact { insert h hcounted with }

end Aloof

theorem extends_turned {journal : Journal} (h : c.journal.Turned id journal) :
    c.journal.Extends c.Minor journal := by
  refine Journal.Extends.mono ?_ h
  rintro _ rfl
  exact minor_of rfl fun _ => rfl

theorem aloof_recoverChannel (c : Connection) (id : ChannelId) :
    Aloof k c (c.recoverChannel id) := by
  cases h : c.channels.get? id with
  | none => rw [recoverChannel_of_none h]; exact .refl c
  | some ch =>
    obtain ⟨_, _, heq, -, hturned⟩ := recoverChannel_eq h
    have hrecovered : ch.Constant (ch.recover c.config.lowWatermark).1 :=
      .of_eq rfl rfl rfl rfl rfl rfl rfl
    rw [heq]
    exact { Aloof.insert h hrecovered with journal := extends_turned hturned }

theorem aloof_settleWrite (c : Connection) (write : WriteId) (w : Inflight)
    (fault : Option WriteFault) : Aloof k c (c.settleWrite write w fault) := by
  cases h : c.channels.get? w.channel with
  | none =>
    rw [settleWrite_of_none write h]
    exact { Aloof.refl c with inflight := fun _ _ he => Table.get?_of_erase he }
  | some ch =>
    obtain ⟨_, _, heq, -, hturned⟩ := settleWrite_eq write h fault
    have hreleased : ch.Constant (ch.subPending w.size c.config.lowWatermark c.isWritable).1 :=
      .of_eq rfl rfl rfl rfl rfl rfl rfl
    rw [heq]
    exact { Aloof.insert h hreleased with
      inflight := fun _ _ he => Table.get?_of_erase he
      journal := extends_turned hturned }

/-- A channel that is closed already has no writes to give up. -/
theorem aloof_failParked (ht : c.Tidy) (hclosed : c.isOpen id = false) (cause : Fault) :
    Aloof k c (c.failParked id cause) := by
  cases h : c.channels.get? id with
  | none => rw [failParked, h]; exact .refl c
  | some ch =>
    rw [isOpen_of_get? h, Bool.not_eq_false'] at hclosed
    rw [failParked_eq h]
    exact { Aloof.insert h (.giveUpParked hclosed (ht.decided h hclosed)) with }

theorem aloof_sendPriority (ho : c.isOpen id = true) (stream : StreamId) (weight : Nat) :
    Aloof k c (c.sendPriority id stream weight).2 := by
  have hsent : Aloof k c (c.submit (some id) (.priority stream (.ofWeight weight))).2 := by
    refine .submit c _ _ fun fault => ⟨rfl, fun j hj => .inl ?_⟩
    have hid : id = j := by simpa [Entry.isFrameOf, WireCall.isFrame] using hj
    exact hid ▸ ho
  rw [sendPriority]
  split
  next heq => rw [heq] at hsent; exact hsent
  next heq => rw [heq] at hsent; exact hsent.trans (.emit ..)

theorem aloof_noteSettings (c : Connection) (s : Settings) : Aloof k c (c.noteSettings s) := by
  rw [noteSettings]
  dsimp only
  split <;> exact { Aloof.refl c with }

/-! ## The end of channels -/

namespace Leaves

theorem of_aloof (h : Aloof k c d) (hch : c.channels.get? id = some ch)
    (ho : ch.closed = false) : Leaves k c id ch d where
  config := h.config
  encoder := h.encoder
  nextChannel := h.nextChannel
  channel := by
    obtain ⟨ch', hch', hconst⟩ := h.channels.forth hch
    exact ⟨ch', hch', hconst.leaving ho⟩
  others j _ _ he := h.channels.back he
  inflight := h.inflight
  journal := h.journal

/-- The channel has got a new value, and entries were made. -/
theorem set (c : Connection) (id : ChannelId) (h : ch.Leaving ch') (registry : Registry ChannelId)
    (ledger : Ledger) (timers : Timers) {journal : Journal}
    (hj : c.journal.Extends c.Minor journal) :
    Leaves k c id ch { c with
      channels := c.channels.insert id ch', registry := registry, ledger := ledger,
      timers := timers, journal := journal } where
  config := rfl
  encoder := .inl rfl
  nextChannel := Nat.le_refl _
  channel := ⟨ch', Table.get?_insert_self .., h⟩
  others j hj e he := by
    rw [Table.get?_insert_of_ne hj] at he
    exact ⟨e, he, .refl e⟩
  inflight _ _ he := he
  journal := hj

end Leaves

theorem leaving_of_open (ho : ch.closed = false) : ch.Leaving ch :=
  (Channel.Constant.refl ch).leaving ho

end Connection

/-! ## What closing sends -/

def ClosingFrame.call (write : WriteId) (stream : StreamId) : ClosingFrame → WireCall
  | endStream => .data write stream [] true
  | cancel => .reset stream .cancel

/-- A frame is sent only on a stream that can still carry it, and a reset only to a peer that has
not ended its half. -/
theorem Channel.closingFrame_eq_some {ch : Channel} {kind : CloseKind} {active : Bool}
    {f : ClosingFrame} (h : ch.closingFrame kind active = some f) :
    ch.stream ≠ 0 ∧ active = true ∧ ch.remoteReset = false ∧ kind ≠ .remote ∧
      (ch.inboundClosed && ch.outboundClosed) = false ∧
      (f = .cancel → ch.inboundClosed = false) := by
  unfold closingFrame at h
  split at h
  next => cases h
  next hguard =>
    simp only [not_or, Bool.not_eq_true, Bool.not_eq_false] at hguard
    obtain ⟨hstream, hactive, hreset, hkind⟩ := hguard
    refine ⟨hstream, hactive, hreset, hkind, ?_⟩
    cases hin : ch.inboundClosed with
    | false => exact ⟨rfl, fun _ => rfl⟩
    | true =>
      rw [hin] at h
      cases hout : ch.outboundClosed with
      | true =>
        rw [hout] at h
        cases kind <;> cases h
      | false =>
        rw [hout] at h
        refine ⟨rfl, fun hf => ?_⟩
        subst hf
        cases kind <;> cases h

namespace Connection

variable {k : Cause} {c c' d : Connection} {id j : ChannelId} {ch ch' : Channel} {kind : CloseKind}

/-- What the closing of a channel sends: the frame that is due, if one is, and a flush. -/
inductive Closing (c : Connection) (id : ChannelId) (ch : Channel) (kind : CloseKind) :
    List Entry → Prop
  | silent : Closing c id ch kind []
  | framed {f : ClosingFrame} (fault : Option WriteFault) :
      ch.closingFrame kind c.isActive = some f →
      Closing c id ch kind [.wire (some id) ⟨f.call c.nextWrite ch.stream, fault⟩,
        .wire none ⟨.flush, none⟩]

theorem closing_sendClosing (c : Connection) (id : ChannelId) (stream : StreamId)
    (f : Option ClosingFrame) : ∃ es, (c.sendClosing id stream f).journal.entries =
      c.journal.entries ++ es ∧ (es = [] ∨ ∃ g fault, f = some g ∧
        es = [.wire (some id) ⟨g.call c.nextWrite stream, fault⟩, .wire none ⟨.flush, none⟩]) := by
  match f with
  | none => exact ⟨[], (List.append_nil _).symm, .inl rfl⟩
  | some .endStream =>
    exact ⟨_, List.append_assoc _ [_] [_], .inr ⟨.endStream, _, rfl, rfl⟩⟩
  | some .cancel => exact ⟨_, List.append_assoc _ [_] [_], .inr ⟨.cancel, _, rfl, rfl⟩⟩

theorem closing_close (h : c.channels.get? id = some ch) (ho : ch.closed = false)
    (kind : CloseKind) : ∃ es, (c.close id kind).journal.entries =
      c.journal.entries ++ (es ++ [.closed id]) ∧ Closing c id ch kind es := by
  simp only [close, h, ho, Bool.false_eq_true, if_false, retireStream_eq]
  obtain ⟨es, hes, hcase⟩ := closing_sendClosing
    (({ c with channels := c.channels.insert id (ch.shut kind) }.discard ch.inbound.length
      ch.inboundBytes).resolveAll ch.parkedTickets (.failed .channelClosed)) id ch.stream
      (ch.closingFrame kind c.isActive)
  refine ⟨es, ?_, ?_⟩
  · exact (congrArg (· ++ [Entry.closed id]) hes).trans (List.append_assoc ..)
  · rcases hcase with rfl | ⟨f, fault, hf, rfl⟩
    · exact .silent
    · exact .framed fault hf

/-- Nothing is taken back. -/
theorem prefix_close (c : Connection) (id : ChannelId) (kind : CloseKind) :
    c.journal.entries <+: (c.close id kind).journal.entries := by
  rcases close_cases c id kind with ⟨-, heq⟩ | ⟨ch, h, ho⟩
  · exact heq.symm ▸ List.prefix_refl _
  · obtain ⟨es, hes, -⟩ := closing_close h ho kind
    exact ⟨_, hes.symm⟩

/-- An open channel was closed, and no payload was sent meanwhile. -/
structure Shuts (c : Connection) (id : ChannelId) (ch : Channel) (c' : Connection) : Prop where
  config : c'.config = c.config
  nextChannel : c.nextChannel ≤ c'.nextChannel
  channel : ∃ ch', c'.channels.get? id = some ch' ∧ ch'.closed = true ∧
    (ch.handshake = .complete → ch'.handshake = .complete)
  others : ∀ j ≠ id, ∀ e', c'.channels.get? j = some e' →
    ∃ e, c.channels.get? j = some e ∧ e.Constant e'
  inflight : ∀ w e, c'.inflight.get? w = some e → c.inflight.get? w = some e
  journal : c.journal.Extends (fun e => ∀ j, e.payloadOf? j = none) c'.journal

theorem Shuts.cases (h : Shuts c id ch c') {e' : Channel} (he' : c'.channels.get? j = some e') :
    j = id ∧ e'.closed = true ∧ (ch.handshake = .complete → e'.handshake = .complete) ∨
      ∃ e, c.channels.get? j = some e ∧ e.Constant e' := by
  by_cases hj : j = id
  · subst hj
    obtain ⟨ch', hch', hclosed, hcomplete⟩ := h.channel
    obtain rfl := Option.some.inj (he'.symm.trans hch')
    exact .inl ⟨rfl, hclosed, hcomplete⟩
  · exact .inr (h.others j hj e' he')

theorem Closing.payloadOf?_eq {es : List Entry} (h : Closing c id ch kind es) {e : Entry}
    (he : e ∈ es) (j : ChannelId) : e.payloadOf? j = none := by
  cases h with
  | silent => exact absurd he List.not_mem_nil
  | @framed f fault =>
    rcases List.mem_cons.mp he with rfl | he
    · cases f <;> rfl
    · rw [List.mem_singleton.mp he]
      rfl

theorem Leaves.shuts (h : Leaves k c id ch d) (kind : CloseKind) :
    Shuts c id ch (d.close id kind) := by
  obtain ⟨ch', hch', hleaving⟩ := h.channel
  obtain ⟨es, hes, hclosing⟩ := closing_close hch' hleaving.closed kind
  have hself := get?_close_self hch' hleaving.closed kind
  have hjournal : c.journal.Extends (fun e => ∀ j, e.payloadOf? j = none)
      (d.close id kind).journal := by
    refine (h.journal.mono fun e he => Entry.payloadOf?_of_idle he.idle).trans ⟨_, hes, ?_⟩
    intro e he j
    rcases List.mem_append.mp he with he | he
    · exact hclosing.payloadOf?_eq he j
    · rw [List.mem_singleton.mp he]
      rfl
  have hothers : ∀ j ≠ id, ∀ e', (d.close id kind).channels.get? j = some e' →
      ∃ e, c.channels.get? j = some e ∧ e.Constant e' := by
    intro j hj e' he'
    rw [get?_close_of_ne hj] at he'
    exact h.others j hj e' he'
  obtain ⟨_, _, _, _, heq, -⟩ := close_eq hch' hleaving.closed kind
  have hshut : ch.handshake = .complete → (ch'.shut kind).handshake = .complete :=
    hleaving.giveUpParked.complete
  rw [heq] at hself hjournal hothers ⊢
  refine ⟨h.config, h.nextChannel, ⟨_, hself, rfl, hshut⟩, hothers, ?_, hjournal⟩
  intro w e he
  rw [Table.get?_keep, Option.filter_eq_some_iff] at he
  exact h.inflight w e he.1

/-- A failed write closes its channel or ends its outbound half. -/
theorem writeFailed_cases (c : Connection) (id : ChannelId) :
    c.isOpen id = false ∧ c.writeFailed id = c ∨
      ∃ ch, c.channels.get? id = some ch ∧ ch.closed = false ∧
        ((∃ kind, c.writeFailed id = c.close id kind) ∨
          c.config.closeOnWriteFailure = false ∧ c.writeFailed id = { c with
            channels := c.channels.insert id { ch with outboundClosed := true } }) := by
  cases h : c.channels.get? id with
  | none => exact .inl ⟨by rw [isOpen, h]; rfl, by rw [writeFailed, h]⟩
  | some ch =>
    cases ho : ch.closed with
    | true =>
      exact .inl ⟨by rw [isOpen_of_get? h, ho]; rfl, by simp only [writeFailed, h, ho, if_true]⟩
    | false =>
      refine .inr ⟨ch, rfl, ho, ?_⟩
      rw [writeFailed, h]
      dsimp only
      rw [if_neg (Bool.eq_false_iff.mp ho)]
      split
      · exact .inl ⟨.reset, rfl⟩
      next hpolicy =>
        split
        · exact .inl ⟨.remote, close_ended h ho⟩
        · exact .inr ⟨Bool.not_eq_true _ ▸ hpolicy, rfl⟩

/-- The same, if it does not matter how the channel is closed. -/
theorem writeFailed_shuts (c : Connection) (id : ChannelId) :
    c.isOpen id = false ∧ c.writeFailed id = c ∨
      ∃ ch, c.channels.get? id = some ch ∧ ch.closed = false ∧
        (Shuts c id ch (c.writeFailed id) ∨
          c.config.closeOnWriteFailure = false ∧ c.writeFailed id = { c with
            channels := c.channels.insert id { ch with outboundClosed := true } }) := by
  refine (writeFailed_cases c id).imp_right ?_
  rintro ⟨ch, hch, ho, ⟨kind, heq⟩ | hends⟩
  · have hleaves := Leaves.of_aloof (k := ⟨c, .runTasks⟩) (.refl c) hch ho
    exact ⟨ch, hch, ho, .inl (heq ▸ hleaves.shuts kind)⟩
  · exact ⟨ch, hch, ho, .inr hends⟩

end Connection

end ChannelMux
