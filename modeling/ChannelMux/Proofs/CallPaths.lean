import ChannelMux.Proofs.Frames
import ChannelMux.Proofs.Runs

/-!
# Paths of a call

Every call is made of call steps (`callPath_after`).  The conditions that a step carries are found
where the call tests them, or, when the test was made before other channels had their turn, by a
frame.
-/

namespace ChannelMux

variable {strict : Prop} {k : Cause} {c c' : Connection} {id : ChannelId} {ch : Channel}
variable {ws : List LooseWrite} {s t : Stage}

namespace Connection

theorem callPath_failChannel (hr : ∃ stream, c.registry.get? stream = some (.active id))
    (cause : Fault) : CallPath strict k ⟨c, ws⟩ ⟨c.failChannel id cause, ws⟩ :=
  ((Change.noticed c id _ rfl (.registered hr)).path ws).change (.closed _ id .reset (by simp))

/-! ## Handshakes -/

section

variable {c₁ c₂ : Connection} {stream : StreamId}

theorem reserve_of_ok (hres : c.reserve id = (.ok stream, c₁)) :
    c₁.channels = c.channels ∧ c₁.registry = c.registry := by
  rw [reserve] at hres
  split at hres
  next heq =>
    rw [← (Prod.mk.inj hres).2, ← (Prod.mk.inj heq).2]
    exact ⟨rfl, rfl⟩
  next => cases (Prod.mk.inj hres).1

theorem get?_assigned (h : c.channels.get? id = some ch) (hres : c.reserve id = (.ok stream, c₁))
    {call : WireCall} {fault : Option WriteFault}
    (hsub : (c₁.assignStream id stream).submit (some id) call = (fault, c₂)) :
    c₂.channels.get? id = some { ch with stream := stream, cachedWeight := none } := by
  have h₁ : c₁.channels.get? id = some ch := by rw [(reserve_of_ok hres).1, h]
  rw [← (Prod.mk.inj hsub).2]
  change (c₁.channels.modify id _).get? id = _
  rw [Table.get?_modify, if_pos rfl, h₁]
  rfl

end

theorem callPath_sendCachedWeight (ho : c.isOpen id = true) (stream : StreamId)
    (weight : Option Nat) :
    CallPath strict k ⟨c, ws⟩ ⟨c.sendCachedWeight id stream weight, ws⟩ := by
  cases weight with
  | none => exact .refl _
  | some weight => exact (Change.weightSent c id stream weight ho).path ws

theorem callPath_startHandshake (h : c.channels.get? id = some ch) (ho : ch.closed = false)
    (ha : ch.handshake = .awaitingSettings) (hf : strict → c.ReservesFresh)
    (hk : k.call.asks = true) :
    CallPath strict k ⟨c, ws⟩ ⟨c.startHandshake id, ws⟩ := by
  have hch := channels_reserve c id
  rw [startHandshake]
  split
  next f c₁ hres =>
    exact (Change.unreserved h ho ha hres hk).path ws
  next stream c₁ hres =>
    rw [hres] at hch
    have hfresh : strict → stream ≠ 0 ∧ c.registry.get? stream = none := by
      intro hs
      have hnext := hf hs
      unfold ReservesFresh nextStream at hnext
      rw [reserve, submit] at hres
      split at hres
      next heq =>
        obtain ⟨hfault, -⟩ := Prod.mk.inj heq
        obtain ⟨hstream, -⟩ := Prod.mk.inj hres
        obtain rfl := Except.ok.inj hstream
        exact hnext hfault
      next => cases (Prod.mk.inj hres).1
    have h₁ : c₁.channels.get? id = some ch := by rw [hch, h]
    simp only [h₁]
    split
    next f c₂ hsub => exact (Change.requestRefused h ho ha hres hfresh hsub hk).path ws
    next c₂ hsub =>
      have hopen : (c₂.updateChannel id fun ch => { ch with handshake := .requestSent }).isOpen id =
          true := by
        rw [updateChannel_eq (get?_assigned h hres hsub)]
        exact isOpen_iff.mpr ⟨_, Table.get?_insert_self .., ho⟩
      exact (((Change.requested h ho ha hres hfresh hsub hk).path ws).trans
        (callPath_sendCachedWeight hopen stream ch.cachedWeight)).change (.flushed _)

theorem callPath_decideDeferred (h : c.channels.get? id = some ch) (ho : ch.closed = false)
    (ha : ch.handshake = .awaitingSettings)
    (hf : strict → c.peer.extendedConnect = true → c.ReservesFresh) (hk : k.call.asks = true) :
    CallPath strict k ⟨c, ws⟩ ⟨c.decideDeferred id, ws⟩ := by
  rw [decideDeferred]
  split
  next he => exact callPath_startHandshake h ho ha (fun hs => hf hs he) hk
  next => exact (Change.handshakeFailed c id _).path ws

/-- A channel is still waiting when its turn comes, since the turns before it were of others. -/
theorem callPath_foldl_decideDeferred (ids : List ChannelId) (hnd : ids.Nodup)
    (h : ∀ id ∈ ids, ∃ ch, c.channels.get? id = some ch ∧ ch.closed = false ∧
      ch.handshake = .awaitingSettings)
    (hf : strict → ∀ d ∈ decidingStates ids c, d.peer.extendedConnect = true → d.ReservesFresh)
    (hk : k.call.asks = true) :
    CallPath strict k ⟨c, ws⟩ ⟨ids.foldl decideDeferred c, ws⟩ := by
  induction ids generalizing c with
  | nil => exact .refl _
  | cons id ids ih =>
    obtain ⟨hid, hnd⟩ := List.nodup_cons.mp hnd
    obtain ⟨ch, hch, ho, ha⟩ := h id List.mem_cons_self
    refine (callPath_decideDeferred hch ho ha (fun hs => hf hs c List.mem_cons_self) hk).trans
      (ih hnd ?_ fun hs d hd => hf hs d (List.mem_cons_of_mem _ hd))
    intro j hj
    obtain ⟨ch', hch', ho', ha'⟩ := h j (List.mem_cons_of_mem _ hj)
    have hne : j ≠ id := fun heq => hid (heq ▸ hj)
    exact ⟨ch', by rw [get?_decideDeferred_of_ne hne, hch'], ho', ha'⟩

theorem callPath_startDeferred (hf : strict → ∀ d ∈ (decidingStates
      (c.openChannels.filter c.isAwaitingSettings) c).filter (fun d => d.peer.extendedConnect),
      d.ReservesFresh) (hk : k.call.asks = true) :
    CallPath strict k ⟨c, ws⟩ ⟨c.startDeferred, ws⟩ := by
  refine callPath_foldl_decideDeferred _ ((nodup_openChannels _).filter _) ?_ (fun hs d hd he =>
    hf hs d (List.mem_filter.mpr ⟨hd, he⟩)) hk
  intro id hid
  obtain ⟨hopen, hwait⟩ := List.mem_filter.mp hid
  obtain ⟨ch, hch, ho⟩ := mem_openChannels.mp hopen
  refine ⟨ch, hch, ho, ?_⟩
  simpa [isAwaitingSettings, hch] using hwait

theorem callPath_settingsArrived (s : Settings) (hk : k.call = .frame (.settings s))
    (hf : strict → ∀ d ∈ (decidingStates
      ((c.noteSettings s).openChannels.filter (c.noteSettings s).isAwaitingSettings)
      (c.noteSettings s)).filter (fun d => d.peer.extendedConnect), d.ReservesFresh) :
    CallPath strict k ⟨c, ws⟩ ⟨c.settingsArrived s, ws⟩ :=
  ((Change.settingsNoted c s hk).path ws).trans (callPath_startDeferred hf (by rw [hk]; rfl))

theorem callPath_announceEnd (last : StreamId) (reason : Reason) (ho : c.isOpen id = true) :
    CallPath strict k ⟨c, ws⟩ ⟨announceEnd last reason c id, ws⟩ := by
  rw [announceEnd]
  split
  · exact .refl _
  · have hfirst : CallPath strict k ⟨c, ws⟩ ⟨c.emit id (.goAway last reason), ws⟩ :=
      (Change.noticed c id _ rfl (.opened ho)).path ws
    simp only
    split
    · exact hfirst.change (.handshakeFailed _ id _)
    · split
      · exact (hfirst.change (.noticed _ id _ rfl (.opened ho))).change
          (.closed _ id .remote (by simp))
      · exact hfirst

/-- Work that goes over open channels one after another is a path if the part of each channel is,
and leaves the other channels alone. -/
theorem callPath_foldl_open (f : Connection → ChannelId → Connection) (ids : List ChannelId)
    (hnd : ids.Nodup) (ho : ∀ id ∈ ids, c.isOpen id = true)
    (hf : ∀ d id, d.isOpen id = true → CallPath strict k ⟨d, ws⟩ ⟨f d id, ws⟩)
    (hframe : ∀ d id j, j ≠ id → (f d id).channels.get? j = d.channels.get? j) :
    CallPath strict k ⟨c, ws⟩ ⟨ids.foldl f c, ws⟩ := by
  induction ids generalizing c with
  | nil => exact .refl _
  | cons id ids ih =>
    obtain ⟨hid, hnd⟩ := List.nodup_cons.mp hnd
    refine (hf c id (ho id List.mem_cons_self)).trans (ih hnd fun j hj => ?_)
    have hne : j ≠ id := fun heq => hid (heq ▸ hj)
    rw [isOpen_congr (hframe c id j hne)]
    exact ho j (List.mem_cons_of_mem _ hj)

theorem callPath_goAwayArrived (last : StreamId) (reason : Reason) (debug : Bytes)
    (hk : k.call = .frame (.goAway last reason debug)) :
    CallPath strict k ⟨c, []⟩ ⟨c.goAwayArrived last reason, []⟩ :=
  ((Change.endNoted c last reason debug hk).path []).trans
    (callPath_foldl_open _ _ (nodup_openChannels _)
      (fun _ hid => isOpen_iff.mpr (mem_openChannels.mp hid))
      (fun _ _ ho => callPath_announceEnd last reason ho)
      (fun _ _ _ hne => get?_announceEnd_of_ne hne last reason))

/-! ## Writes -/

theorem writeCompleted_of_some {write : WriteId} {w : Inflight}
    (h : c.inflight.get? write = some w) (f : WriteFault) :
    c.writeCompleted write (some f) =
      (c.settleWrite write w (some f)).writeFailed w.channel := by
  rw [writeCompleted, h]
  rfl

theorem writeCompleted_of_done {write : WriteId} {w : Inflight}
    (h : c.inflight.get? write = some w) :
    c.writeCompleted write none = c.settleWrite write w none := by
  rw [writeCompleted, h]
  rfl

theorem writeCompleted_of_none {write : WriteId} (h : c.inflight.get? write = none)
    (fault : Option WriteFault) : c.writeCompleted write fault = c := by
  rw [writeCompleted, h]

/-- A refused write is on its way for a moment only. -/
theorem sendData_of_refused {stream : StreamId} {payload : Bytes} {ticket : Ticket}
    {f : WriteFault}
    (hsub : (c.enterWrite id payload ticket).submit (some id)
      (.data c.nextWrite stream payload false) = (some f, c')) :
    c.sendData id stream payload ticket =
      (c'.settleWrite c.nextWrite ⟨id, payload.length, ticket⟩ (some f)).writeFailed id := by
  have hw : c'.inflight.get? c.nextWrite = some ⟨id, payload.length, ticket⟩ := by
    rw [← (Prod.mk.inj hsub).2]
    change (c.inflight.insert c.nextWrite _).get? c.nextWrite = _
    rw [Table.get?_insert_self]
  have hfault : (c.enterWrite id payload ticket).submit (some id)
      (.data c.nextWrite stream payload false) = (some f, c') := hsub
  unfold enterWrite at hfault
  rw [sendData]
  simp only [hfault]
  exact writeCompleted_of_some hw f

theorem sendData_of_taken {stream : StreamId} {payload : Bytes} {ticket : Ticket}
    (hsub : (c.enterWrite id payload ticket).submit (some id)
      (.data c.nextWrite stream payload false) = (none, c')) :
    c.sendData id stream payload ticket =
      c'.updateChannel id fun ch => { ch with unflushed := true } := by
  unfold enterWrite at hsub
  rw [sendData]
  simp only [hsub]

theorem callPath_sendData (h : c.channels.get? id = some ch) (ho : ch.closed = false)
    (hp : ch.handshake.isPending = false) (payload : Bytes) (ticket : Ticket) :
    CallPath strict k ⟨c, ⟨id, payload, ticket⟩ :: ws⟩
      ⟨c.sendData id ch.stream payload ticket, ws⟩ := by
  rcases hsub : (c.enterWrite id payload ticket).submit (some id)
    (.data c.nextWrite ch.stream payload false) with ⟨fault, c'⟩
  cases fault with
  | none =>
    rw [sendData_of_taken hsub]
    exact (CallStep.sent (w := ⟨id, payload, ticket⟩) h ho hp rfl hsub).path
  | some f =>
    rw [sendData_of_refused hsub]
    exact (CallStep.bounced (w := ⟨id, payload, ticket⟩) h ho hp rfl hsub).path

/-- The channel goes on with the stream and the finished handshake that it has. -/
def GoesOn (ch : Channel) (c : Connection) (id : ChannelId) : Prop :=
  ∃ ch', c.channels.get? id = some ch' ∧ ch'.stream = ch.stream ∧ ch'.handshake = ch.handshake

theorem goesOn_close (h : c.channels.get? id = some ch) (hp : ch.handshake.isPending = false)
    (kind : CloseKind) : GoesOn ch (c.close id kind) id := by
  rcases close_cases c id kind with ⟨-, heq⟩ | ⟨d, hd, ho⟩
  · rw [heq]
    exact ⟨ch, h, rfl, rfl⟩
  · obtain rfl := Option.some.inj (h.symm.trans hd)
    exact ⟨ch.shut kind, get?_close_self h ho kind, rfl, Channel.handshake_giveUpParked hp⟩

theorem goesOn_writeFailed (h : c.channels.get? id = some ch)
    (hp : ch.handshake.isPending = false) : GoesOn ch (c.writeFailed id) id := by
  rw [writeFailed, h]
  simp only
  split_ifs
  · exact ⟨ch, h, rfl, rfl⟩
  · exact goesOn_close h hp .reset
  · have hended : ({ c with channels := c.channels.insert id { ch with outboundClosed := true } }
        ).channels.get? id = some { ch with outboundClosed := true } := by
      rw [Table.get?_insert_self]
    exact goesOn_close hended hp .remote
  · exact ⟨{ ch with outboundClosed := true }, by rw [Table.get?_insert_self], rfl, rfl⟩

theorem settleWrite_of_none (write : WriteId) {w : Inflight}
    (h : c.channels.get? w.channel = none) (fault : Option WriteFault) :
    c.settleWrite write w fault = { c with
      inflight := c.inflight.erase write
      ledger := c.ledger.resolve w.ticket (.ofReport fault) } := by
  rw [settleWrite, releaseBytes_of_none (c := { c with inflight := c.inflight.erase write }) h]
  rfl

theorem settleWrite_exact (write : WriteId) {w : Inflight}
    (h : c.channels.get? w.channel = some ch) (fault : Option WriteFault) :
    c.settleWrite write w fault = { c with
      inflight := c.inflight.erase write
      channels := c.channels.insert w.channel
        (ch.subPending w.size c.config.lowWatermark c.isWritable).1
      ledger := c.ledger.resolve w.ticket (.ofReport fault) }.reportIf w.channel
        (ch.subPending w.size c.config.lowWatermark c.isWritable).2 := by
  have hroom : { c with inflight := c.inflight.erase write }.isWritable = c.isWritable := rfl
  rw [settleWrite, releaseBytes_exact (c := { c with inflight := c.inflight.erase write }) h, hroom]
  dsimp only
  generalize ch.subPending w.size c.config.lowWatermark c.isWritable = r
  unfold reportIf reportWritable
  split_ifs <;> rfl

theorem settleWrite_eq (write : WriteId) {w : Inflight}
    (h : c.channels.get? w.channel = some ch) (fault : Option WriteFault) :
    ∃ tasks journal, c.settleWrite write w fault = { c with
        inflight := c.inflight.erase write
        channels := c.channels.insert w.channel
          (ch.subPending w.size c.config.lowWatermark c.isWritable).1
        ledger := c.ledger.resolve w.ticket (.ofReport fault)
        tasks := tasks
        journal := journal } ∧
      (tasks = c.tasks ∨ tasks = c.tasks ++ [.reportWritability w.channel true]) ∧
      c.journal.Turned w.channel journal := by
  rw [settleWrite_exact write h]
  exact reportIf_eq ..

theorem turned_settleWrite (c : Connection) (write : WriteId) (w : Inflight)
    (fault : Option WriteFault) :
    c.journal.Turned w.channel (c.settleWrite write w fault).journal := by
  cases h : c.channels.get? w.channel with
  | none => rw [settleWrite_of_none write h]; exact .refl _
  | some ch =>
    obtain ⟨_, _, heq, -, hturned⟩ := settleWrite_eq write h fault
    rw [heq]
    exact hturned

theorem surroundings_settleWrite (c : Connection) (write : WriteId) (w : Inflight)
    (fault : Option WriteFault) : (c.settleWrite write w fault).encoder = c.encoder ∧
      (c.settleWrite write w fault).peer = c.peer ∧
      (c.settleWrite write w fault).goingAway = c.goingAway := by
  cases h : c.channels.get? w.channel with
  | none => rw [settleWrite_of_none write h]; exact ⟨rfl, rfl, rfl⟩
  | some ch =>
    obtain ⟨_, _, heq, -⟩ := settleWrite_eq write h fault
    rw [heq]
    exact ⟨rfl, rfl, rfl⟩

theorem get?_settleWrite (write : WriteId) {w : Inflight}
    (h : c.channels.get? w.channel = some ch) (fault : Option WriteFault) :
    (c.settleWrite write w fault).channels.get? w.channel =
      some (ch.subPending w.size c.config.lowWatermark c.isWritable).1 := by
  obtain ⟨_, _, heq, -⟩ := settleWrite_eq write h fault
  rw [heq, Table.get?_insert_self]

theorem goesOn_sendData (h : c.channels.get? id = some ch) (hp : ch.handshake.isPending = false)
    (stream : StreamId) (payload : Bytes) (ticket : Ticket) :
    GoesOn ch (c.sendData id stream payload ticket) id := by
  rcases hsub : (c.enterWrite id payload ticket).submit (some id)
    (.data c.nextWrite stream payload false) with ⟨fault, c'⟩
  have h' : c'.channels.get? id = some ch := by
    rw [← (Prod.mk.inj hsub).2]; exact h
  cases fault with
  | none =>
    rw [sendData_of_taken hsub]
    exact ⟨{ ch with unflushed := true }, by rw [get?_updateChannel, if_pos rfl, h']; rfl, rfl, rfl⟩
  | some f =>
    rw [sendData_of_refused hsub]
    have hsettled := get?_settleWrite c.nextWrite (w := ⟨id, payload.length, ticket⟩) h' (some f)
    obtain ⟨ch', hch', hstream, hhand⟩ := goesOn_writeFailed hsettled hp
    exact ⟨ch', hch', hstream, hhand⟩

theorem callPath_replay (writes : List (Bytes × Ticket)) (h : c.channels.get? id = some ch)
    (hp : ch.handshake.isPending = false) :
    CallPath strict k ⟨c, writes.map fun w => ⟨id, w.1, w.2⟩⟩
      ⟨replay id ch.stream writes c, []⟩ := by
  induction writes generalizing c ch with
  | nil => exact .refl _
  | cons w ws ih =>
    rw [replay, isOpen_of_get? h]
    cases ho : ch.closed with
    | false =>
      apply (callPath_sendData h ho hp w.1 w.2).trans
      obtain ⟨ch', h', hstream, hhand⟩ := goesOn_sendData h hp ch.stream w.1 w.2
      rw [← hstream]
      rw [← hstream] at h'
      exact ih h' (hhand ▸ hp)
    | true =>
      have hdrop : CallStep strict k ⟨c, ⟨id, w.1, w.2⟩ :: ws.map fun w => ⟨id, w.1, w.2⟩⟩
          ⟨c.resolve w.2 (.failed .channelClosed), ws.map fun w => ⟨id, w.1, w.2⟩⟩ :=
        .dropped fun ch' h' ho' => by
          rw [h] at h'
          rw [← Option.some.inj h', ho] at ho'
          cases ho'
      exact hdrop.path.trans (ih (c := c.resolve w.2 (.failed .channelClosed)) h hp)

theorem goesOn_replay (writes : List (Bytes × Ticket)) (h : c.channels.get? id = some ch)
    (hp : ch.handshake.isPending = false) (stream : StreamId) :
    GoesOn ch (replay id stream writes c) id := by
  induction writes generalizing c ch with
  | nil => exact ⟨ch, h, rfl, rfl⟩
  | cons w ws ih =>
    rw [replay]
    split
    · obtain ⟨ch', h', hstream, hhand⟩ := goesOn_sendData h hp stream w.1 w.2
      obtain ⟨d, hd, hstream', hhand'⟩ := ih h' (hhand ▸ hp)
      exact ⟨d, hd, hstream'.trans hstream, hhand'.trans hhand⟩
    · exact ih (c := c.resolve w.2 (.failed .channelClosed)) h hp

theorem completeHandshake_eq (h : c.channels.get? id = some ch) (response : Connect.Response)
    (compression : Option Deflate.Terms) :
    c.completeHandshake id response compression =
      ((replay id ch.stream (ch.parked.take.1.getD [])
        (c.markComplete id response.protocol compression)).flushChannel id).emit id
          (.handshakeCompleted response.protocol response.extensions) := by
  rw [completeHandshake, h]
  simp only
  rw [updateChannel, markComplete, Table.modify_eq_insert h, Table.modify_eq_insert h]

theorem callPath_completeHandshake (h : c.channels.get? id = some ch)
    (hs : ch.handshake = .requestSent) (response : Connect.Response)
    (compression : Option Deflate.Terms) (hk : ∃ stream,
      c.registry.get? stream = some (.active id) ∧ k.conn.Answers k.call id stream)
    (hafter : c.completeHandshake id response compression = k.conn.after k.call) :
    CallPath strict k ⟨c, []⟩ ⟨c.completeHandshake id response compression, []⟩ := by
  have hmark : (c.markComplete id response.protocol compression).channels.get? id = some
      { ch with
        handshake := .complete
        subprotocol := response.protocol
        compression := compression
        parked := ch.parked.take.2 } := by
    change (c.channels.modify id _).get? id = _
    rw [Table.get?_modify, if_pos rfl, h]
    rfl
  have hfirst : CallPath strict k ⟨c, []⟩ _ :=
    (CallStep.unparked response.protocol compression h hs hk).path
  have hthen := (hfirst.trans (callPath_replay (ch.parked.take.1.getD []) hmark rfl)).change
    (.channelFlushed _ id)
  obtain ⟨stream, -, hanswers⟩ := hk
  obtain ⟨ch', h', -⟩ := goesOn_replay (ch.parked.take.1.getD []) hmark rfl ch.stream
  have hflushed : ((replay id ch.stream (ch.parked.take.1.getD [])
      (c.markComplete id response.protocol compression)).flushChannel id).channels.get? id =
        some { ch' with unflushed := false } := by
    refine (get?_updateChannel _ _ _ id).trans ?_
    rw [if_pos rfl, h']
    rfl
  rw [completeHandshake_eq h] at hafter ⊢
  exact hthen.change (.noticed _ id _ rfl (.completed hflushed ⟨stream, hanswers⟩ hafter))

theorem callPath_responseArrived (h : c.channels.get? id = some ch)
    (hs : ch.handshake = .requestSent) (block : HeaderBlock) (endStream : Bool)
    (hk : ∀ response compression,
      Connect.Response.ofHeaders block endStream ch.requested = .ok response →
      c.acceptExtensions response.extensions = .ok compression →
      (∃ stream, c.registry.get? stream = some (.active id) ∧ k.conn.Answers k.call id stream) ∧
        c.completeHandshake id response compression = k.conn.after k.call) :
    CallPath strict k ⟨c, []⟩ ⟨c.responseArrived id block endStream, []⟩ := by
  rw [responseArrived, h]
  simp only
  split
  · exact (Change.handshakeFailed c id _).path []
  next response hresponse =>
    split
    · exact (Change.handshakeFailed c id _).path []
    next compression hterms =>
      obtain ⟨hanswers, hafter⟩ := hk response compression hresponse hterms
      exact callPath_completeHandshake h hs _ _ hanswers hafter

theorem callPath_writeCompleted (write : WriteId) (fault : Option WriteFault)
    (hk : k = ⟨c, .writeCompleted write fault⟩) :
    CallPath strict k ⟨c, []⟩ ⟨c.writeCompleted write fault, []⟩ := by
  cases h : c.inflight.get? write with
  | none => rw [writeCompleted_of_none h]; exact .refl _
  | some w =>
    have hfirst : CallPath strict k ⟨c, []⟩ _ := (Change.writeSettled fault hk h).path []
    cases fault with
    | none => rw [writeCompleted_of_done h]; exact hfirst
    | some f => rw [writeCompleted_of_some h]; exact hfirst.change (.writeFailed _ w.channel)

theorem push?_eq_none_iff {p : Parked} {payload : Bytes} {ticket : Ticket} :
    p.push? payload ticket = none ↔ p.settled = true := by
  unfold Parked.push?
  split_ifs with h <;> simp [h]

/-- A write is turned away at once, or it is taken up and then put down. -/
theorem write_cases (strict : Prop) (k : Cause) (c : Connection) (id : ChannelId)
    (payload : Bytes) :
    c.write id payload = c.issue (.kept (.failed .channelClosed)) ∨
      ∃ ch, c.channels.get? id = some ch ∧ ch.closed = false ∧ ch.outboundClosed = false ∧
        (c.write id payload).1 = c.ledger.next ∧
        CallPath strict k
          ⟨(c.issue .held).2.countBytes id ch payload.length, [⟨id, payload, c.ledger.next⟩]⟩
          ⟨(c.write id payload).2, []⟩ := by
  rw [write]
  split
  · exact .inl rfl
  next ch h =>
    split
    · exact .inl rfl
    next hclosed =>
      simp only [Bool.or_eq_true, not_or, Bool.not_eq_true] at hclosed
      have hch : ((c.issue .held).2.countBytes id ch payload.length).channels.get? id =
          some (ch.addPending payload.length c.config.highWatermark).1 := by
        obtain ⟨_, heq, -⟩ := countBytes_eq (c.issue .held).2 id ch payload.length
        rw [heq, Table.get?_insert_self]
        rfl
      refine .inr ⟨ch, h, hclosed.1, hclosed.2, ?_⟩
      simp only [issue_eq] at hch ⊢
      split
      next hp =>
        cases hpush : ch.parked.push? payload c.ledger.next with
        | some parked =>
          have hparked : CallStep strict k ⟨_, [⟨id, payload, c.ledger.next⟩]⟩ _ :=
            .parked (w := ⟨id, payload, c.ledger.next⟩) hch hclosed.1 hp hpush
          exact ⟨rfl, hparked.path⟩
        | none =>
          refine ⟨rfl, (CallStep.dropped ?_).path⟩
          intro ch' h' _
          obtain rfl := Option.some.inj (hch.symm.trans h')
          exact ⟨hp, push?_eq_none_iff.mp hpush⟩
      next hp =>
        exact ⟨rfl, callPath_sendData hch hclosed.1 (Bool.not_eq_true _ ▸ hp) payload c.ledger.next⟩

theorem callPath_write (payload : Bytes)
    (hk : k.call = .write id payload ∨ k.call = .writeAndFlush id payload) (hc : k.conn = c) :
    CallPath strict k ⟨c, []⟩ ⟨(c.write id payload).2, []⟩ := by
  rcases write_cases strict k c id payload with heq | ⟨ch, h, ho, hout, -, hpath⟩
  · rw [heq]
    exact (Change.issued c _).path []
  · exact (CallStep.takenUp hk hc h ho hout).path.trans hpath

/-! ## Frames -/

section

variable {f : Frame} (hk : k.call = .frame f) (hc : c = { k.conn with reading := true })
  (hr : c.registry.get? f.stream = some (.active id))
include hk hc hr

theorem callPath_dataArrived {stream : StreamId} (payload : Bytes) (padding : Nat)
    (endStream : Bool) (hf : f = .data stream payload padding endStream) :
    CallPath strict k ⟨c, ws⟩ ⟨c.dataArrived id payload padding endStream, ws⟩ := by
  rw [dataArrived]
  split
  · exact .refl _
  next ch h =>
    split
    · exact ((Change.discarded c 1 payload.length).path ws).trans
        (callPath_failChannel (c := c.discard 1 payload.length) ⟨_, hr⟩ _)
    next hv =>
      have hfree : ch.inboundClosed = false ∧ ch.handshake ≠ .requestSent := by
        unfold Channel.dataViolation? at hv
        split_ifs at hv with _ hp hi
        refine ⟨Bool.not_eq_true _ ▸ hi, fun hs => hp ?_⟩
        rw [hs]
        rfl
      refine (Change.received _ h hfree.1 hc ⟨_, hr⟩ ?_ hfree.2).path ws
      rw [hk, hf, arriving, if_pos]
      · rfl
      · subst hc hf
        exact ⟨hr, (Option.any_eq_true ..).mpr ⟨ch, h, decide_eq_true hv⟩⟩

omit hk hc hr in
theorem frameArrived_of_headers {stream : StreamId} {block : HeaderBlock} {endStream : Bool}
    (hr : c.registry.get? stream = some (.active id)) :
    c.frameArrived (.headers stream block endStream) =
      { c with reading := true }.headersArrived id block endStream := by
  simp only [frameArrived, Frame.stream, hr, channelFrame]

omit hk hc hr in
/-- A response that accepts the conversation of a channel completes its handshake. -/
theorem completeHandshake_of_accepted {stream : StreamId} {block : HeaderBlock} {endStream : Bool}
    {response : Connect.Response} {compression : Option Deflate.Terms}
    (hr : c.registry.get? stream = some (.active id)) (h : c.channels.get? id = some ch)
    (hs : ch.handshake = .requestSent)
    (hok : Connect.Response.ofHeaders block endStream ch.requested = .ok response)
    (hterms : c.acceptExtensions response.extensions = .ok compression) :
    { c with reading := true }.completeHandshake id response compression =
      c.after (.frame (.headers stream block endStream)) := by
  have hterms' : { c with reading := true }.acceptExtensions response.extensions =
      .ok compression := hterms
  rw [after, call, frameArrived_of_headers hr, headersArrived, h]
  simp only [if_pos hs, responseArrived, h, hok, hterms']

theorem callPath_headersArrived {stream : StreamId} (block : HeaderBlock) (endStream : Bool)
    (hf : f = .headers stream block endStream) :
    CallPath strict k ⟨c, []⟩ ⟨c.headersArrived id block endStream, []⟩ := by
  rw [headersArrived]
  split
  · exact .refl _
  next ch h =>
    split_ifs with hs hv
    · refine callPath_responseArrived h hs block endStream fun response compression hok hterms => ?_
      subst hc hf
      refine ⟨⟨stream, hr, block, endStream, ch, response, compression, hk, hr, h, hs, hok,
        hterms⟩, ?_⟩
      rw [hk]
      exact completeHandshake_of_accepted (c := k.conn) hr h hs hok hterms
    · exact callPath_failChannel ⟨_, hr⟩ _
    · rw [not_or] at hv
      refine (Change.received .trailers h (Bool.not_eq_true _ ▸ hv.2) hc ⟨_, hr⟩ ?_ hs).path []
      rw [hk, hf]
      rfl

theorem callPath_channelFrame : CallPath strict k ⟨c, []⟩ ⟨c.channelFrame id f, []⟩ := by
  cases f with
  | data _ payload padding endStream =>
    exact callPath_dataArrived hk hc hr payload padding endStream rfl
  | headers _ block endStream => exact callPath_headersArrived hk hc hr block endStream rfl
  | reset _ reason => exact (Change.resetArrived c id reason ⟨_, hr⟩).path []
  | priority _ p => exact (Change.noticed c id _ rfl (.registered ⟨_, hr⟩)).path []
  | windowUpdate _ _ => exact .refl _
  | unknown _ _ _ _ => exact (Change.discarded c 1 _).path []
  | settings _ => exact (Change.forwarded c _).path []
  | goAway _ _ _ => exact (Change.forwarded c _).path []

end

theorem callPath_strayFrame (f : Frame) (hk : k.call = .frame f)
    (hc : c = { k.conn with reading := true }) (hr : c.registry.get? f.stream = none)
    (h0 : strict → c.config.role = .server → (Call.frame f).isHeadersOnZero = false) :
    CallPath strict k ⟨c, []⟩ ⟨c.strayFrame f, []⟩ := by
  unfold strayFrame
  split
  next stream block endStream hrole =>
    split
    next r _ =>
      rw [answerRequest]
      split
      · exact (Change.refused c stream _ hrole).path []
      · exact (Change.answered r.path _ _ hrole hr (fun hs => of_decide_eq_false (h0 hs hrole)) hc
          ⟨block, endStream, hk⟩).path []
    · exact (Change.forwarded c _).path []
  · exact (Change.forwarded c _).path []

theorem callPath_frameArrived (f : Frame) (hk : k = ⟨c, .frame f⟩)
    (ho : strict → c.Careful (.frame f)) :
    CallPath strict k ⟨c, []⟩ ⟨c.frameArrived f, []⟩ := by
  have hfirst : CallPath strict k ⟨c, []⟩ _ := (Change.cycleBegun c).path []
  unfold frameArrived
  split
  next s =>
    exact (hfirst.trans (callPath_settingsArrived s (by rw [hk]) fun hs => (ho hs).2)).change
      (.forwarded _ _)
  next last reason debug =>
    exact (hfirst.trans (callPath_goAwayArrived last reason debug (by rw [hk]))).change
      (.forwarded _ _)
  next =>
    apply hfirst.trans
    dsimp only
    split
    next hr => exact callPath_channelFrame (by rw [hk]) (by rw [hk]) hr
    · exact (Change.discarded _ 1 _).path []
    next hr => exact callPath_strayFrame f (by rw [hk]) (by rw [hk]) hr fun hs => (ho hs).1

/-! ## Upkeep -/

theorem runTask_withTasks (c : Connection) (t : Task) (tasks : List Task) :
    { c with tasks := tasks }.runTask t = { c.runTask t with tasks := tasks } := by
  cases t with
  | reportWritability id writable =>
    rw [runTask, runTask]
    split <;> rfl
  | tearDown id =>
    rw [runTask, runTask]
    split <;> rfl

theorem callPath_foldl_runTask (hk : k.call = .runTasks) (tasks : List Task) :
    CallPath strict k ⟨{ c with tasks := tasks }, []⟩
      ⟨tasks.foldl runTask { c with tasks := [] }, []⟩ := by
  induction tasks generalizing c with
  | nil => exact .refl _
  | cons t ts ih =>
    have hfirst : CallPath strict k ⟨{ c with tasks := t :: ts }, []⟩
        ⟨{ c with tasks := ts }.runTask t, []⟩ := (Change.taskRun rfl hk).path []
    rw [runTask_withTasks] at hfirst
    rw [List.foldl_cons, runTask_withTasks]
    exact hfirst.trans ih

theorem callPath_fireDue {now : Time} (hk : k.call = .timePassed now) (n : Nat) :
    CallPath strict k ⟨c, []⟩ ⟨fireDue now n c, []⟩ := by
  induction n generalizing c with
  | zero => exact .refl _
  | succ n ih =>
    rw [fireDue]
    split
    · exact .refl _
    next t timers h => exact ((Change.timerFired h hk).path []).trans ih

theorem isOpen_loseChannels (c : Connection) (id : ChannelId) :
    (c.openChannels.foldl loseChannel c).isOpen id = false := by
  rw [isOpen_foldl_loseChannel]
  cases ho : c.isOpen id with
  | false => rfl
  | true => simpa using mem_openChannels.mpr (isOpen_iff.mp ho)

/-- What follows on the failure of all writes when the connection is lost. -/
theorem callPath_loseChannels (hk : k.call = .connectionLost) :
    CallPath strict k ⟨c.loseInflight, []⟩ ⟨c.connectionLost, []⟩ :=
  (callPath_foldl_open loseChannel c.loseInflight.openChannels (nodup_openChannels _)
    (fun _ hid => isOpen_iff.mpr (mem_openChannels.mp hid))
    (fun d id ho => (Change.channelLost d id hk ho).path [])
    (fun _ _ _ hne => get?_loseChannel_of_ne hne)).change
      (.cleared _ hk (isOpen_loseChannels _))

theorem callPath_connectionLost (hk : k.call = .connectionLost) :
    CallPath strict k ⟨c, []⟩ ⟨c.connectionLost, []⟩ :=
  ((Change.inflightLost c hk).path []).trans (callPath_loseChannels hk)

theorem isOpen_connectionLost (c : Connection) (id : ChannelId) :
    c.connectionLost.isOpen id = false :=
  isOpen_loseChannels c.loseInflight id

theorem get?_addAsking (path : String) (subprotocol : Option String) :
    (c.addAsking path subprotocol).2.channels.get? c.nextChannel =
      some { c.newChannel path with requested := subprotocol } := by
  rw [addAsking_eq, Table.get?_insert_self]

theorem callPath_openStream (path : String) (subprotocol : Option String)
    (hk : k = ⟨c, .openStream path subprotocol⟩)
    (ho : strict → c.Careful (.openStream path subprotocol)) :
    CallPath strict k ⟨c, []⟩ ⟨(c.openStream path subprotocol).2, []⟩ := by
  rcases openStream_cases c path subprotocol with ⟨f, heq⟩ | ⟨hrole, hgoing, hactive, hext, heq⟩
  · rw [heq]
    exact .refl _
  · have hfirst : CallPath strict k ⟨c, []⟩ _ :=
      (Change.asked c path subprotocol hrole hgoing hactive hk).path []
    rw [heq]
    dsimp only
    split
    next hreceived =>
      refine hfirst.trans (callPath_startHandshake (get?_addAsking path subprotocol) rfl
        (if_pos hrole) (fun hs => (ho hs).2 _ ?_) (by rw [hk]; rfl))
      simp [reservingStates, hrole, hgoing, hactive, hreceived, hext hreceived]
    next => exact hfirst

/-! ## Calls -/

theorem callPath_setPriority (id : ChannelId) (weight : Nat) :
    CallPath strict k ⟨c, []⟩ ⟨(c.setPriority id weight).2, []⟩ := by
  rw [setPriority]
  split
  · exact .refl _
  split
  · exact .refl _
  next ch h =>
    split
    · exact .refl _
    next ho =>
    split
    next hs => exact (Change.weightCached weight h (Bool.not_eq_true _ ▸ ho) hs).path []
    · have hopen : c.isOpen id = true := isOpen_iff.mpr ⟨ch, h, Bool.not_eq_true _ ▸ ho⟩
      have hsent : CallPath strict k ⟨c, []⟩ _ :=
        (Change.weightSent c id ch.stream weight hopen).path []
      split
      next heq => rw [heq] at hsent; exact hsent
      next heq => rw [heq] at hsent; exact hsent.change (.flushed _)

theorem get?_of_active? {r : Registry ChannelId} {stream : StreamId}
    (h : r.active? stream = some id) : r.get? stream = some (.active id) := by
  obtain ⟨slot, hslot, hvalue⟩ := Option.bind_eq_some_iff.mp h
  cases slot with
  | active v => rw [hslot, ← Option.some.inj hvalue]
  | closed => cases hvalue

theorem callPath_streamFailed (stream : StreamId) (cause : Fault) :
    CallPath strict k ⟨c, []⟩ ⟨(c.streamFailed stream cause).2, []⟩ := by
  rw [streamFailed]
  split
  next id hactive => exact callPath_failChannel ⟨stream, get?_of_active? hactive⟩ _
  · exact .refl _

theorem callPath_foldl_recoverChannel (ids : List ChannelId) (h : ∀ id ∈ ids, c.isOpen id = true) :
    CallPath strict k ⟨c, []⟩ ⟨ids.foldl recoverChannel c, []⟩ := by
  induction ids generalizing c with
  | nil => exact .refl _
  | cons id ids ih =>
    refine ((Change.recovered c id (h id List.mem_cons_self)).path []).trans (ih ?_)
    intro j hj
    rw [isOpen_recoverChannel]
    exact h j (List.mem_cons_of_mem _ hj)

theorem callPath_writabilityChanged (writable : Bool) :
    CallPath strict k ⟨c, []⟩ ⟨c.writabilityChanged writable, []⟩ := by
  rw [writabilityChanged]
  split
  · exact callPath_foldl_recoverChannel _ fun id hid => isOpen_iff.mpr (mem_openChannels.mp hid)
  · exact .refl _

theorem callPath_closeOnRequest (id : ChannelId) (kind : CloseKind)
    (hk : kind = .graceful → k = ⟨c, .closeGracefully id⟩) :
    CallPath strict k ⟨c, []⟩ ⟨(c.closeOnRequest id kind).2, []⟩ :=
  ((Change.closed c id kind hk).path []).change (.issued _ _)

theorem callPath_onChannel (id : ChannelId) {f : Reply × Connection}
    (h : CallPath strict k ⟨c, []⟩ ⟨f.2, []⟩) :
    CallPath strict k ⟨c, []⟩ ⟨(c.onChannel id f).2, []⟩ := by
  rw [onChannel]
  split
  · exact h
  · exact .refl _

/-- Every call is made of call steps. -/
theorem callPath_after (c : Connection) (k : Call) (ho : strict → c.Careful k) :
    CallPath strict ⟨c, k⟩ ⟨c, []⟩ ⟨c.after k, []⟩ := by
  cases k with
  | frame f => exact callPath_frameArrived f rfl ho
  | readCycleEnded => exact (Change.cycleEnded c).path []
  | writeCompleted write fault => exact callPath_writeCompleted write fault rfl
  | streamFailed stream cause => exact callPath_streamFailed stream cause
  | writabilityChanged writable => exact callPath_writabilityChanged writable
  | connectionLost => exact callPath_connectionLost rfl
  | timePassed now => exact callPath_fireDue rfl _
  | runTasks => exact callPath_foldl_runTask rfl c.tasks
  | openStream path subprotocol => exact callPath_openStream path subprotocol rfl ho
  | beginRead id => exact callPath_onChannel id ((Change.readBegun c id).path [])
  | setAutoRead id on => exact callPath_onChannel id ((Change.autoReadSet c id on).path [])
  | write id payload => exact callPath_onChannel id (callPath_write payload (.inl rfl) rfl)
  | flush id => exact callPath_onChannel id ((Change.channelFlushed c id).path [])
  | writeAndFlush id payload =>
    exact callPath_onChannel id
      ((callPath_write payload (.inr rfl) rfl).change (.channelFlushed _ id))
  | setPriority id weight => exact callPath_onChannel id (callPath_setPriority id weight)
  | close id => exact callPath_onChannel id (callPath_closeOnRequest id .reset nofun)
  | closeGracefully id =>
      exact callPath_onChannel id (callPath_closeOnRequest id .graceful fun _ => rfl)
  | nextEvent =>
    exact (Change.around c.encoder c.journal.nextEvent.2 c.ledger c.clock
      (Journal.entries_nextEvent _) (fun _ => rfl) rfl (Nat.le_refl _) (.inl rfl)
      (.inl rfl)).path []
  | takeEvents =>
    exact (Change.around c.encoder c.journal.takeEvents.2 c.ledger c.clock rfl (fun _ => rfl) rfl
      (Nat.le_refl _) (.inl rfl) (.inl rfl)).path []
  | takeOutcomes =>
    exact (Change.around c.encoder c.journal c.ledger.collect.2 c.clock rfl
      (Ledger.promise?_collect _) rfl (Nat.le_refl _) (.inl rfl) (.inl rfl)).path []
  | dropTicket t =>
    exact (Change.around c.encoder c.journal (c.ledger.drop t) c.clock rfl
      (Ledger.promise?_drop _ t) rfl (Nat.le_refl _) (.inl rfl) (.inl rfl)).path []
  | advanceClock ms =>
    exact (Change.around c.encoder c.journal c.ledger (c.clock + ms) rfl (fun _ => rfl) rfl
      (Nat.le_add_right _ _) (.inl rfl) (.inr ⟨ms, rfl⟩)).path []
  | setEncoder e =>
    exact (Change.around e c.journal c.ledger c.clock rfl (fun _ => rfl) rfl
      (Nat.le_refl _) (.inr rfl) (.inl rfl)).path []

end Connection

end ChannelMux
