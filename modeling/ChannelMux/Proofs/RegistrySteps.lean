import ChannelMux.Proofs.CallPaths

/-!
# Registry steps: what calls do to channels, registry and batch

Most of what a step of a call does concerns a write, a report or a timer and is invisible to whoever
asks which channels are open, on which streams, and what they have received.  `Beside` says that
nothing of that kind has changed, and a `RegistryStep` is one of the few steps that do change it.
Every call is made of registry steps (`registryPath_run`), so an invariant that is about no more
than this looks at these only.
-/

namespace ChannelMux

/-- The second channel differs from the first in nothing that decides how a connection treats it;
its handshake may have come to an end. -/
structure Channel.Akin (ch ch' : Channel) : Prop where
  stream : ch'.stream = ch.stream
  closed : ch'.closed = ch.closed
  outboundClosed : ch'.outboundClosed = ch.outboundClosed
  inboundClosed : ch'.inboundClosed = ch.inboundClosed
  demand : ch'.demand = ch.demand
  inbound : ch'.inbound = ch.inbound
  budget : ch'.budget = ch.budget
  batched : ch'.batched = ch.batched
  initiator : ch'.initiator = ch.initiator ∨ ch.initiator = none ∧ ch'.initiator = some .theirs
  awaiting : ch'.handshake = .awaitingSettings → ch.handshake = .awaitingSettings
  pending : ch'.handshake.isPending = true → ch.handshake.isPending = true

namespace Channel.Akin

variable {ch ch' : Channel}

theorem refl (ch : Channel) : ch.Akin ch :=
  ⟨rfl, rfl, rfl, rfl, rfl, rfl, rfl, rfl, .inl rfl, id, id⟩

/-- For a change that has nothing to do with handshakes and ends. -/
theorem of_eq (hstream : ch'.stream = ch.stream) (hclosed : ch'.closed = ch.closed)
    (hout : ch'.outboundClosed = ch.outboundClosed) (hin : ch'.inboundClosed = ch.inboundClosed)
    (hunread : (ch'.demand, ch'.inbound, ch'.budget, ch'.batched) =
      (ch.demand, ch.inbound, ch.budget, ch.batched))
    (hinit : ch'.initiator = ch.initiator) (hhand : ch'.handshake = ch.handshake) :
    ch.Akin ch' := by
  simp only [Prod.mk.injEq] at hunread
  obtain ⟨hd, hq, hb, hw⟩ := hunread
  exact ⟨hstream, hclosed, hout, hin, hd, hq, hb, hw, .inl hinit, fun h => hhand ▸ h,
    fun h => hhand ▸ h⟩

theorem giveUpParked (ch : Channel) : ch.Akin ch.giveUpParked := by
  have hdone : ¬ ch.giveUpParked.handshake.isPending = true := by
    rw [ch.isPending_giveUpParked]
    exact Bool.false_ne_true
  exact ⟨rfl, rfl, rfl, rfl, rfl, rfl, rfl, rfl, .inl rfl,
    fun h => absurd (congrArg Handshake.isPending h) hdone, fun h => absurd h hdone⟩

end Channel.Akin

namespace Connection

variable {strict : Prop} {k : Cause} {c c' d : Connection} {id : ChannelId} {ch ch' : Channel}

/-- What has changed concerns neither the registry nor the reading side of channels. -/
structure Beside (c c' : Connection) : Prop where
  config : c'.config = c.config
  registry : ∀ s, c'.registry.get? s = c.registry.get? s
  nextChannel : c'.nextChannel = c.nextChannel
  channels : c.channels.Matches Channel.Akin c'.channels
  queue : c'.batch.queue = c.batch.queue
  draining : c'.batch.draining = c.batch.draining
  capacity : 0 < c.batch.capacity → 0 < c'.batch.capacity
  reading : c.reading = true → c'.reading = true
  tasks : ∀ t ∈ c'.tasks, t ∈ c.tasks ∨ ∃ id on, t = .reportWritability id on
  journal : c.journal.Apart c'.journal

/-- A step that a connection can make, as far as its registry, its batch and its channels are
concerned. -/
inductive RegistryStep (strict : Prop) : Connection → Connection → Prop
  | beside {c c' : Connection} : Beside c c' → RegistryStep strict c c'
  | closed (c : Connection) (id : ChannelId) (kind : CloseKind) :
      RegistryStep strict c (c.close id kind)
  | made (c : Connection) (path : String) :
      RegistryStep strict c { c with
        channels := c.channels.insert c.nextChannel (c.newChannel path)
        nextChannel := c.nextChannel + 1 }
  | assigned {c : Connection} {id : ChannelId} {ch : Channel} {stream : StreamId}
      {handshake : Handshake} :
      c.channels.get? id = some ch → ch.closed = false →
      ch.handshake = .awaitingSettings ∨ ch.stream = 0 → handshake ≠ .awaitingSettings →
      (strict → stream ≠ 0 ∧ c.registry.get? stream = none) →
      RegistryStep strict c { c with
        channels := c.channels.insert id { ch with stream := stream, handshake := handshake }
        registry := c.registry.insert stream id }
  | forgotten {c : Connection} {id : ChannelId} {ch : Channel} :
      c.channels.get? id = some ch → ch.closed = false → ch.batched = false →
      c.registry.get? ch.stream = some (.active id) →
      RegistryStep strict c { c with
        channels := c.channels.erase id
        registry := c.registry.remove ch.stream }
  | ended {c : Connection} {id : ChannelId} {ch : Channel} :
      c.channels.get? id = some ch → ch.closed = false → c.config.closeOnWriteFailure = false →
      ¬ (ch.inboundClosed = true ∧ ch.inbound = []) →
      RegistryStep strict c
        { c with channels := c.channels.insert id { ch with outboundClosed := true } }
  | expired (c : Connection) (stream : StreamId) :
      RegistryStep strict c { c with registry := c.registry.removeClosed stream }
  | tornDown {c : Connection} {id : ChannelId} {tasks : List Task} :
      c.tasks = .tearDown id :: tasks →
      RegistryStep strict c { c with tasks := tasks, channels := c.channels.erase id }
  | cleared (c : Connection) :
      (∀ id, c.isOpen id = false) →
      RegistryStep strict c { c with
        registry := c.registry.clear, batch := c.batch.clear, reading := false }
  | received {c : Connection} {id : ChannelId} {ch : Channel} (item : Inbound) :
      c.channels.get? id = some ch → ch.inboundClosed = false →
      RegistryStep strict c (c.receive id ch item)
  | cycleEnded (c : Connection) : RegistryStep strict c c.readCycleEnded
  | readBegun (c : Connection) (id : ChannelId) : RegistryStep strict c (c.beginRead id)
  | autoReadSet (c : Connection) (id : ChannelId) (on : Bool) :
      RegistryStep strict c (c.setAutoRead id on)

def RegistryPath (strict : Prop) : Connection → Connection → Prop :=
  Relation.ReflTransGen (RegistryStep strict)

namespace RegistryPath

theorem refl (c : Connection) : RegistryPath strict c c := Relation.ReflTransGen.refl

theorem trans (h : RegistryPath strict c c') (h' : RegistryPath strict c' d) :
    RegistryPath strict c d :=
  Relation.ReflTransGen.trans h h'

theorem tail (h : RegistryPath strict c c') (h' : RegistryStep strict c' d) :
    RegistryPath strict c d :=
  Relation.ReflTransGen.tail h h'

theorem beside (h : RegistryPath strict c c') (h' : Beside c' d) : RegistryPath strict c d :=
  h.tail (.beside h')

theorem induction {P : Connection → Prop} (step : ∀ c d, RegistryStep strict c d → P c → P d)
    (h : RegistryPath strict c c') (hc : P c) : P c' := by
  induction h with
  | refl => exact hc
  | tail _ hs ih => exact step _ _ hs ih

end RegistryPath

theorem RegistryStep.path (h : RegistryStep strict c c') : RegistryPath strict c c' :=
  (RegistryPath.refl c).tail h

/-! ## What goes on beside -/

namespace Beside

theorem path (h : Beside c c') : RegistryPath strict c c' := (RegistryPath.refl c).beside h

theorem refl (c : Connection) : Beside c c :=
  ⟨rfl, fun _ => rfl, rfl, .refl .refl _, rfl, rfl, fun h => h, fun h => h, fun _ => .inl,
    .refl _⟩

/-- The connection has said or counted something. -/
theorem told (c : Connection) {journal : Journal} (h : c.journal.Apart journal) (stats : Stats) :
    Beside c { c with journal := journal, stats := stats } :=
  { refl c with journal := h }

theorem emit (c : Connection) (id : ChannelId) (what : Happening) (h : what ≠ .readComplete) :
    Beside c (c.emit id what) :=
  have hapart : (Entry.event ⟨id, what⟩).isReading = false := decide_eq_false h
  told c ((Journal.Apart.refl _).push hapart) c.stats

theorem flush (c : Connection) : Beside c c.flush :=
  told c ((Journal.Apart.refl _).push rfl) c.stats

theorem submit (c : Connection) (owner : Option ChannelId) (call : WireCall) :
    Beside c (c.submit owner call).2 :=
  told c ((Journal.Apart.refl _).push rfl) c.stats

theorem update (c : Connection) (id : ChannelId) {f : Channel → Channel}
    (hf : ∀ ch, c.channels.get? id = some ch → ch.Akin (f ch)) :
    Beside c (c.updateChannel id f) :=
  { refl c with channels := .modify .refl _ _ hf }

theorem failParked (c : Connection) (id : ChannelId) (cause : Fault) :
    Beside c (c.failParked id cause) := by
  cases h : c.channels.get? id with
  | none => rw [Connection.failParked, h]; exact refl c
  | some ch =>
    rw [failParked_eq h]
    exact { refl c with channels := .insert .refl h (.giveUpParked ch) }

end Beside

/-- Whoever asked for one more report asked for nothing else. -/
theorem mem_of_reported {tasks tasks' : List Task} {id : ChannelId} {on : Bool}
    (h : tasks' = tasks ∨ tasks' = tasks ++ [.reportWritability id on]) :
    ∀ t ∈ tasks', t ∈ tasks ∨ ∃ id on, t = .reportWritability id on := by
  intro t ht
  rcases h with rfl | rfl
  · exact .inl ht
  · rcases List.mem_append.mp ht with ht | ht
    · exact .inl ht
    · exact .inr ⟨id, on, List.mem_singleton.mp ht⟩

theorem akin_subPending (ch : Channel) (size low : Nat) (parentWritable : Bool) :
    ch.Akin (ch.subPending size low parentWritable).1 :=
  .of_eq rfl rfl rfl rfl rfl rfl rfl

theorem beside_settleWrite (c : Connection) (write : WriteId) (w : Inflight)
    (fault : Option WriteFault) : Beside c (c.settleWrite write w fault) := by
  cases h : c.channels.get? w.channel with
  | none =>
    rw [settleWrite_of_none write h]
    exact { Beside.refl c with }
  | some ch =>
    obtain ⟨_, _, heq, htasks, hturned⟩ := settleWrite_eq write h fault
    rw [heq]
    exact { Beside.refl c with
      channels := .insert .refl h (akin_subPending ..)
      tasks := mem_of_reported htasks
      journal := hturned.apart }

theorem beside_recoverChannel (c : Connection) (id : ChannelId) :
    Beside c (c.recoverChannel id) := by
  cases h : c.channels.get? id with
  | none => rw [recoverChannel_of_none h]; exact .refl c
  | some ch =>
    obtain ⟨_, _, heq, htasks, hturned⟩ := recoverChannel_eq h
    rw [heq]
    exact { Beside.refl c with
      channels := .insert .refl h (.of_eq rfl rfl rfl rfl rfl rfl rfl)
      tasks := mem_of_reported htasks
      journal := hturned.apart }

theorem registryPath_sendPriority (c : Connection) (id : ChannelId) (stream : StreamId)
    (weight : Nat) :
    RegistryPath strict c (c.sendPriority id stream weight).2 := by
  have hfirst : RegistryPath strict c _ :=
    (Beside.submit c (some id) (.priority stream (.ofWeight weight))).path
  rw [sendPriority]
  split
  next heq => rw [heq] at hfirst; exact hfirst
  next heq =>
    rw [heq] at hfirst
    exact hfirst.beside (.emit _ id (.priorityApplied weight) (by simp))

theorem beside_reserve (c : Connection) (id : ChannelId) : Beside c (c.reserve id).2 := by
  have hfirst := Beside.submit c (some id) (.reserve (c.encoder.nextStream c.journal.wire))
  rw [reserve]
  split
  next heq => rw [heq] at hfirst; exact hfirst
  next heq => rw [heq] at hfirst; exact hfirst

/-! ## What closes channels -/

theorem registryPath_failChannel (c : Connection) (id : ChannelId) (cause : Fault) :
    RegistryPath strict c (c.failChannel id cause) :=
  (Beside.emit c id (.failed cause) nofun).path.tail (.closed _ id .reset)

theorem registryPath_failHandshake (c : Connection) (id : ChannelId) (cause : Fault) :
    RegistryPath strict c (c.failHandshake id cause) := by
  rw [failHandshake]
  split
  · exact .refl c
  · split
    · exact .refl c
    · exact (Beside.failParked c id cause).path.trans (registryPath_failChannel _ id cause)

theorem registryPath_loseChannel (c : Connection) (id : ChannelId) :
    RegistryPath strict c (c.loseChannel id) :=
  ((Beside.failParked c id .connectionClosed).path.beside
    (.emit _ id (.remoteClosed .connectionClosed) nofun)).tail (.closed _ id .remote)

theorem registryPath_resetArrived (c : Connection) (id : ChannelId) (reason : Reason) :
    RegistryPath strict c (c.resetArrived id reason) := by
  rw [resetArrived]
  split
  · exact .refl c
  · have hnoted : Beside c (c.updateChannel id fun ch =>
        { ch with remoteReset := true }.noteInitiator .theirs) :=
      .update c id fun ch _ => ⟨rfl, rfl, rfl, rfl, rfl, rfl, rfl, rfl, by
        change some (ch.initiator.getD .theirs) = _ ∨ _ ∧ some (ch.initiator.getD .theirs) = _
        cases ch.initiator with
        | none => exact .inr ⟨rfl, rfl⟩
        | some who => exact .inl rfl, fun h => h, fun h => h⟩
    exact ((hnoted.path.beside (.failParked _ id (.streamReset reason))).beside
      (.emit _ id (.remoteClosed (.reset reason)) nofun)).tail (.closed _ id .remote)

/-- Closing without a frame does not look at the outbound side. -/
theorem close_ended (h : c.channels.get? id = some ch) (ho : ch.closed = false) :
    ({ c with channels := c.channels.insert id { ch with outboundClosed := true } }).close id
      .remote = c.close id .remote := by
  have hshut : ({ ch with outboundClosed := true }).shut .remote = ch.shut .remote := rfl
  have hframe : ∀ active, ({ ch with outboundClosed := true }).closingFrame .remote active =
      ch.closingFrame .remote active := by
    intro _
    simp only [Channel.closingFrame, or_true, if_true]
  have ho' : ({ ch with outboundClosed := true }).closed = false := ho
  have hbytes : ({ ch with outboundClosed := true }).inboundBytes = ch.inboundBytes := rfl
  have htickets : ({ ch with outboundClosed := true }).parkedTickets = ch.parkedTickets := rfl
  have hstream : ({ ch with outboundClosed := true }).stream = ch.stream := rfl
  have hinbound : ({ ch with outboundClosed := true }).inbound = ch.inbound := rfl
  revert hshut hframe ho' hbytes htickets hstream hinbound
  generalize { ch with outboundClosed := true } = ended
  intro hshut hframe ho' hbytes htickets hstream hinbound
  simp only [close, Table.get?_insert, if_true, h, ho, ho', Bool.false_eq_true, if_false, hshut,
    hframe, hbytes, htickets, hstream, hinbound, Table.insert_insert]
  rfl

theorem registryPath_writeFailed (c : Connection) (id : ChannelId) :
    RegistryPath strict c (c.writeFailed id) := by
  rw [writeFailed]
  split
  · exact .refl c
  next ch h =>
    split
    · exact .refl c
    next ho =>
      split
      · exact (RegistryStep.closed c id .reset).path
      next hpolicy =>
        dsimp only
        split
        next =>
          rw [close_ended h (Bool.not_eq_true _ ▸ ho)]
          exact (RegistryStep.closed c id .remote).path
        next hend =>
          refine (RegistryStep.ended h (Bool.not_eq_true _ ▸ ho)
            (Bool.not_eq_true _ ▸ hpolicy) ?_).path
          rintro ⟨hin, hempty⟩
          apply hend
          simp [Channel.isStreamClosed, hin, hempty]

/-! ## What gives channels their streams -/

section

variable {c₁ c₂ : Connection} {stream : StreamId} {f : WriteFault}

/-- The request of a channel that waited has been handed to the encoder, and the channel has a
stream and a handshake that waits no more. -/
theorem registryPath_assigned (h : c.channels.get? id = some ch) (ho : ch.closed = false)
    (ha : ch.handshake = .awaitingSettings) (hres : c.reserve id = (.ok stream, c₁))
    (hfresh : strict → stream ≠ 0 ∧ c.registry.get? stream = none) {call : WireCall}
    {fault : Option WriteFault}
    (hsub : (c₁.assignStream id stream).submit (some id) call = (fault, c₂))
    (ch' : Channel) (ledger : Ledger)
    (hakin : ({ ch with stream := stream, handshake := ch'.handshake }).Akin ch')
    (hhand : ch'.handshake ≠ .awaitingSettings) :
    RegistryPath strict c { c₂ with channels := c₂.channels.insert id ch', ledger := ledger } := by
  obtain ⟨hchannels, hregistry⟩ := reserve_of_ok hres
  have hreserved := beside_reserve c id
  rw [hres] at hreserved
  have h₁ : c₁.channels.get? id = some ch := by rw [hchannels, h]
  have hassigned : RegistryStep strict c₁ { c₁ with
      channels := c₁.channels.insert id
        { ch with stream := stream, handshake := ch'.handshake }
      registry := c₁.registry.insert stream id } :=
    .assigned h₁ ho (.inl ha) hhand (hregistry ▸ hfresh)
  have hc₂ : c₂ = { c₁.assignStream id stream with journal := c₂.journal } := by
    rw [← (Prod.mk.inj hsub).2]; rfl
  have hjournal : c₁.journal.Apart c₂.journal := by
    rw [← (Prod.mk.inj hsub).2]; exact (Journal.Apart.refl _).push rfl
  have hchan : c₂.channels.insert id ch' = c₁.channels.insert id ch' := by
    rw [hc₂, assignStream, updateChannel_eq h₁]
    exact Table.insert_insert ..
  apply (hreserved.path.tail hassigned).beside
  rw [hchan, hc₂]
  exact { Beside.refl { c₁ with
      channels := c₁.channels.insert id
        { ch with stream := stream, handshake := ch'.handshake }
      registry := c₁.registry.insert stream id } with
    channels := .replace .refl _ _ hakin, journal := hjournal }

theorem registryPath_requested (h : c.channels.get? id = some ch) (ho : ch.closed = false)
    (ha : ch.handshake = .awaitingSettings) (hres : c.reserve id = (.ok stream, c₁))
    (hfresh : strict → stream ≠ 0 ∧ c.registry.get? stream = none)
    (hsub : (c₁.assignStream id stream).submit (some id)
      (.headers stream ((c₁.assignStream id stream).requestFor ch).toHeaders false) = (none, c₂)) :
    RegistryPath strict c
      (c₂.updateChannel id fun ch => { ch with handshake := .requestSent }) := by
  rw [updateChannel_eq (get?_assigned h hres hsub)]
  exact registryPath_assigned h ho ha hres hfresh hsub _ c₂.ledger
    ⟨rfl, rfl, rfl, rfl, rfl, rfl, rfl, rfl, .inl rfl, fun h => h, fun h => h⟩ nofun

theorem registryPath_requestRefused (h : c.channels.get? id = some ch) (ho : ch.closed = false)
    (ha : ch.handshake = .awaitingSettings) (hres : c.reserve id = (.ok stream, c₁))
    (hfresh : strict → stream ≠ 0 ∧ c.registry.get? stream = none)
    (hsub : (c₁.assignStream id stream).submit (some id)
      (.headers stream ((c₁.assignStream id stream).requestFor ch).toHeaders false) =
        (some f, c₂)) :
    RegistryPath strict c (c₂.failHandshake id (.write f)) := by
  have hch := get?_assigned h hres hsub
  have hdone := ({ ch with stream := stream, cachedWeight := none }).isPending_giveUpParked
  have hakin :
      ({ ch with
        stream := stream
        handshake :=
          ({ ch with stream := stream, cachedWeight := none }).giveUpParked.handshake }).Akin
        ({ ch with stream := stream, cachedWeight := none }).giveUpParked :=
    ⟨rfl, rfl, rfl, rfl, rfl, rfl, rfl, rfl, .inl rfl, fun h => h, fun h => h⟩
  rw [failHandshake, hch]
  dsimp only
  rw [ho, failParked_eq hch]
  refine (registryPath_assigned h ho ha hres hfresh hsub _ _ hakin ?_).trans
    (registryPath_failChannel _ id _)
  intro hwaits
  rw [hwaits] at hdone
  cases hdone

end

/-- The channel of an admitted request, before it is answered. -/
def enrolledChannel (c : Connection) (stream : StreamId) (path : String)
    (subprotocol : Option String) (compression : Option Deflate.Terms) : Channel :=
  { c.newChannel path with stream, subprotocol, compression }

/-- A server asks for nothing. -/
theorem handshake_enrolledChannel (hrole : c.config.role = .server) (stream : StreamId)
    (path : String) (subprotocol : Option String) (compression : Option Deflate.Terms) :
    (c.enrolledChannel stream path subprotocol compression).handshake = .complete := by
  change (if c.config.role = .client then Handshake.awaitingSettings else .complete) = _
  rw [hrole]
  rfl

/-- The connection with the channel of an admitted request. -/
def enrol (c : Connection) (stream : StreamId) (path : String) (subprotocol : Option String)
    (compression : Option Deflate.Terms) : Connection :=
  { c with
    channels := c.channels.insert c.nextChannel
      (c.enrolledChannel stream path subprotocol compression)
    nextChannel := c.nextChannel + 1
    registry := c.registry.insert stream c.nextChannel }

theorem accept_eq (c : Connection) (stream : StreamId) (path : String)
    (subprotocol : Option String) (compression : Option Deflate.Terms) :
    c.accept stream path subprotocol compression =
      match (c.enrol stream path subprotocol compression).submit (some c.nextChannel)
        (.headers stream (Connect.Response.accepting subprotocol
          (compression.map (·.responseHeader))).toHeaders false) with
      | (some _, d) =>
        { d with registry := d.registry.remove stream, channels := d.channels.erase c.nextChannel }
      | (none, d) =>
        { d.flush with stats := { d.stats with accepted := d.stats.accepted + 1 } }.emit
          c.nextChannel (.opened stream path subprotocol) := by
  have henrol : { (c.allocate path).2.updateChannel c.nextChannel (fun ch =>
      { ch with stream := stream, subprotocol := subprotocol, compression := compression }) with
      registry := (c.allocate path).2.registry.insert stream c.nextChannel } =
        c.enrol stream path subprotocol compression := by
    have hnew : (c.allocate path).2.channels.get? c.nextChannel = some (c.newChannel path) := by
      rw [allocate_eq, Table.get?_insert_self]
    rw [updateChannel_eq hnew, allocate_eq, enrol, Table.insert_insert]
    rfl
  rw [← henrol]
  rfl

theorem registryPath_enrol {stream : StreamId} (path : String) (subprotocol : Option String)
    (compression : Option Deflate.Terms) (hrole : c.config.role = .server)
    (hr : c.registry.get? stream = none) (h0 : strict → stream ≠ 0) :
    RegistryPath strict c (c.enrol stream path subprotocol compression) := by
  have hnew : ({ c with
      channels := c.channels.insert c.nextChannel (c.newChannel path)
      nextChannel := c.nextChannel + 1 }).channels.get? c.nextChannel =
        some (c.newChannel path) := by rw [Table.get?_insert_self]
  have hmade : RegistryStep strict c { c with
      channels := c.channels.insert c.nextChannel (c.newChannel path)
      nextChannel := c.nextChannel + 1 } := .made c path
  have hassigned : RegistryStep strict _ { c with
      channels := (c.channels.insert c.nextChannel (c.newChannel path)).insert c.nextChannel
        { c.newChannel path with stream := stream, handshake := .complete }
      nextChannel := c.nextChannel + 1
      registry := c.registry.insert stream c.nextChannel } :=
    .assigned hnew rfl (.inr rfl) nofun fun hs => ⟨h0 hs, hr⟩
  apply (hmade.path.tail hassigned).beside
  have hakin : ({ c.newChannel path with stream := stream, handshake := .complete }).Akin
      (c.enrolledChannel stream path subprotocol compression) := by
    exact .of_eq rfl rfl rfl rfl rfl rfl
      (handshake_enrolledChannel hrole stream path subprotocol compression)
  rw [Table.insert_insert]
  exact { Beside.refl { c with
      channels := c.channels.insert c.nextChannel
        { c.newChannel path with stream := stream, handshake := .complete }
      nextChannel := c.nextChannel + 1
      registry := c.registry.insert stream c.nextChannel } with
    channels := .replace .refl _ _ hakin }

theorem registryPath_accept {stream : StreamId} (path : String) (subprotocol : Option String)
    (compression : Option Deflate.Terms) (hrole : c.config.role = .server)
    (hr : c.registry.get? stream = none) (h0 : strict → stream ≠ 0) :
    RegistryPath strict c (c.accept stream path subprotocol compression) := by
  have henrol := registryPath_enrol path subprotocol compression hrole hr h0
  rw [accept_eq]
  split
  next f d heq =>
    have hd : d = { c.enrol stream path subprotocol compression with journal := d.journal } := by
      rw [← (Prod.mk.inj heq).2]; rfl
    have hsent : Beside (c.enrol stream path subprotocol compression) d := by
      rw [← (Prod.mk.inj heq).2]; exact .submit ..
    apply (henrol.beside hsent).tail
    have hch : d.channels.get? c.nextChannel =
        some (c.enrolledChannel stream path subprotocol compression) := by
      rw [hd]; exact Table.get?_insert_self ..
    exact .forgotten hch rfl rfl (by
      rw [hd]; exact (Registry.get?_insert ..).trans (if_pos rfl))
  next d heq =>
    have hsent : Beside (c.enrol stream path subprotocol compression) d := by
      rw [← (Prod.mk.inj heq).2]; exact .submit ..
    exact ((henrol.beside hsent).beside (.told d ((Journal.Apart.refl _).push rfl) _)).beside
      (.emit _ _ (.opened stream path subprotocol) nofun)

theorem registryPath_addAsking (c : Connection) (path : String) (subprotocol : Option String) :
    RegistryPath strict c (c.addAsking path subprotocol).2 := by
  have hmade : RegistryStep strict c { c with
      channels := c.channels.insert c.nextChannel (c.newChannel path)
      nextChannel := c.nextChannel + 1 } := .made c path
  have hasked : (c.newChannel path).Akin { c.newChannel path with requested := subprotocol } :=
    .of_eq rfl rfl rfl rfl rfl rfl rfl
  rw [addAsking_eq]
  exact hmade.path.beside { Beside.refl { c with
      channels := c.channels.insert c.nextChannel (c.newChannel path)
      nextChannel := c.nextChannel + 1 } with channels := .replace .refl _ _ hasked }

/-! ## Changes -/

theorem registryPath_fireTimer (c : Connection) (t : Timer) :
    RegistryPath strict c (c.fireTimer t) := by
  cases t with
  | registryRemoval stream => exact (RegistryStep.expired c stream).path
  | handshakeTimeout id =>
    rw [fireTimer]
    split
    · exact registryPath_failHandshake c id _
    · exact .refl c

theorem registryPath_runTask {t : Task} {tasks : List Task} (h : c.tasks = t :: tasks) :
    RegistryPath strict c ({ c with tasks := tasks }.runTask t) := by
  have hbeside : Beside c { c with tasks := tasks } :=
    { Beside.refl c with tasks := fun t ht => .inl (h ▸ List.mem_cons_of_mem _ ht) }
  cases t with
  | reportWritability id writable =>
    rw [runTask]
    split
    · exact hbeside.path.beside (.emit _ id (.writability writable) (by simp))
    · exact hbeside.path
  | tearDown id =>
    rw [runTask]
    split
    · exact (((RegistryStep.tornDown h).path.beside (.emit _ id .inactive (by decide))).beside
        (.emit _ id .unregistered (by decide)))
    · exact hbeside.path

theorem registryPath_change (h : Change strict k c c') : RegistryPath strict c c' := by
  cases h with
  | around encoder journal ledger clock hentries =>
    exact RegistryStep.path (.beside { Beside.refl c with journal := .of_eq hentries })
  | cycleBegun => exact RegistryStep.path (.beside { Beside.refl c with reading := fun _ => rfl })
  | settingsNoted s =>
    refine RegistryStep.path (.beside ?_)
    rw [noteSettings]
    dsimp only
    split
    · exact { Beside.refl c with capacity := fun _ => ReadBatch.capacity_pos_setCapacity _ _ }
    · exact { Beside.refl c with }
  | endNoted => exact RegistryStep.path (.beside { Beside.refl c with })
  | forwarded f => exact (Beside.told c ((Journal.Apart.refl _).push rfl) _).path
  | discarded frames bytes => exact (Beside.told c (.refl _) _).path
  | resetArrived id reason => exact registryPath_resetArrived c id reason
  | noticed id what hnotice =>
    exact (Beside.emit c id what fun he => by rw [he] at hnotice; cases hnotice).path
  | flushed => exact (Beside.flush c).path
  | asked path subprotocol => exact registryPath_addAsking c path subprotocol
  | unreserved _ _ _ hres =>
    have hreserved := congrArg Prod.snd hres ▸ beside_reserve c _
    exact hreserved.path.trans (registryPath_failHandshake ..)
  | requested h ho ha hres hfresh hsub => exact registryPath_requested h ho ha hres hfresh hsub
  | requestRefused h ho ha hres hfresh hsub =>
    exact registryPath_requestRefused h ho ha hres hfresh hsub
  | handshakeFailed id cause => exact registryPath_failHandshake c id cause
  | refused stream status => exact (Beside.submit c none _).path.beside (.flush _)
  | answered path subprotocol compression hrole hr h0 =>
    exact registryPath_accept path subprotocol compression hrole hr h0
  | received item h hi _ _ _ => exact (RegistryStep.received item h hi).path
  | cycleEnded => exact (RegistryStep.cycleEnded c).path
  | readBegun id => exact (RegistryStep.readBegun c id).path
  | autoReadSet id on => exact (RegistryStep.autoReadSet c id on).path
  | issued o => exact RegistryStep.path (.beside { Beside.refl c with })
  | writeSettled fault hk hw => exact (beside_settleWrite c _ _ fault).path
  | writeFailed id => exact registryPath_writeFailed c id
  | channelFlushed id =>
    have hflushed : Beside c (c.updateChannel id fun ch => { ch with unflushed := false }) :=
      .update c id fun ch _ => .of_eq rfl rfl rfl rfl rfl rfl rfl
    exact hflushed.path.beside (.flush _)
  | weightCached weight _ _ _ =>
    exact RegistryStep.path (.beside (.update c _ fun ch _ => .of_eq rfl rfl rfl rfl rfl rfl rfl))
  | weightSent id stream weight => exact registryPath_sendPriority c id stream weight
  | closed id kind => exact (RegistryStep.closed c id kind).path
  | inflightLost hk => exact RegistryStep.path (.beside { Beside.refl c with })
  | channelLost id hk => exact registryPath_loseChannel c id
  | cleared hk hnone =>
    have hcleared : RegistryStep strict c { c with
        registry := c.registry.clear, batch := c.batch.clear, reading := false } := .cleared c hnone
    apply hcleared.path.beside
    exact { Beside.refl { c with
        registry := c.registry.clear, batch := c.batch.clear, reading := false } with
      journal := (Journal.Apart.refl _).push rfl }
  | recovered id _ => exact (beside_recoverChannel c id).path
  | @timerFired now t timers hpop =>
    have hpopped : Beside c { c with timers := timers } := { Beside.refl c with }
    exact hpopped.path.trans (registryPath_fireTimer _ t)
  | taskRun h => exact registryPath_runTask h

/-! ## Calls -/

theorem beside_countBytes (c : Connection) (h : c.channels.get? id = some ch) (size : Nat) :
    Beside c (c.countBytes id ch size) := by
  obtain ⟨tasks, heq, htasks⟩ := countBytes_eq c id ch size
  rw [heq]
  exact { Beside.refl c with
    channels := .insert .refl h (.of_eq rfl rfl rfl rfl rfl rfl rfl)
    tasks := mem_of_reported htasks }

theorem beside_enterWrite {payload : Bytes} {ticket : Ticket} {call : WireCall}
    {fault : Option WriteFault}
    (hsub : (c.enterWrite id payload ticket).submit (some id) call = (fault, c')) :
    Beside c c' := by
  rw [← (Prod.mk.inj hsub).2]
  exact { Beside.refl c with journal := (Journal.Apart.refl _).push rfl }

theorem registryPath_callStep {s t : Stage} (h : CallStep strict k s t) :
    RegistryPath strict s.conn t.conn := by
  cases h with
  | change ws h => exact registryPath_change h
  | @takenUp c id ch payload hk _ h ho hout =>
    have hissued : Beside c (c.issue .held).2 := { Beside.refl c with }
    exact hissued.path.beside (beside_countBytes (c.issue .held).2 h _)
  | parked h ho hp hpush =>
    exact RegistryStep.path (.beside (.update _ _ fun ch _ => .of_eq rfl rfl rfl rfl rfl rfl rfl))
  | @unparked c id ch subprotocol compression h hs =>
    have hmarked : Beside c (c.updateChannel id fun ch => { ch with
        handshake := .complete, subprotocol := subprotocol, compression := compression,
        parked := ch.parked.take.2 }) :=
      .update c id fun ch _ => ⟨rfl, rfl, rfl, rfl, rfl, rfl, rfl, rfl, .inl rfl, nofun, nofun⟩
    exact hmarked.path.beside { Beside.refl _ with }
  | sent h ho hp hs hsub =>
    exact (beside_enterWrite hsub).path.beside
      (.update _ _ fun ch _ => .of_eq rfl rfl rfl rfl rfl rfl rfl)
  | bounced h ho hp hs hsub =>
    exact ((beside_enterWrite hsub).path.beside (beside_settleWrite ..)).trans
      (registryPath_writeFailed ..)
  | dropped h => exact RegistryStep.path (.beside { Beside.refl _ with })

theorem registryPath_callPath {s t : Stage} (h : CallPath strict k s t) :
    RegistryPath strict s.conn t.conn :=
  CallPath.induction (P := fun u => RegistryPath strict s.conn u.conn)
    (fun _ _ hm hs => hs.trans (registryPath_callStep hm)) h (.refl _)

/-- A run is made of registry steps. -/
theorem registryPath_run (c : Connection) (ks : List Call) (ho : strict → c.CarefulRun ks) :
    RegistryPath strict c (c.run ks) := by
  induction ks generalizing c with
  | nil => exact .refl c
  | cons k ks ih =>
    exact (registryPath_callPath (callPath_after c k fun hs => (ho hs).1)).trans
      (ih _ fun hs => (ho hs).2)

end Connection

end ChannelMux
