import ChannelMux.Proofs.Dispatch

/-!
# Lives: how channels come, are closed and go

What the application learns of a channel depends on where the channel is in its life, and reports
are made in many places.  Here a call is cut into `LifeStep`s.  A channel comes, is closed or goes
in steps of their own; between them (`Along`) nobody does, and whoever is told something is there
and, once closed, learns no more than whether it is writable.

One step is an exception.  That a conversation was accepted is reported after the parked writes were
sent, and one of these may have been refused, which closes the channel.
-/

namespace ChannelMux

namespace Happening

/-- What a channel may be told between its first report and its last. -/
def isOrdinary : Happening → Bool
  | read _ | readComplete | writability _ | remoteClosed _ | goAway .. | priorityApplied _ => true
  | peerPriority _ | handshakeCompleted .. | failed _ => true
  | opened .. | inactive | unregistered => false

/-- What a channel may be told when it is closed. -/
def isQuiet : Happening → Bool
  | writability _ | inactive | unregistered => true
  | opened .. | read _ | readComplete | remoteClosed _ | goAway .. | priorityApplied _ => false
  | peerPriority _ | handshakeCompleted .. | failed _ => false

theorem isOrdinary_of_isNotice {what : Happening} (h : what.isNotice = true) :
    what.isOrdinary = true := by
  cases what <;> first | rfl | cases h

end Happening

/-- The second channel is closed if and only if the first is. -/
structure Channel.Abides (ch ch' : Channel) : Prop where
  closed : ch'.closed = ch.closed

namespace Connection

variable {k : Cause} {c c' d : Connection} {id : ChannelId} {ch ch' : Channel} {what : Happening}

/-! ## Life steps -/

/-- The channel is there and may be told this. -/
def Hears (c : Connection) (id : ChannelId) (what : Happening) : Prop :=
  ∃ ch, c.channels.get? id = some ch ∧ (ch.closed = true → what.isQuiet = true)

/-- An entry that neither opens nor ends a life, and is heard by the channel of which it tells. -/
def Utters (c : Connection) : Entry → Prop
  | .event e => e.what.isOrdinary = true ∧ c.Hears e.channel e.what
  | .closed _ => False
  | .wire .. | .delivered .. => True

/-- Nobody comes, is closed or goes. -/
structure Along (c d : Connection) : Prop where
  nextChannel : c.nextChannel ≤ d.nextChannel
  channels : c.channels.Matches Channel.Abides d.channels
  tasks : ∀ id, d.tasks.count (.tearDown id) = c.tasks.count (.tearDown id)
  opened : d.stats.opened = c.stats.opened
  accepted : d.stats.accepted = c.stats.accepted
  closed : d.stats.closed = c.stats.closed
  journal : c.journal.Extends c.Utters d.journal

/-- One thing that is done to the life of a channel, or anything else. -/
inductive LifeStep (k : Cause) : Connection → Connection → Prop
  | along {c d : Connection} : Along c d → LifeStep k c d
  | asked (c : Connection) (path : String) (subprotocol : Option String) :
      LifeStep k c (c.addAsking path subprotocol).2
  | admitted (c : Connection) (stream : StreamId) (path : String) (subprotocol : Option String)
      (compression : Option Deflate.Terms) (block : HeaderBlock) :
      LifeStep k c { c.enrol stream path subprotocol compression with
        journal := ((c.journal.push
          (.wire (some c.nextChannel) ⟨.headers stream block false, none⟩)).push
            (.wire none ⟨.flush, none⟩)).push
              (.event ⟨c.nextChannel, .opened stream path subprotocol⟩)
        stats := { c.stats with accepted := c.stats.accepted + 1 } }
  /-- The conversation of a channel was accepted, whatever has become of the channel since. -/
  | confirmed {c : Connection} {id : ChannelId} {ch : Channel}
      {subprotocol extensions : Option String} :
      c.channels.get? id = some ch → (∃ stream, k.conn.Answers k.call id stream) →
      c.emit id (.handshakeCompleted subprotocol extensions) = k.conn.after k.call →
      LifeStep k c (c.emit id (.handshakeCompleted subprotocol extensions))
  | closed {c : Connection} {id : ChannelId} {ch : Channel} (kind : CloseKind) :
      c.channels.get? id = some ch → ch.closed = false → LifeStep k c (c.close id kind)
  | tornDown {c : Connection} {id : ChannelId} {tasks : List Task} :
      c.tasks = .tearDown id :: tasks →
      LifeStep k c ({ c with tasks := tasks }.runTask (.tearDown id))

/-- Life steps of a call one after another. -/
def LifePath (k : Cause) : Connection → Connection → Prop := Relation.ReflTransGen (LifeStep k)

/-! ## Nobody comes, is closed or goes -/

namespace Along

theorem refl (c : Connection) : Along c c :=
  ⟨Nat.le_refl _, .refl (fun _ => ⟨rfl⟩) _, fun _ => rfl, rfl, rfl, rfl, .refl _⟩

theorem hears (h : Along c d) (hd : d.Hears id what) : c.Hears id what := by
  obtain ⟨ch', hch', hquiet⟩ := hd
  obtain ⟨ch, hch, habides⟩ := h.channels.back hch'
  exact ⟨ch, hch, fun hc => hquiet (habides.closed.trans hc)⟩

theorem utters (h : Along c d) {e : Entry} (he : d.Utters e) : c.Utters e := by
  cases e with
  | event e => exact ⟨he.1, h.hears he.2⟩
  | closed id => exact he
  | wire | delivered => trivial

theorem trans (h : Along c c') (h' : Along c' d) : Along c d where
  nextChannel := Nat.le_trans h.nextChannel h'.nextChannel
  channels := .trans (fun _ _ _ hab hbc => ⟨hbc.closed.trans hab.closed⟩) h.channels h'.channels
  tasks id := (h'.tasks id).trans (h.tasks id)
  opened := h'.opened.trans h.opened
  accepted := h'.accepted.trans h.accepted
  closed := h'.closed.trans h.closed
  journal := h.journal.trans (h'.journal.mono fun _ => h.utters)

theorem note (c : Connection) {e : Entry} (he : c.Utters e) : Along c (c.note e) :=
  { refl c with journal := Journal.extends_push _ he }

theorem wire (c : Connection) (owner : Option ChannelId) (e : WireEntry) :
    Along c (c.note (.wire owner e)) := note c trivial

theorem flush (c : Connection) : Along c c.flush := wire c none _

/-- An open channel may be told anything ordinary. -/
theorem emit (h : c.channels.get? id = some ch) (ho : ch.closed = false)
    (hwhat : what.isOrdinary = true) : Along c (c.emit id what) :=
  note c ⟨hwhat, ch, h, fun hclosed => absurd (ho.symm.trans hclosed) (by decide)⟩

theorem insert (h : c.channels.get? id = some ch) (ch' : Channel)
    (hclosed : ch'.closed = ch.closed) :
    Along c { c with channels := c.channels.insert id ch' } :=
  { refl c with channels := .insert (fun _ => ⟨rfl⟩) h ⟨hclosed⟩ }

theorem update (c : Connection) (id : ChannelId) {f : Channel → Channel}
    (hf : ∀ ch : Channel, ch.Abides (f ch)) : Along c (c.updateChannel id f) :=
  { refl c with channels := .modify (fun _ => ⟨rfl⟩) _ _ fun ch _ => hf ch }

/-- The channel has a turn to see. -/
theorem reportIf (h : c.channels.get? id = some ch) (turns : Bool) :
    Along c (c.reportIf id turns) := by
  obtain ⟨tasks, journal, heq, htasks, hturned⟩ := reportIf_eq c id turns
  rw [heq]
  refine { refl c with tasks := ?_, journal := hturned.mono ?_ }
  · intro j
    rcases htasks with rfl | rfl <;> simp
  · rintro _ rfl
    exact ⟨rfl, ch, h, fun _ => rfl⟩

end Along

namespace LifePath

theorem refl (c : Connection) : LifePath k c c := Relation.ReflTransGen.refl

theorem trans (h : LifePath k c c') (h' : LifePath k c' d) : LifePath k c d :=
  Relation.ReflTransGen.trans h h'

theorem tail (h : LifePath k c c') (h' : LifeStep k c' d) : LifePath k c d :=
  Relation.ReflTransGen.tail h h'

theorem along (h : LifePath k c c') (h' : Along c' d) : LifePath k c d := h.tail (.along h')

/-- What every step keeps, every path keeps. -/
theorem induction {P : Connection → Prop} (step : ∀ c d, LifeStep k c d → P c → P d)
    (h : LifePath k c c') (hc : P c) : P c' := by
  induction h with
  | refl => exact hc
  | tail _ hstep ih => exact step _ _ hstep ih

end LifePath

theorem LifeStep.path (h : LifeStep k c d) : LifePath k c d := Relation.ReflTransGen.single h

theorem Along.path (h : Along c d) : LifePath k c d := (LifeStep.along h).path

/-! ## The end of channels -/

theorem lifePath_close (id : ChannelId) (kind : CloseKind) : LifePath k c (c.close id kind) := by
  rcases close_cases c id kind with ⟨-, heq⟩ | ⟨ch, h, ho⟩
  · rw [heq]
    exact .refl c
  · exact (LifeStep.closed kind h ho).path

/-- Something has been noted of an open channel, its parked writes are failed, something is
reported, and it is closed. -/
theorem lifePath_part (h : c.channels.get? id = some ch) (ho : ch.closed = false)
    (f : Channel → Channel) (hf : (f ch).closed = ch.closed) (what : Happening)
    (hwhat : what.isOrdinary = true) (cause : Fault) (kind : CloseKind) :
    LifePath k c ((((c.updateChannel id f).failParked id cause).emit id what).close id kind) := by
  have hupdated := updateChannel_eq h f
  have hch : (c.updateChannel id f).channels.get? id = some (f ch) := by
    rw [hupdated, Table.get?_insert_self]
  rw [failParked_eq hch, hupdated]
  dsimp only
  rw [Table.insert_insert]
  have hinserted : Along c { c with
      channels := c.channels.insert id (f ch).giveUpParked
      ledger := c.ledger.resolveAll (f ch).parkedTickets (.failed cause) } :=
    { Along.insert h (f ch).giveUpParked hf with }
  exact (hinserted.path.along (.emit (Table.get?_insert_self ..) (hf.trans ho) hwhat)).trans
    (lifePath_close id kind)

theorem updateChannel_id (h : c.channels.get? id = some ch) :
    c.updateChannel id (fun ch => ch) = c := by
  rw [updateChannel_eq h, Table.insert_self h]

theorem lifePath_failHandshake (id : ChannelId) (cause : Fault) :
    LifePath k c (c.failHandshake id cause) := by
  rcases failHandshake_cases c id cause with heq | ⟨ch, h, ho⟩
  · rw [heq]
    exact .refl c
  · have hpart : LifePath k c ((((c.updateChannel id fun ch => ch).failParked id cause).emit id
        (.failed cause)).close id .reset) := lifePath_part h ho _ (by rfl) _ rfl cause .reset
    rw [updateChannel_id h] at hpart
    rw [failHandshake, h]
    dsimp only
    rw [ho]
    exact hpart

theorem lifePath_writeFailed (id : ChannelId) : LifePath k c (c.writeFailed id) := by
  rcases writeFailed_cases c id with ⟨-, heq⟩ | ⟨ch, h, -, ⟨kind, heq⟩ | ⟨-, heq⟩⟩
  · rw [heq]
    exact .refl c
  · rw [heq]
    exact lifePath_close id kind
  · rw [heq]
    exact (Along.insert h { ch with outboundClosed := true } rfl).path

theorem lifePath_resetArrived (hr : c.Registered)
    (hs : ∃ s, c.registry.get? s = some (.active id)) (reason : Reason) :
    LifePath k c (c.resetArrived id reason) := by
  obtain ⟨s, hs⟩ := hs
  obtain ⟨ch, h, ho, -⟩ := (hr.active s id).mp hs
  have hpart : LifePath k c ((((c.updateChannel id fun ch =>
      { ch with remoteReset := true }.noteInitiator .theirs).failParked id
        (.streamReset reason)).emit id (.remoteClosed (.reset reason))).close id .remote) :=
    lifePath_part h ho _ (by rfl) _ rfl (.streamReset reason) .remote
  rw [resetArrived, h]
  exact hpart

theorem lifePath_loseChannel (ho : c.isOpen id = true) : LifePath k c (c.loseChannel id) := by
  obtain ⟨ch, h, ho⟩ := isOpen_iff.mp ho
  have hpart : LifePath k c ((((c.updateChannel id fun ch => ch).failParked id
      .connectionClosed).emit id (.remoteClosed .connectionClosed)).close id .remote) :=
    lifePath_part h ho _ (by rfl) _ rfl .connectionClosed .remote
  rwa [updateChannel_id h] at hpart

/-! ## Conversations that begin -/

theorem lifePath_accept (ht : c.Tidy) (stream : StreamId) (path : String)
    (subprotocol : Option String) (compression : Option Deflate.Terms) :
    LifePath k c (c.accept stream path subprotocol compression) := by
  rw [accept_eq]
  generalize (Connect.Response.accepting subprotocol _).toHeaders = block
  split
  next f d heq =>
    obtain ⟨-, rfl⟩ := Prod.mk.inj heq
    -- the channel that was made for the answer is taken out again before anyone hears of it
    have hchannels : (c.enrol stream path subprotocol compression).channels.erase c.nextChannel =
        c.channels := Table.erase_insert ht.get?_nextChannel _
    exact Along.path { Along.refl c with
      nextChannel := Nat.le_succ _
      channels := .of_get?_eq (fun _ => ⟨rfl⟩) fun j => congrArg (fun t => t.get? j) hchannels
      journal := Journal.extends_push _ trivial }
  next d heq =>
    obtain ⟨hfault, rfl⟩ := Prod.mk.inj heq
    rw [hfault]
    exact (LifeStep.admitted c stream path subprotocol compression block).path

/-! ## Reading -/

/-- An item is handed to an open channel, which stays open. -/
theorem along_handOver (h : c.channels.get? id = some ch) (ho : ch.closed = false)
    (stream : StreamId) (item : Inbound) (rest : List Inbound) :
    Along c (c.handOver id stream item rest) ∧
      (c.handOver id stream item rest).isOpen id = true := by
  have hspent {d : Connection} (hd : Along c d) (reports : Bool) : Along c (d.updateChannel id
      fun ch => { ch with
        inbound := rest, budget := ch.budget - 1, endReported := ch.endReported || reports }) :=
    hd.trans (.update d id fun _ => ⟨rfl⟩)
  have hend {d : Connection} (hd : Along c d) :
      Along c (d.emit id (.remoteClosed .endOfStream)) := by
    obtain ⟨ch', h', habides⟩ := hd.channels.forth h
    exact hd.trans (.emit h' (habides.closed.trans ho) rfl)
  have hopen {d : Connection} (hd : Along c d) : d.isOpen id = true := by
    obtain ⟨ch', h', habides⟩ := hd.channels.forth h
    exact isOpen_iff.mpr ⟨ch', h', habides.closed.trans ho⟩
  suffices hall : Along c (c.handOver id stream item rest) from ⟨hall, hopen hall⟩
  have hnoted : Along c (c.note (.delivered id item)) := .note c trivial
  cases item with
  | data payload endStream =>
    have htold : Along c ((((c.note (.delivered id (.data payload endStream))).emit id
        (.read payload)).tell (some id) (.consume stream payload.length))) :=
      (hnoted.trans (.emit h ho rfl)).trans (.wire _ _ _)
    rw [handOver]
    split
    · exact hend (hspent htold _)
    · exact hspent htold _
  | trailers =>
    rw [handOver]
    split
    · exact hend (hspent hnoted _)
    · exact hspent hnoted _

theorem along_flushChannel (c : Connection) (id : ChannelId) : Along c (c.flushChannel id) :=
  have hflushed : Along c (c.updateChannel id fun ch => { ch with unflushed := false }) :=
    .update c id fun _ => ⟨rfl⟩
  hflushed.trans (.flush _)

theorem lifePath_settle (id : ChannelId) : LifePath k c (c.settle id) := by
  rw [settle]
  split
  · exact .refl c
  · split
    · exact lifePath_close id .remote
    · split
      · exact (along_flushChannel c id).path
      · exact .refl c

theorem lifePath_deliverItems (ho : c.isOpen id = true) (stream : StreamId) (budget : Nat)
    (items : List Inbound) : LifePath k c (deliverItems id stream budget items c).2 := by
  induction items generalizing c budget with
  | nil => exact lifePath_settle id
  | cons item rest ih =>
    obtain ⟨ch, h, hch⟩ := isOpen_iff.mp ho
    obtain ⟨hfirst, hopen⟩ := along_handOver h hch stream item rest
    rw [deliverItems]
    dsimp only
    split
    · exact hfirst.path
    · exact hfirst.path.trans (ih hopen _)

theorem lifePath_readStep (h : ReadStep c d) : LifePath k c d := by
  cases h with
  | requested id =>
    refine (Along.update c id fun ch => ?_).path
    exact ⟨(alike_requestRead ch _).closed⟩
  | automated id on => exact Along.path (.update c id fun _ => ⟨rfl⟩)
  | delivered id =>
    rw [deliver]
    split
    · exact .refl c
    next ch h =>
      split
      · exact .refl c
      next hready =>
        rw [not_or] at hready
        exact lifePath_deliverItems (isOpen_iff.mpr ⟨ch, h, Bool.not_eq_true _ ▸ hready.1⟩) ..
  | completed id ho =>
    obtain ⟨ch, h, ho⟩ := isOpen_iff.mp ho
    rw [fireReadComplete_eq h]
    have hfinished : Along c { c with
        channels := c.channels.insert id (ch.finishRead c.config.messagesPerRead) } :=
      .insert h _ rfl
    exact hfinished.path.along (.emit (Table.get?_insert_self ..) ho rfl)
  | @queued id batch _ =>
    have hbatch : Along c { c with batch := batch } := { Along.refl c with }
    exact hbatch.path.along (.update _ id fun _ => ⟨rfl⟩)
  | drainBegun | drainFinished | cycleEnded => exact Along.path { Along.refl c with }
  | swept =>
    have hswept : Along c { c with channels := c.channels.mapEntries fun _ => flushed } :=
      { Along.refl c with channels := .mapEntries _ fun _ _ => ⟨rfl⟩ }
    exact hswept.path.along (.flush _)

theorem lifePath_readPath (h : ReadPath c d) : LifePath k c d := by
  induction h with
  | refl => exact .refl c
  | tail _ hstep ih => exact ih.trans (lifePath_readStep hstep)

/-! ## Writing -/

theorem along_sendPriority (ho : c.isOpen id = true) (stream : StreamId) (weight : Nat) :
    Along c (c.sendPriority id stream weight).2 := by
  obtain ⟨ch, h, ho⟩ := isOpen_iff.mp ho
  have hsent : Along c (c.submit (some id) (.priority stream (.ofWeight weight))).2 := .wire c _ _
  have hch : (c.submit (some id) (.priority stream (.ofWeight weight))).2.channels.get? id =
      some ch := h
  rw [sendPriority]
  split
  next heq => rw [heq] at hsent; exact hsent
  next heq =>
    rw [heq] at hsent hch
    exact hsent.trans (.emit hch ho rfl)

theorem along_settleWrite (c : Connection) (write : WriteId) (w : Inflight)
    (fault : Option WriteFault) : Along c (c.settleWrite write w fault) := by
  cases h : c.channels.get? w.channel with
  | none => rw [settleWrite_of_none write h]; exact { Along.refl c with }
  | some ch =>
    rw [settleWrite_exact write h]
    have hcounted : Along c { c with
        inflight := c.inflight.erase write
        channels := c.channels.insert w.channel
          (ch.subPending w.size c.config.lowWatermark c.isWritable).1
        ledger := c.ledger.resolve w.ticket (.ofReport fault) } :=
      { Along.insert h (ch.subPending w.size c.config.lowWatermark c.isWritable).1 rfl with }
    exact hcounted.trans (.reportIf (Table.get?_insert_self ..) _)

theorem along_recoverChannel (c : Connection) (id : ChannelId) :
    Along c (c.recoverChannel id) := by
  cases h : c.channels.get? id with
  | none => rw [recoverChannel_of_none h]; exact .refl c
  | some ch =>
    rw [recoverChannel_exact h]
    exact (Along.insert h (ch.recover c.config.lowWatermark).1 rfl).trans
      (.reportIf (Table.get?_insert_self ..) _)

theorem along_countBytes (h : c.channels.get? id = some ch) (size : Nat) :
    Along c (c.countBytes id ch size) := by
  obtain ⟨tasks, heq, htasks⟩ := countBytes_eq c id ch size
  rw [heq]
  refine { Along.insert h (ch.addPending size c.config.highWatermark).1 rfl with
    tasks := fun j => ?_ }
  rcases htasks with rfl | rfl <;> simp

theorem along_submitData (c : Connection) (id : ChannelId) (stream : StreamId) (payload : Bytes)
    (ticket : Ticket) : Along c ((c.enterWrite id payload ticket).submit (some id)
      (.data c.nextWrite stream payload false)).2 :=
  { Along.refl c with journal := Journal.extends_push _ trivial }

/-! ## Upkeep -/

theorem lifePath_fireTimer (timers : Timers) (t : Timer) :
    LifePath k c ({ c with timers := timers }.fireTimer t) := by
  have hfired : Along c { c with timers := timers } := { Along.refl c with }
  cases t with
  | registryRemoval stream => exact Along.path { Along.refl c with }
  | handshakeTimeout id =>
    rw [fireTimer]
    split
    · exact hfired.path.trans (lifePath_failHandshake id _)
    · exact hfired.path

theorem lifePath_runTask {t : Task} {tasks : List Task} (h : c.tasks = t :: tasks) :
    LifePath k c ({ c with tasks := tasks }.runTask t) := by
  cases t with
  | reportWritability id on =>
    have hnext : Along c { c with tasks := tasks } :=
      { Along.refl c with tasks := fun j => by rw [h]; simp }
    rw [runTask]
    split
    next hthere =>
      obtain ⟨ch, hch⟩ := Option.isSome_iff_exists.mp hthere
      exact hnext.path.along (.note _ ⟨rfl, ch, hch, fun _ => rfl⟩)
    · exact hnext.path
  | tearDown id => exact (LifeStep.tornDown h).path

/-! ## Calls -/

/-- Every change is made of life steps. -/
theorem lifePath_change (ht : c.Tidy) (hr : c.Registered) (h : Change True k c d) :
    LifePath k c d := by
  cases h with
  | around encoder journal ledger clock hentries _ _ _ _ _ =>
    exact Along.path { Along.refl c with journal := .of_eq hentries }
  | cycleBegun => exact Along.path { Along.refl c with }
  | settingsNoted s =>
    rw [noteSettings]
    dsimp only
    split <;> exact Along.path { Along.refl c with }
  | endNoted last reason => exact Along.path { Along.refl c with }
  | forwarded f =>
    exact Along.path { Along.refl c with journal := Journal.extends_push _ trivial }
  | discarded frames bytes => exact Along.path { Along.refl c with }
  | resetArrived id reason hs => exact lifePath_resetArrived hr hs reason
  | noticed id what hnotice htold =>
    have hwhat := Happening.isOrdinary_of_isNotice hnotice
    cases htold with
    | opened ho =>
      obtain ⟨ch, h, ho⟩ := isOpen_iff.mp ho
      exact (Along.emit h ho hwhat).path
    | registered hs =>
      obtain ⟨s, hs⟩ := hs
      obtain ⟨ch, h, ho, -⟩ := (hr.active s id).mp hs
      exact (Along.emit h ho hwhat).path
    | completed h hanswers hafter => exact (LifeStep.confirmed h hanswers hafter).path
  | flushed => exact (Along.flush c).path
  | asked path subprotocol => exact (LifeStep.asked c path subprotocol).path
  | @unreserved _ id ch f h ho ha hres _ =>
    obtain ⟨stream, rfl⟩ := reserve_eq_of_error hres
    exact (Along.wire c _ _).path.trans (lifePath_failHandshake id (.write f))
  | @requested c₁ c₂ id ch stream h ho _ hres _ hsub _ =>
    rw [updateChannel_eq (get?_assigned h hres hsub), assigned_eq h hres hsub]
    dsimp only
    rw [Table.insert_insert]
    exact Along.path { Along.insert (c := c) h { ch with
        stream := stream, cachedWeight := none, handshake := .requestSent } rfl with
      journal := (Journal.extends_push _ trivial).push trivial }
  | @requestRefused c₁ c₂ id ch stream f h ho _ hres _ hsub _ =>
    generalize ((c₁.assignStream id stream).requestFor ch).toHeaders = block at hsub
    obtain rfl := assigned_eq h hres hsub
    have hassigned : Along c { c with
        channels := c.channels.insert id { ch with stream := stream, cachedWeight := none }
        registry := c.registry.insert stream id
        journal := (c.journal.push (.wire (some id) ⟨.reserve stream, none⟩)).push
          (.wire (some id) ⟨.headers stream block false, some f⟩) } :=
      { Along.insert h { ch with stream := stream, cachedWeight := none } rfl with
        journal := (Journal.extends_push _ trivial).push trivial }
    exact hassigned.path.trans (lifePath_failHandshake id (.write f))
  | handshakeFailed id cause => exact lifePath_failHandshake id cause
  | refused stream status _ => exact (Along.wire c _ _).path.along (.flush _)
  | answered path subprotocol compression => exact lifePath_accept ht ..
  | received item h =>
    exact (Along.insert h _ (alike_receive _ item).closed).path.trans
      (lifePath_readPath (readPath_receive ..))
  | cycleEnded => exact lifePath_readPath (readPath_readCycleEnded c)
  | readBegun id => exact lifePath_readPath (readPath_beginRead c id)
  | autoReadSet id on => exact lifePath_readPath (readPath_setAutoRead c id on)
  | issued o => exact Along.path { Along.refl c with }
  | writeSettled fault => exact (along_settleWrite c _ _ fault).path
  | writeFailed id => exact lifePath_writeFailed id
  | channelFlushed id => exact (along_flushChannel c id).path
  | weightCached weight => exact Along.path (.update c _ fun _ => ⟨rfl⟩)
  | weightSent id stream weight ho => exact (along_sendPriority ho stream weight).path
  | closed id kind => exact lifePath_close id kind
  | inflightLost => exact Along.path { Along.refl c with }
  | channelLost id _ ho => exact lifePath_loseChannel ho
  | cleared =>
    exact Along.path { Along.refl c with journal := Journal.extends_push _ trivial }
  | recovered id => exact (along_recoverChannel c id).path
  | @timerFired now t timers _ _ => exact lifePath_fireTimer timers t
  | taskRun h _ => exact lifePath_runTask h

/-- Every step of a call is made of life steps. -/
theorem lifePath_callStep {s t : Stage} (ht : s.conn.Tidy) (hr : s.conn.Registered)
    (h : CallStep True k s t) : LifePath k s.conn t.conn := by
  cases h with
  | change ws h => exact lifePath_change ht hr h
  | @takenUp c id ch payload _ _ h =>
    have hissued : Along c (c.issue .held).2 := { Along.refl c with }
    exact hissued.path.along (along_countBytes (c := (c.issue .held).2) h _)
  | parked => exact Along.path (.update _ _ fun _ => ⟨rfl⟩)
  | @unparked c id ch subprotocol compression h =>
    exact Along.path { Along.refl c with
      channels := .modify (fun _ => ⟨rfl⟩) _ _ fun _ _ => ⟨rfl⟩ }
  | @sent c c' w ws ch stream h ho hp hs hsub =>
    obtain ⟨-, rfl⟩ := Prod.mk.inj hsub
    have hsent := along_submitData c w.channel stream w.payload w.ticket
    exact hsent.path.along (.update _ _ fun _ => ⟨rfl⟩)
  | @bounced c c' w ws ch stream f h ho hp hs hsub =>
    obtain ⟨-, rfl⟩ := Prod.mk.inj hsub
    have hsent := along_submitData c w.channel stream w.payload w.ticket
    exact (hsent.path.along (along_settleWrite ..)).trans (lifePath_writeFailed _)
  | dropped => exact Along.path { Along.refl _ with }

/-- Every call is made of life steps. -/
theorem lifePath_after (ht : c.Tidy) (hr : c.Registered) {call : Call} (ho : c.Careful call) :
    LifePath ⟨c, call⟩ c (c.after call) := by
  have hall := CallPath.induction
    (P := fun s => (s.conn.Tidy ∧ s.conn.Registered) ∧ LifePath ⟨c, call⟩ c s.conn) ?_
    (callPath_after c call fun _ : True => ho) ⟨⟨ht, hr⟩, .refl c⟩
  · exact hall.2
  · rintro s t hm ⟨⟨ht, hr⟩, hpath⟩
    -- the next step is cut into life steps with the help of both, so they go along
    have hkept : t.conn.Tidy ∧ t.conn.Registered := (registryPath_callStep hm).induction
      (P := fun d => d.Tidy ∧ d.Registered)
      (fun _ _ hs hd => ⟨hd.1.registryStep hs, hd.2.registryStep hd.1 hs⟩) ⟨ht, hr⟩
    exact ⟨hkept, hpath.trans (lifePath_callStep ht hr hm)⟩

end Connection

end ChannelMux
