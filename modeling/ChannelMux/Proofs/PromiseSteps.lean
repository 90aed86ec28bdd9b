import ChannelMux.Proofs.Tidy

/-!
# Promise steps: what changes do to writes

Most changes concern neither promises nor the writes that wait.  `Aside` says that nothing of that
kind has changed, and a `PromiseStep` is one of the few steps that do change it.  Every change is
made of promise steps (`promisePath_change`); what happens to loose writes is left to the steps of
the call.
-/

namespace ChannelMux

/-- The second channel has parked the same writes, and they wait for the same thing. -/
structure Channel.Even (ch ch' : Channel) : Prop where
  closed : ch'.closed = ch.closed
  pending : ch'.handshake.isPending = ch.handshake.isPending
  parked : ch'.parked = ch.parked

namespace Channel.Even

theorem refl (ch : Channel) : ch.Even ch := ⟨rfl, rfl, rfl⟩

theorem of_alike {ch ch' : Channel} (h : ch.Alike ch') : ch.Even ch' :=
  ⟨h.closed, congrArg Handshake.isPending h.handshake, h.parked⟩

end Channel.Even

namespace Connection

variable {strict : Prop} {k : Cause} {c c' d : Connection} {id : ChannelId} {ch ch' : Channel}

/-- What has changed concerns no write. -/
structure Aside (c c' : Connection) : Prop where
  promises : ∀ t, c'.ledger.promise? t = c.ledger.promise? t
  issued : c'.ledger.next = c.ledger.next
  inflight : c'.inflight = c.inflight
  nextWrite : c.nextWrite ≤ c'.nextWrite
  nextChannel : c.nextChannel ≤ c'.nextChannel
  channels : c.channels.Matches Channel.Even c'.channels

namespace Aside

theorem refl (c : Connection) : Aside c c :=
  ⟨fun _ => rfl, rfl, rfl, Nat.le_refl _, Nat.le_refl _, .refl .refl _⟩

theorem trans (h : Aside c c') (h' : Aside c' d) : Aside c d where
  promises t := (h'.promises t).trans (h.promises t)
  issued := h'.issued.trans h.issued
  inflight := h'.inflight.trans h.inflight
  nextWrite := Nat.le_trans h.nextWrite h'.nextWrite
  nextChannel := Nat.le_trans h.nextChannel h'.nextChannel
  channels := .trans (fun _ _ _ hab hbc => ⟨hbc.closed.trans hab.closed,
    hbc.pending.trans hab.pending, hbc.parked.trans hab.parked⟩) h.channels h'.channels

theorem of_quiet (h : Quiet c c') : Aside c c' where
  promises t := by rw [h.ledger]
  issued := by rw [h.ledger]
  inflight := h.inflight
  nextWrite := Nat.le_of_eq h.nextWrite.symm
  nextChannel := Nat.le_of_eq h.nextChannel.symm
  channels := h.channels.mono fun _ _ halike => .of_alike halike

theorem emit (c : Connection) (id : ChannelId) (what : Happening) : Aside c (c.emit id what) :=
  { refl c with }

theorem submit (c : Connection) (owner : Option ChannelId) (call : WireCall) :
    Aside c (c.submit owner call).2 := { refl c with }

theorem of_submit {owner : Option ChannelId} {call : WireCall} {fault : Option WriteFault}
    (h : c.submit owner call = (fault, c')) : Aside c c' := by
  rw [← (Prod.mk.inj h).2]
  exact submit c owner call

theorem flush (c : Connection) : Aside c c.flush := { refl c with }

theorem update (c : Connection) (id : ChannelId) {f : Channel → Channel}
    (hf : ∀ ch, c.channels.get? id = some ch → ch.Even (f ch)) : Aside c (c.updateChannel id f) :=
  { refl c with channels := .modify .refl _ _ hf }

theorem insert (h : c.channels.get? id = some ch) (heven : ch.Even ch') :
    Aside c { c with channels := c.channels.insert id ch' } :=
  { refl c with channels := .insert .refl h heven }

theorem reserve (c : Connection) (id : ChannelId) : Aside c (c.reserve id).2 := by
  have hfirst := submit c (some id) (.reserve (c.encoder.nextStream c.journal.wire))
  rw [Connection.reserve]
  split
  next heq => rw [heq] at hfirst; exact hfirst
  next heq => rw [heq] at hfirst; exact hfirst

theorem assignStream (c : Connection) (id : ChannelId) (stream : StreamId) :
    Aside c (c.assignStream id stream) :=
  { update c id (f := fun ch => { ch with stream := stream, cachedWeight := none })
      fun _ _ => ⟨rfl, rfl, rfl⟩ with }

theorem sendPriority (c : Connection) (id : ChannelId) (stream : StreamId) (weight : Nat) :
    Aside c (c.sendPriority id stream weight).2 := by
  have hfirst := submit c (some id) (.priority stream (.ofWeight weight))
  rw [Connection.sendPriority]
  split
  next heq => rw [heq] at hfirst; exact hfirst
  next heq => rw [heq] at hfirst; exact hfirst.trans (.emit ..)

theorem recoverChannel (c : Connection) (id : ChannelId) : Aside c (c.recoverChannel id) := by
  cases h : c.channels.get? id with
  | none => rw [recoverChannel_of_none h]; exact refl c
  | some ch =>
    obtain ⟨_, _, heq, -⟩ := recoverChannel_eq h
    rw [heq]
    exact { refl c with channels := .insert .refl h ⟨rfl, rfl, rfl⟩ }

theorem countBytes (h : c.channels.get? id = some ch) (size : Nat) :
    Aside c (c.countBytes id ch size) := by
  obtain ⟨_, heq, -⟩ := countBytes_eq c id ch size
  rw [heq]
  exact { refl c with channels := .insert .refl h ⟨rfl, rfl, rfl⟩ }

end Aside

/-- What is left to do once the fate of a write is known is to count its bytes off. -/
theorem aside_settleWrite (c : Connection) (write : WriteId) (w : Inflight)
    (fault : Option WriteFault) :
    Aside { c with
        inflight := c.inflight.erase write
        ledger := c.ledger.resolve w.ticket (.ofReport fault) } (c.settleWrite write w fault) := by
  cases h : c.channels.get? w.channel with
  | none => rw [settleWrite_of_none write h]; exact .refl _
  | some ch =>
    obtain ⟨_, _, heq, -⟩ := settleWrite_eq write h fault
    rw [heq]
    exact { Aside.refl { c with
        inflight := c.inflight.erase write
        ledger := c.ledger.resolve w.ticket (.ofReport fault) } with
      channels := .insert .refl h ⟨rfl, rfl, rfl⟩ }

/-- A step that a connection can make, as far as its writes are concerned. -/
inductive PromiseStep (k : Cause) : Connection → Connection → Prop
  | aside {c c' : Connection} : Aside c c' → PromiseStep k c c'
  | made (c : Connection) (ch : Channel) :
      c.channels.get? c.nextChannel = none → ch.closed = false → ch.parked = {} →
      PromiseStep k c { c with
        channels := c.channels.insert c.nextChannel ch
        nextChannel := c.nextChannel + 1 }
  | gaveUp (c : Connection) (id : ChannelId) (cause : Fault) :
      PromiseStep k c (c.failParked id cause)
  | closed (c : Connection) (id : ChannelId) (kind : CloseKind) : PromiseStep k c (c.close id kind)
  | tornDown (c : Connection) (id : ChannelId) :
      (∀ ch, c.channels.get? id = some ch → ch.closed = true) →
      PromiseStep k c { c with channels := c.channels.erase id }
  | issued (c : Connection) (o : Outcome) : PromiseStep k c (c.issue (.kept o)).2
  | reported {c : Connection} {write : WriteId} {w : Inflight} (fault : Option WriteFault) :
      k.call = .writeCompleted write fault → c.inflight.get? write = some w →
      PromiseStep k c { c with
        inflight := c.inflight.erase write
        ledger := c.ledger.resolve w.ticket (.ofReport fault) }
  | lost (c : Connection) : k.call = .connectionLost → PromiseStep k c c.loseInflight

def PromisePath (k : Cause) :
    Connection → Connection → Prop := Relation.ReflTransGen (PromiseStep k)

namespace PromisePath

theorem refl (c : Connection) : PromisePath k c c := Relation.ReflTransGen.refl

theorem trans (h : PromisePath k c c') (h' : PromisePath k c' d) : PromisePath k c d :=
  Relation.ReflTransGen.trans h h'

theorem tail (h : PromisePath k c c') (h' : PromiseStep k c' d) : PromisePath k c d :=
  Relation.ReflTransGen.tail h h'

theorem aside (h : PromisePath k c c') (h' : Aside c' d) : PromisePath k c d := h.tail (.aside h')

theorem induction {P : Connection → Prop} (step : ∀ c d, PromiseStep k c d → P c → P d)
    (h : PromisePath k c c') (hc : P c) : P c' := by
  induction h with
  | refl => exact hc
  | tail _ hd ih => exact step _ _ hd ih

end PromisePath

theorem PromiseStep.path (h : PromiseStep k c c') : PromisePath k c c' :=
  (PromisePath.refl c).tail h

theorem Aside.path (h : Aside c c') : PromisePath k c c' := (PromiseStep.aside h).path

/-! ## What closes channels -/

theorem promisePath_readPath (h : ReadPath c c') : PromisePath k c c' :=
  h.induction (P := fun d => PromisePath k c d) (fun _ _ hq hd => hd.aside (.of_quiet hq))
    (fun d id hd => hd.tail (.closed d id .remote)) (.refl c)

theorem promisePath_failChannel (c : Connection) (id : ChannelId) (cause : Fault) :
    PromisePath k c (c.failChannel id cause) := (Aside.emit c id _).path.tail (.closed _ id .reset)

theorem promisePath_failHandshake (c : Connection) (id : ChannelId) (cause : Fault) :
    PromisePath k c (c.failHandshake id cause) := by
  rw [failHandshake]
  split
  · exact .refl c
  · split
    · exact .refl c
    · exact (PromiseStep.gaveUp c id cause).path.trans (promisePath_failChannel _ id cause)

theorem promisePath_loseChannel (c : Connection) (id : ChannelId) :
    PromisePath k c (c.loseChannel id) :=
  ((PromiseStep.gaveUp c id .connectionClosed).path.aside (.emit _ id _)).tail
    (.closed _ id .remote)

theorem promisePath_resetArrived (c : Connection) (id : ChannelId) (reason : Reason) :
    PromisePath k c (c.resetArrived id reason) := by
  rw [resetArrived]
  split
  · exact .refl c
  · have hnoted : Aside c (c.updateChannel id fun ch =>
        { ch with remoteReset := true }.noteInitiator .theirs) :=
      .update c id fun _ _ => ⟨rfl, rfl, rfl⟩
    exact ((hnoted.path.tail (.gaveUp _ id (.streamReset reason))).aside (.emit _ id _)).tail
      (.closed _ id .remote)

theorem promisePath_writeFailed (c : Connection) (id : ChannelId) :
    PromisePath k c (c.writeFailed id) := by
  rw [writeFailed]
  split
  · exact .refl c
  next ch h =>
    split
    · exact .refl c
    · split
      · exact (PromiseStep.closed c id .reset).path
      · have hended : Aside c
            { c with channels := c.channels.insert id { ch with outboundClosed := true } } :=
          .insert h ⟨rfl, rfl, rfl⟩
        dsimp only
        split
        · exact hended.path.tail (.closed _ id .remote)
        · exact hended.path

/-! ## What makes channels -/

theorem promisePath_addAsking (ht : c.Tidy) (path : String) (subprotocol : Option String) :
    PromisePath k c (c.addAsking path subprotocol).2 := by
  rw [addAsking_eq]
  have hmade : PromiseStep k c { c with
      channels := c.channels.insert c.nextChannel
        { c.newChannel path with requested := subprotocol }
      nextChannel := c.nextChannel + 1 } := .made c _ ht.get?_nextChannel rfl rfl
  exact hmade.path.aside { Aside.refl { c with
      channels := c.channels.insert c.nextChannel
        { c.newChannel path with requested := subprotocol }
      nextChannel := c.nextChannel + 1 } with }

theorem promisePath_accept (ht : c.Tidy) (stream : StreamId) (path : String)
    (subprotocol : Option String) (compression : Option Deflate.Terms) :
    PromisePath k c (c.accept stream path subprotocol compression) := by
  rw [accept_eq]
  split
  next f d heq =>
    have hd : d = { c.enrol stream path subprotocol compression with journal := d.journal } := by
      rw [← (Prod.mk.inj heq).2]; rfl
    have hchannels : d.channels.erase c.nextChannel = c.channels := by
      rw [hd]; exact Table.erase_insert ht.get?_nextChannel _
    rw [hchannels, hd]
    exact Aside.path { Aside.refl c with nextChannel := Nat.le_succ _ }
  next d heq =>
    have hsent : Aside (c.enrol stream path subprotocol compression) d := .of_submit heq
    have hmade : PromiseStep k c { c with
        channels := c.channels.insert c.nextChannel
          (c.enrolledChannel stream path subprotocol compression)
        nextChannel := c.nextChannel + 1 } := .made c _ ht.get?_nextChannel rfl rfl
    have henrol : Aside _ (c.enrol stream path subprotocol compression) := { Aside.refl { c with
        channels := c.channels.insert c.nextChannel
          (c.enrolledChannel stream path subprotocol compression)
        nextChannel := c.nextChannel + 1 } with }
    exact ((hmade.path.aside henrol).aside hsent).aside { Aside.refl d with }

/-! ## Changes -/

section

variable {c₁ c₂ : Connection} {stream : StreamId} {call : WireCall} {fault : Option WriteFault}

/-- A stream was reserved for a channel, and something was sent on it. -/
theorem aside_sentOn (hres : c.reserve id = (.ok stream, c₁))
    (hsub : (c₁.assignStream id stream).submit (some id) call = (fault, c₂)) : Aside c c₂ := by
  have hreserved := Aside.reserve c id
  rw [hres] at hreserved
  exact (hreserved.trans (.assignStream ..)).trans (.of_submit hsub)

end

theorem promisePath_runTask (ht : c.Tidy) {t : Task} {tasks : List Task}
    (h : c.tasks = t :: tasks) :
    PromisePath k c ({ c with tasks := tasks }.runTask t) := by
  have hfirst : PromisePath k c { c with tasks := tasks } := Aside.path { Aside.refl c with }
  cases t with
  | reportWritability id writable =>
    rw [runTask]
    split
    · exact hfirst.aside (.emit _ id _)
    · exact hfirst
  | tearDown id =>
    rw [runTask]
    split
    · exact ((hfirst.tail (.tornDown _ id (ht.doomed (h ▸ List.mem_cons_self)).2)).aside
        (.emit _ id .inactive)).aside (.emit _ id .unregistered)
    · exact hfirst

theorem promisePath_fireTimer (c : Connection) (t : Timer) : PromisePath k c (c.fireTimer t) := by
  cases t with
  | registryRemoval stream => exact Aside.path { Aside.refl c with }
  | handshakeTimeout id =>
    rw [fireTimer]
    split
    · exact promisePath_failHandshake c id _
    · exact .refl c

/-- Every change is made of promise steps. -/
theorem promisePath_change (ht : c.Tidy) (h : Change strict k c c') : PromisePath k c c' := by
  cases h with
  | around encoder journal ledger clock _ hpromises hnext =>
    exact Aside.path { Aside.refl c with promises := hpromises, issued := hnext }
  | cycleBegun | endNoted | forwarded | discarded | cleared =>
    exact Aside.path { Aside.refl c with }
  | settingsNoted s =>
    rw [noteSettings]
    dsimp only
    split
    · exact Aside.path { Aside.refl c with }
    · exact Aside.path { Aside.refl c with }
  | resetArrived id reason => exact promisePath_resetArrived c id reason
  | noticed id what _ => exact (Aside.emit c id what).path
  | flushed => exact (Aside.flush c).path
  | asked path subprotocol => exact promisePath_addAsking ht path subprotocol
  | @unreserved _ id _ _ _ _ _ hres =>
    have hreserved := Aside.reserve c id
    rw [hres] at hreserved
    exact hreserved.path.trans (promisePath_failHandshake ..)
  | @requested c₁ c₂ id ch stream h ho ha hres _ hsub =>
    refine (aside_sentOn hres hsub).path.aside (.update _ _ fun e he => ⟨rfl, ?_, rfl⟩)
    obtain rfl := Option.some.inj ((get?_assigned h hres hsub).symm.trans he)
    exact (congrArg Handshake.isPending ha).symm
  | requestRefused _ _ _ hres _ hsub =>
    exact (aside_sentOn hres hsub).path.trans (promisePath_failHandshake ..)
  | handshakeFailed id cause => exact promisePath_failHandshake c id cause
  | refused stream status => exact ((Aside.submit c none _).trans (.flush _)).path
  | answered path subprotocol compression _ _ _ => exact promisePath_accept ht _ path _ _
  | received item h _ _ _ _ =>
    have hqueued : Quiet c _ := .insert h _ (alike_receive _ item) c.journal
    exact (Aside.of_quiet hqueued).path.trans (promisePath_readPath (readPath_receive ..))
  | cycleEnded => exact promisePath_readPath (readPath_readCycleEnded c)
  | readBegun id => exact promisePath_readPath (readPath_beginRead c id)
  | autoReadSet id on => exact promisePath_readPath (readPath_setAutoRead c id on)
  | issued o => exact (PromiseStep.issued c o).path
  | writeSettled fault hk hw =>
    exact (PromiseStep.reported fault (by rw [hk]) hw).path.aside (aside_settleWrite c _ _ fault)
  | writeFailed id => exact promisePath_writeFailed c id
  | channelFlushed id =>
    have hflushed : Aside c (c.updateChannel id fun ch => { ch with unflushed := false }) :=
      .update c id fun _ _ => ⟨rfl, rfl, rfl⟩
    exact hflushed.path.aside (.flush _)
  | weightCached weight _ _ _ =>
    exact Aside.path (.update c _ fun _ _ => ⟨rfl, rfl, rfl⟩)
  | weightSent id stream weight => exact (Aside.sendPriority c id stream weight).path
  | closed id kind => exact (PromiseStep.closed c id kind).path
  | inflightLost hk => exact (PromiseStep.lost c hk).path
  | channelLost id _ => exact promisePath_loseChannel c id
  | recovered id _ => exact (Aside.recoverChannel c id).path
  | @timerFired now t timers _ =>
    have hpopped : Aside c { c with timers := timers } := { Aside.refl c with }
    exact hpopped.path.trans (promisePath_fireTimer _ t)
  | taskRun h => exact promisePath_runTask ht h

end Connection

end ChannelMux
