import ChannelMux.Proofs.Delivery
import ChannelMux.Proofs.FlushedSteps

/-!
# Passages: where the frames go

A frame that arrives is passed on to the next listener, or its bytes stay: they wait in the queue of
an open channel, they are read, or they are dropped and counted as discarded.  Reading moves bytes
out of a queue, closing a channel drops what is left in it, and nothing else that happens moves any;
so the sum of all three changes with the frames that arrive, and with nothing else.
-/

namespace ChannelMux

/-- The payload bytes that a frame brings, other than the reason why the connection ends. -/
def Frame.cargo : Frame → Nat
  | goAway .. => 0
  | f => f.payloadSize

/-- The payload bytes that a call brings. -/
def Call.cargo : Call → Nat
  | frame f => f.cargo
  | _ => 0

/-- The frame that is passed on. -/
def WireEntry.passedOn? (e : WireEntry) : Option Frame :=
  match e.call with
  | .forward f => some f
  | _ => none

namespace Entry

/-- The frame that an entry tells was passed on. -/
def passedOn? (e : Entry) : Option Frame := e.wire?.bind WireEntry.passedOn?

/-- The payload that an entry tells was read. -/
def read? (e : Entry) : Option Bytes := e.event?.bind fun e => e.what.read?

/-- The entry tells neither of a frame passed on nor of bytes read. -/
def IsLevel (e : Entry) : Prop := e.passedOn? = none ∧ e.read? = none

theorem isLevel_of_isAside {e : Entry} (h : e.isAside = true) : e.IsLevel := by
  cases e with
  | wire owner e =>
    obtain ⟨call, fault⟩ := e
    cases call with
    | forward => cases h
    | _ => exact ⟨rfl, rfl⟩
  | event e =>
    obtain ⟨channel, what⟩ := e
    cases what with
    | read => cases h
    | _ => exact ⟨rfl, rfl⟩
  | delivered | closed => exact ⟨rfl, rfl⟩

end Entry

namespace Journal

/-- The frames that were passed on, in their order. -/
def passedOn (j : Journal) : List Frame := j.wire.filterMap WireEntry.passedOn?

/-- The bytes of all payloads that were read. -/
def readBytes (j : Journal) : Nat :=
  ((j.events.filterMap fun e => e.what.read?).map List.length).sum

variable {j j' : Journal}

theorem passedOn_eq (j : Journal) : j.passedOn = j.entries.filterMap Entry.passedOn? := by
  rw [passedOn, wire, List.filterMap_filterMap]
  rfl

theorem readBytes_eq (j : Journal) :
    j.readBytes = ((j.entries.filterMap Entry.read?).map List.length).sum := by
  rw [readBytes, events, List.filterMap_filterMap]
  rfl

@[simp] theorem passedOn_push (j : Journal) (e : Entry) :
    (j.push e).passedOn = j.passedOn ++ e.passedOn?.toList := by
  rw [passedOn_eq, passedOn_eq, entries_push, List.filterMap_append]
  cases h : e.passedOn? <;> simp [h]

@[simp] theorem readBytes_push (j : Journal) (e : Entry) :
    (j.push e).readBytes = j.readBytes + (e.read?.map List.length).getD 0 := by
  rw [readBytes_eq, readBytes_eq, entries_push, List.filterMap_append]
  cases h : e.read? <;> simp [h]

/-- Nothing was passed on or read in the meantime. -/
def Level (j j' : Journal) : Prop := j.Extends Entry.IsLevel j'

namespace Level

theorem passedOn (h : j.Level j') : j'.passedOn = j.passedOn := by
  rw [passedOn_eq, passedOn_eq]
  exact Extends.filterMap_eq h fun _ he => he.1

theorem readBytes (h : j.Level j') : j'.readBytes = j.readBytes := by
  rw [readBytes_eq, readBytes_eq, Extends.filterMap_eq h fun _ he => he.2]

end Level

end Journal

/-- The bytes that wait to be delivered, if the channel is open. -/
def Channel.queuedBytes (ch : Channel) : Nat := if ch.closed then 0 else ch.inboundBytes

namespace Channel

variable {ch ch' : Channel}

theorem queuedBytes_of_open (h : ch.closed = false) : ch.queuedBytes = ch.inboundBytes := by
  rw [queuedBytes, h]
  rfl

theorem queuedBytes_congr (hclosed : ch'.closed = ch.closed) (hinbound : ch'.inbound = ch.inbound) :
    ch'.queuedBytes = ch.queuedBytes := by
  rw [queuedBytes, queuedBytes, inboundBytes, inboundBytes, hclosed, hinbound]

end Channel

namespace Connection

variable {loud : Bool} {c c' d : Connection} {id : ChannelId} {ch ch' : Channel}

/-- The bytes that wait in the queues of open channels. -/
def queuedBytes (c : Connection) : Nat := c.channels.total Channel.queuedBytes

/-- The bytes of the frames that were not passed on, wherever they are. -/
def keptBytes (c : Connection) : Nat :=
  c.journal.readBytes + c.queuedBytes + c.stats.discardedBytes

/-- Nothing is passed on, and no byte is lost or found. -/
structure Retains (c d : Connection) : Prop where
  passedOn : d.journal.passedOn = c.journal.passedOn
  forwarded : d.stats.forwarded = c.stats.forwarded
  kept : d.keptBytes = c.keptBytes

namespace Retains

theorem refl (c : Connection) : Retains c c := ⟨rfl, rfl, rfl⟩

theorem trans (h : Retains c c') (h' : Retains c' d) : Retains c d :=
  ⟨h'.passedOn.trans h.passedOn, h'.forwarded.trans h.forwarded, h'.kept.trans h.kept⟩

theorem of_queued (hjournal : c.journal.Level d.journal) (hqueued : d.queuedBytes = c.queuedBytes)
    (hstats : d.stats = c.stats) : Retains c d :=
  ⟨hjournal.passedOn, congrArg _ hstats, by
    rw [keptBytes, keptBytes, hjournal.readBytes, hqueued, hstats]⟩

/-- Channels keep their queues. -/
theorem of_matches (hjournal : c.journal.Level d.journal)
    (hchannels : c.channels.Matches (fun ch ch' => ch'.queuedBytes = ch.queuedBytes) d.channels)
    (hstats : d.stats = c.stats) : Retains c d :=
  of_queued hjournal (hchannels.total_eq fun _ _ h => h) hstats

theorem note (c : Connection) {e : Entry} (he : e.IsLevel) : Retains c (c.note e) :=
  of_queued (Journal.extends_push _ he) rfl rfl

theorem update (c : Connection) (id : ChannelId) {f : Channel → Channel}
    (hf : ∀ ch : Channel, (f ch).queuedBytes = ch.queuedBytes) :
    Retains c (c.updateChannel id f) :=
  of_matches (.refl _)
    (.modify (R := fun ch ch' => ch'.queuedBytes = ch.queuedBytes) (fun _ => rfl) _ _
      fun ch _ => hf ch) rfl

theorem tells (h : Tells loud c d) : Retains c d := by
  have hlevel : c.journal.Level d.journal :=
    h.journal.mono fun _ he => Entry.isLevel_of_isAside he.aside
  have hqueued : d.queuedBytes = c.queuedBytes :=
    h.channels.total_eq fun _ _ hk => Channel.queuedBytes_congr hk.closed hk.inbound
  refine ⟨hlevel.passedOn, h.forwarded, ?_⟩
  rw [keptBytes, keptBytes, hlevel.readBytes, hqueued, h.discardedBytes]

end Retains

/-- A channel is replaced. -/
theorem queuedBytes_insert (h : c.channels.get? id = some ch) (ch' : Channel) :
    Table.total Channel.queuedBytes (c.channels.insert id ch') + ch.queuedBytes =
      c.queuedBytes + ch'.queuedBytes := by
  have htotal := Table.total_insert Channel.queuedBytes c.channels id ch'
  rwa [Table.share_of_some _ h] at htotal

/-! ## Unflushed steps -/

/-- Closing a channel drops what is left in its queue, and counts it. -/
theorem retains_close (c : Connection) (id : ChannelId) (kind : CloseKind) :
    Retains c (c.close id kind) := by
  rcases close_cases c id kind with ⟨-, heq⟩ | ⟨ch, h, ho⟩
  · rw [heq]
    exact .refl c
  · obtain ⟨_, _, heq, -, -⟩ := close_exact h ho kind
    have hlevel : c.journal.Level (c.close id kind).journal :=
      (aside_close c id kind).mono fun _ => Entry.isLevel_of_isAside
    have hdropped := queuedBytes_insert h (ch.shut kind)
    have hempty : (ch.shut kind).queuedBytes = 0 := rfl
    rw [hempty, Channel.queuedBytes_of_open ho, Nat.add_zero] at hdropped
    refine ⟨hlevel.passedOn, by rw [heq], ?_⟩
    have hqueued : (c.close id kind).queuedBytes + ch.inboundBytes = c.queuedBytes := by
      rw [heq]
      exact hdropped
    have hdiscarded : (c.close id kind).stats.discardedBytes =
        c.stats.discardedBytes + ch.inboundBytes := by
      rw [heq]
    rw [keptBytes, keptBytes, hlevel.readBytes, hdiscarded, ← hqueued]
    omega

theorem retains_unflushedStep (h : UnflushedStep loud c d) : Retains c d := by
  cases h with
  | told h => exact .tells h
  | @made ch path hnew hk =>
    have hempty : ch.queuedBytes = 0 := Channel.queuedBytes_congr hk.closed hk.inbound
    have htotal := Table.total_insert Channel.queuedBytes c.channels c.nextChannel ch
    rw [hempty, Table.share_of_none _ hnew] at htotal
    exact .of_queued (.refl _) htotal rfl
  | closed kind => exact retains_close c _ kind
  | @tornDown id hclosed =>
    have hshare : c.channels.share Channel.queuedBytes id = 0 := by
      cases h : c.channels.get? id with
      | none => exact Table.share_of_none _ h
      | some ch =>
        rw [Table.share_of_some _ h, Channel.queuedBytes, hclosed ch h]
        rfl
    have htotal := Table.total_erase Channel.queuedBytes c.channels id
    rw [hshare] at htotal
    exact .of_queued (.refl _) htotal rfl

theorem retains_unflushedPath (h : UnflushedPath loud c d) : Retains c d :=
  h.induction (fun _ _ hr hc => hc.trans (retains_unflushedStep hr)) (.refl c)

/-! ## Reading -/

/-- An item that is handed over leaves the queue and is read. -/
theorem retains_handOver (h : c.channels.get? id = some ch) (ho : ch.closed = false)
    {item : Inbound} {rest : List Inbound} (hq : ch.inbound = item :: rest) (stream : StreamId) :
    Retains c (c.handOver id stream item rest) := by
  have hjournal : (c.handOver id stream item rest).journal.passedOn = c.journal.passedOn ∧
      (c.handOver id stream item rest).journal.readBytes = c.journal.readBytes + item.size := by
    cases item with
    | data payload endStream =>
      rw [handOver]
      split <;> simp [updateChannel, note, emit, tell, Entry.passedOn?, Entry.read?, Entry.wire?,
        Entry.event?, WireEntry.passedOn?, Happening.read?, Inbound.size]
    | trailers =>
      rw [handOver]
      split <;> simp [updateChannel, note, emit, Entry.passedOn?, Entry.read?, Entry.wire?,
        Entry.event?, Happening.read?, Inbound.size]
  obtain ⟨reported, journal, heq, -⟩ := handOver_eq h hq stream
  have hqueued : (c.handOver id stream item rest).queuedBytes + item.size = c.queuedBytes := by
    have hmoved := queuedBytes_insert h (ch.handed 1 reported)
    have hopen : (ch.handed 1 reported).closed = false := ho
    have hrest : (ch.handed 1 reported).inbound = rest := by
      rw [Channel.handed, hq]
      rfl
    rw [Channel.queuedBytes_of_open ho, Channel.queuedBytes_of_open hopen, inboundBytes_eq,
      inboundBytes_eq, hrest, hq, List.map_cons, List.sum_cons] at hmoved
    rw [heq]
    change Table.total Channel.queuedBytes (c.channels.insert id (ch.handed 1 reported)) + _ = _
    omega
  refine ⟨hjournal.1, by rw [heq]; rfl, ?_⟩
  have hstats : (c.handOver id stream item rest).stats = c.stats := by
    rw [heq]
    rfl
  rw [keptBytes, keptBytes, hjournal.2, hstats, ← hqueued]
  omega

theorem retains_settle (c : Connection) (id : ChannelId) : Retains c (c.settle id) := by
  rw [settle]
  split
  · exact .refl c
  · split
    · exact retains_close c id .remote
    · split
      · have hflushed : Retains c (c.updateChannel id fun ch => { ch with unflushed := false }) :=
          .update c id fun _ => rfl
        exact hflushed.trans (.note _ ⟨rfl, rfl⟩)
      · exact .refl c

theorem retains_deliverItems (stream : StreamId) (budget : Nat) (items : List Inbound)
    (h : c.channels.get? id = some ch) (ho : ch.closed = false) (hq : ch.inbound = items) :
    Retains c (deliverItems id stream budget items c).2 := by
  induction items generalizing c ch budget with
  | nil => exact retains_settle c id
  | cons item rest ih =>
    have hfirst := retains_handOver h ho hq stream
    obtain ⟨reported, journal, heq, -⟩ := handOver_eq h hq stream
    rw [deliverItems]
    dsimp only
    split
    · exact hfirst
    · rw [heq] at hfirst ⊢
      refine hfirst.trans (ih _ (get?_handed ..) ho ?_)
      rw [Channel.handed, hq]
      rfl

theorem retains_deliver (c : Connection) (id : ChannelId) : Retains c (c.deliver id).2 := by
  rw [deliver]
  split
  · exact .refl c
  next ch h =>
    split
    · exact .refl c
    next hready =>
      have ho : ch.closed = false := Bool.not_eq_true _ ▸ (not_or.mp hready).1
      exact retains_deliverItems ch.stream ch.budget ch.inbound h ho rfl

theorem retains_readStep (h : ReadStep c d) : Retains c d := by
  cases h with
  | requested id =>
    refine .update c id fun ch => ?_
    rw [Channel.requestRead]
    split <;> rfl
  | automated id on => exact .update c id fun _ => rfl
  | delivered id => exact retains_deliver c id
  | completed id =>
    rw [fireReadComplete]
    split
    · exact .refl c
    · have hfinished : Retains c (c.updateChannel id (·.finishRead c.config.messagesPerRead)) :=
        .update c id fun _ => rfl
      exact hfinished.trans (.note _ ⟨rfl, rfl⟩)
  | @queued id batch _ =>
    have hbatch : Retains c { c with batch := batch } := .of_queued (.refl _) rfl rfl
    exact hbatch.trans (.update _ id fun _ => rfl)
  | drainBegun | drainFinished | cycleEnded => exact .of_queued (.refl _) rfl rfl
  | swept =>
    exact .of_matches (Journal.extends_push _ ⟨rfl, rfl⟩) (.mapEntries _ fun _ _ => rfl) rfl

theorem retains_readPath (h : ReadPath c d) : Retains c d := by
  induction h with
  | refl => exact .refl c
  | tail _ hstep ih => exact ih.trans (retains_readStep hstep)

theorem retains_onChannel (id : ChannelId) {f : Reply × Connection} (h : Retains c f.2) :
    Retains c (c.onChannel id f).2 := by
  rw [onChannel]
  split
  · exact h
  · exact .refl c

/-! ## Frames -/

/-- The frame that a call passes on, if it passes one on. -/
def passing (c : Connection) : Call → List Frame
  | .frame f => if c.passes f then [f] else []
  | _ => []

/-- The frames that the calls of a run pass on, in their order. -/
def passings : Connection → List Call → List Frame
  | _, [] => []
  | c, k :: ks => c.passing k ++ passings (c.after k) ks

theorem passings_concat (c : Connection) (ks : List Call) (k : Call) :
    passings c (ks ++ [k]) = passings c ks ++ (c.run ks).passing k := by
  induction ks generalizing c with
  | nil => exact List.append_nil _
  | cons j ks ih =>
    rw [List.cons_append, passings, passings, ih, List.append_assoc]
    rfl

theorem passing_of_passes {f : Frame} (h : c.passes f = true) : c.passing (.frame f) = [f] :=
  if_pos h

theorem passing_of_not_passes {f : Frame} (h : c.passes f = false) : c.passing (.frame f) = [] :=
  if_neg (by rw [h]; decide)

/-- A frame that is not passed on does not concern the whole connection, so all its bytes count. -/
theorem cargo_of_not_passes {f : Frame} (h : c.passes f = false) : f.cargo = f.payloadSize := by
  cases f with
  | goAway => cases h
  | _ => rfl

/-- A call passes on what it has to, and counts it. -/
structure PassesOn (c : Connection) (k : Call) (d : Connection) : Prop where
  passedOn : d.journal.passedOn = c.journal.passedOn ++ c.passing k
  forwarded : d.stats.forwarded = c.stats.forwarded + (c.passing k).length

/-- Where the bytes go that a call brings: they are passed on or kept. -/
def Places (c : Connection) (k : Call) (d : Connection) : Prop :=
  d.keptBytes + ((c.passing k).map Frame.cargo).sum = c.keptBytes + k.cargo

theorem Retains.passesOn {k : Call} (h : Retains c d) (hp : c.passing k = []) :
    PassesOn c k d := by
  refine ⟨?_, ?_⟩
  · rw [hp, h.passedOn, List.append_nil]
  · rw [hp, h.forwarded]
    rfl

theorem Retains.places {k : Call} (h : Retains c d) (hp : c.passing k = []) (hk : k.cargo = 0) :
    Places c k d := by
  rw [Places, hp, h.kept, hk]
  rfl

theorem keptBytes_discard (c : Connection) (frames bytes : Nat) :
    (c.discard frames bytes).keptBytes = c.keptBytes + bytes := (Nat.add_assoc ..).symm

theorem keptBytes_forward (c : Connection) (f : Frame) : (c.forward f).keptBytes = c.keptBytes :=
  congrArg (· + _ + _) (Journal.readBytes_push _ _)

/-- What is received waits in the queue of its channel. -/
theorem keptBytes_received (h : c.channels.get? id = some ch) (ho : ch.closed = false)
    (item : Inbound) :
    Connection.keptBytes { c with channels := c.channels.insert id (ch.receive item) } =
      c.keptBytes + item.size := by
  have hinbound : (ch.receive item).inbound = ch.inbound ++ [item] := by
    rw [Channel.receive]
    dsimp only
    split <;> rfl
  have hopen : (ch.receive item).closed = false := (alike_receive ch item).closed.trans ho
  have hgrown := queuedBytes_insert h (ch.receive item)
  rw [Channel.queuedBytes_of_open ho, Channel.queuedBytes_of_open hopen, inboundBytes_eq,
    inboundBytes_eq, hinbound, List.map_append, List.sum_append, List.map_singleton,
    List.sum_singleton] at hgrown
  change c.journal.readBytes + Table.total Channel.queuedBytes
    (c.channels.insert id (ch.receive item)) + c.stats.discardedBytes =
      c.journal.readBytes + c.queuedBytes + c.stats.discardedBytes + item.size
  omega

/-- After an item was received, nothing is passed on any more. -/
theorem retains_received (c : Connection) (id : ChannelId) (ch : Channel) (item : Inbound) :
    Retains { c with channels := c.channels.insert id (ch.receive item) }
      ({ c with reading := true }.receive id ch item) := by
  have hbegun : Retains { c with channels := c.channels.insert id (ch.receive item) }
      { c with reading := true, channels := c.channels.insert id (ch.receive item) } :=
    .of_queued (.refl _) rfl rfl
  exact hbegun.trans (retains_readPath (readPath_receive { c with reading := true } id ch item))

theorem passesOn_frame (ht : c.Tidy) (f : Frame) : PassesOn c (.frame f) (c.frameArrived f) := by
  have harrival := arrival ht f
  generalize c.frameArrived f = d at harrival
  cases harrival with
  | passed hp hflushed =>
    have hbegun := retains_unflushedPath hflushed.aloud
    refine ⟨?_, ?_⟩
    · rw [passing_of_passes hp, ← hbegun.passedOn]
      exact Journal.passedOn_push ..
    · rw [passing_of_passes hp, ← hbegun.forwarded]
      rfl
  | dropped hp hbegun hflushed =>
    have hbefore := Retains.tells hbegun
    have hafter := retains_unflushedPath hflushed.aloud
    refine ⟨?_, ?_⟩
    · rw [passing_of_not_passes hp, List.append_nil]
      exact hafter.passedOn.trans hbefore.passedOn
    · rw [passing_of_not_passes hp]
      exact hafter.forwarded.trans hbefore.forwarded
  | @queued id ch item hp =>
    have hafter := retains_received c id ch item
    refine ⟨?_, ?_⟩
    · rw [passing_of_not_passes hp, List.append_nil]
      exact hafter.passedOn
    · rw [passing_of_not_passes hp]
      exact hafter.forwarded
  | heeded hp hflushed =>
    exact (retains_unflushedPath hflushed.aloud).passesOn (passing_of_not_passes hp)

theorem places_frame (ht : c.Tidy) (hr : c.Registered) (f : Frame) :
    Places c (.frame f) (c.frameArrived f) := by
  have hplaces {d : Connection} (hp : c.passes f = false)
      (hkept : d.keptBytes = c.keptBytes + f.payloadSize) : Places c (.frame f) d := by
    rw [Places, passing_of_not_passes hp, hkept, ← cargo_of_not_passes hp]
    rfl
  have harrival := arrival ht f
  generalize c.frameArrived f = d at harrival
  cases harrival with
  | passed hp hflushed =>
    rw [Places, passing_of_passes hp, keptBytes_forward,
      (retains_unflushedPath hflushed.aloud).kept]
    rfl
  | dropped hp hbegun hflushed =>
    apply hplaces hp
    rw [(retains_unflushedPath hflushed.aloud).kept, keptBytes_discard, (Retains.tells hbegun).kept]
  | @queued id ch item hp hactive hch hsize =>
    apply hplaces hp
    rw [(retains_received c id ch item).kept, ← hsize]
    exact keptBytes_received hch (hr.open_of_active hactive hch).1 item
  | heeded hp hflushed hnone =>
    -- a stream is registered for a channel that is there
    have hsize : f.payloadSize = 0 := by
      rcases hnone with hsize | ⟨id, hactive, hgone⟩
      · exact hsize
      · obtain ⟨ch, hch, -⟩ := (hr.active f.stream id).mp hactive
        exact nomatch hgone.symm.trans hch
    exact hplaces hp (by rw [hsize, (retains_unflushedPath hflushed.aloud).kept, Nat.add_zero])

/-! ## Calls -/

/-- Whatever brings no frame passes nothing on, and no byte is lost in it. -/
theorem retains_after (ht : c.Tidy) {k : Call} (hk : ∀ f, k ≠ .frame f) :
    Retains c (c.after k) := by
  cases hreads : k.reads with
  | false => exact retains_unflushedPath (unflushedPath_after ht hreads)
  | true =>
    cases k with
    | frame f => exact absurd rfl (hk f)
    | readCycleEnded => exact retains_readPath (readPath_readCycleEnded c)
    | beginRead id => exact retains_onChannel id (retains_readPath (readPath_beginRead c id))
    | setAutoRead id on =>
      exact retains_onChannel id (retains_readPath (readPath_setAutoRead c id on))
    | _ => cases hreads

theorem passesOn_after (ht : c.Tidy) (k : Call) : PassesOn c k (c.after k) := by
  cases k with
  | frame f => exact passesOn_frame ht f
  | _ => exact (retains_after ht fun _ hf => by cases hf).passesOn rfl

theorem places_after (ht : c.Tidy) (hr : c.Registered) (k : Call) : Places c k (c.after k) := by
  cases k with
  | frame f => exact places_frame ht hr f
  | _ => exact (retains_after ht fun _ hf => by cases hf).places rfl rfl

/-! ## Runs -/

/-- Every frame that arrives is accounted for once.

The frames that were passed on are, in their order and unchanged, those that `Connection.passes`
tells of on their arrival, and they were counted.  The bytes of all frames that arrived, other than
those that announce the end of the connection, are the bytes of the frames passed on, those that
were read, those that wait in the queues of open channels and those that were discarded. -/
theorem arrived_frames_are_accounted_for {config : Config} {encoder : Encoder}
    (h : start config encoder = .ok c) {ks : List Call} (ho : c.CarefulRun ks) :
    (c.run ks).journal.passedOn = passings c ks ∧
    (c.run ks).stats.forwarded = (passings c ks).length ∧
    (ks.map Call.cargo).sum = ((passings c ks).map Frame.cargo).sum +
      (c.run ks).journal.readBytes + (c.run ks).queuedBytes +
      (c.run ks).stats.discardedBytes := by
  suffices hkept : (c.run ks).journal.passedOn = passings c ks ∧
      (c.run ks).stats.forwarded = (passings c ks).length ∧
      (ks.map Call.cargo).sum = ((passings c ks).map Frame.cargo).sum + (c.run ks).keptBytes by
    refine ⟨hkept.1, hkept.2.1, hkept.2.2.trans ?_⟩
    rw [keptBytes]
    omega
  induction ks using List.reverseRecOn with
  | nil =>
    rw [(start_eq h).1]
    exact ⟨rfl, rfl, rfl⟩
  | append_singleton ks k ih =>
    have hls := (carefulRun_append.mp ho).1
    obtain ⟨hpassedOn, hforwarded, hbytes⟩ := ih hls
    have hpasses := passesOn_after (tidy_run h ks) k
    have hplaces := places_after (tidy_run h ks) (registered_run h hls) k
    rw [Places] at hplaces
    rw [run_concat, passings_concat]
    refine ⟨by rw [hpasses.passedOn, hpassedOn], ?_, ?_⟩
    · rw [hpasses.forwarded, hforwarded, List.length_append]
    · rw [List.map_append, List.sum_append, List.map_singleton, List.sum_singleton,
        List.map_append, List.sum_append]
      omega

/-- A payload for a channel is read, and one for a stream that nobody knows is passed on. -/
theorem stray_payload_is_passed_on :
    let ks := Call.opening ++ [.frame (.data 3 [1, 2] 0 false), .frame (.data 5 [3] 0 false)]
    passings (fresh {} .willing) ks =
        [.settings { extendedConnect := some true }, .data 5 [3] 0 false] ∧
      ((fresh {} .willing).run ks).journal.passedOn = passings (fresh {} .willing) ks ∧
      3 = 1 + ((fresh {} .willing).run ks).journal.readBytes +
        ((fresh {} .willing).run ks).queuedBytes +
        ((fresh {} .willing).run ks).stats.discardedBytes := by
  intro ks
  obtain ⟨hpassedOn, -, hbytes⟩ := arrived_frames_are_accounted_for
    (rfl : start {} .willing = .ok (fresh {} .willing))
    (by decide : (fresh {} .willing).OrderlyRun ks).careful
  exact ⟨by decide, hpassedOn, hbytes⟩

end Connection

end ChannelMux
