import ChannelMux.Proofs.CoreSteps

/-!
# Paths of core steps

Every call is made of core steps (`corePath_after`), by way of the call steps of which it is made.
-/

namespace ChannelMux

/-! ## Deadlines -/

namespace Timers

variable {ts : Timers} {t u : Timer}

theorem armed_cancel : (ts.cancel t).Armed u ↔ u ≠ t ∧ ts.Armed u := by
  simp only [Armed, mem_cancel]
  constructor
  · rintro ⟨due, hmem, hne⟩
    exact ⟨hne, due, hmem⟩
  · rintro ⟨hne, due, hmem⟩
    exact ⟨due, hmem, hne⟩

theorem armed_arm {at_ : Time} : (ts.arm at_ t).Armed u ↔ u = t ∨ ts.Armed u := by
  simp only [Armed, arm, mem_place, Prod.mk.injEq, mem_cancel]
  constructor
  · rintro ⟨due, ⟨-, rfl⟩ | ⟨hmem, -⟩⟩
    · exact .inl rfl
    · exact .inr ⟨due, hmem⟩
  · intro h
    by_cases hu : u = t
    · exact ⟨at_, .inl ⟨rfl, hu⟩⟩
    · obtain ⟨due, hmem⟩ := h.resolve_left hu
      exact ⟨due, .inr ⟨hmem, hu⟩⟩

theorem armed_popDue {now : Time} {ts' : Timers} (h : ts.popDue now = some (t, ts')) :
    ts.Armed t ∧ (ts'.Armed u → ts.Armed u) ∧ (ts.Armed u → u = t ∨ ts'.Armed u) := by
  obtain ⟨es⟩ := ts
  rw [popDue] at h
  cases es with
  | nil => cases h
  | cons e es =>
    dsimp only at h
    split at h
    next =>
      obtain ⟨rfl, rfl⟩ := Prod.mk.inj (Option.some.inj h)
      refine ⟨⟨e.1, List.mem_cons_self⟩, ?_, ?_⟩
      · rintro ⟨due, hmem⟩
        exact ⟨due, List.mem_cons_of_mem _ hmem⟩
      · rintro ⟨due, hmem⟩
        rcases List.mem_cons.mp hmem with heq | hmem
        · exact .inl (congrArg Prod.snd heq)
        · exact .inr ⟨due, hmem⟩
    next => cases h

end Timers

/-- What may be done to a channel that is about to be closed. -/
structure Channel.Parting (ch ch' : Channel) : Prop where
  closed : ch'.closed = false
  writable : ch'.writable = ch.writable
  pendingBytes : ch'.pendingBytes ≤ ch.pendingBytes
  countedOff : ch.parked.giveUp.2.bytes = 0 →
    ch'.pendingBytes - ch'.parked.bytes = ch.pendingBytes - ch.parked.bytes
  parked : ch'.parked.giveUp.2 = ch.parked.giveUp.2
  inbound : ch'.inbound = ch.inbound
  stream : ch'.stream = ch.stream ∨ ch.handshake = .awaitingSettings

theorem Parked.giveUp_giveUp (p : Parked) : p.giveUp.2.giveUp.2 = p.giveUp.2 := by
  unfold Parked.giveUp
  cases h : p.settled with
  | false => rfl
  | true => simp only [if_true, h]

namespace Channel.Parting

variable {ch ch' : Channel}

theorem of_open (h : ch.closed = false) : ch.Parting ch :=
  ⟨h, rfl, Nat.le_refl _, fun _ => rfl, rfl, rfl, .inl rfl⟩

theorem giveUpParked (h : ch.Parting ch') : ch.Parting ch'.giveUpParked where
  closed := h.closed
  writable := h.writable
  pendingBytes := Nat.le_trans (Nat.sub_le ..) h.pendingBytes
  countedOff hnone := by
    have hbytes : ch'.giveUpParked.parked.bytes = 0 :=
      (congrArg Parked.bytes h.parked).trans hnone
    rw [hbytes, Nat.sub_zero]
    exact h.countedOff hnone
  parked := (Parked.giveUp_giveUp _).trans h.parked
  inbound := h.inbound
  stream := h.stream

theorem shut (h : ch.Parting ch') (kind : CloseKind) : ch.Over (ch'.shut kind) where
  closed := rfl
  inbound := rfl
  writable := h.writable
  pendingBytes := Nat.le_trans (Nat.sub_le ..) h.pendingBytes
  countedOff := h.countedOff
  parked := h.parked
  handshake := ch'.isPending_shut kind
  stream := h.stream

end Channel.Parting

namespace Connection

variable {strict : Prop} {k : Cause} {c c' c₁ c₂ d : Connection} {id : ChannelId}
  {ch ch' : Channel} {ws : List LooseWrite} {s t : Stage}

/-! ## The end of a channel -/

theorem armed_retiredTimers (ts : Timers) (due : Time) (stream : StreamId) (absorb : Bool)
    (j : ChannelId) : (retiredTimers ts due stream absorb).Armed (.handshakeTimeout j) ↔
      ts.Armed (.handshakeTimeout j) := by
  unfold retiredTimers
  split_ifs
  · rfl
  · rw [Timers.armed_arm]
    simp
  · rfl

section

variable (h : c.channels.get? id = some ch) (hp : ch.Parting ch') {es : List Entry}
  {journal : Journal} {timers : Timers}
  (hj : ({ c.journal with entries := c.journal.entries ++ es }).Extends
    (fun e => e.isPlain = true) journal)
  (ht : ∀ j ≠ id, timers.Armed (.handshakeTimeout j) ↔ c.timers.Armed (.handshakeTimeout j))
include hp hj ht

theorem ended_close (registry : Registry ChannelId) (ledger : Ledger) (kind : CloseKind) :
    Ended c id ch es ({ c with
      channels := c.channels.insert id ch', journal := journal, registry := registry,
      timers := timers, ledger := ledger }.close id kind) := by
  obtain ⟨_, _, heq, hnext, hextends⟩ := close_exact
    (c := { c with
      channels := c.channels.insert id ch', journal := journal, registry := registry,
      timers := timers, ledger := ledger }) (Table.get?_insert_self ..) hp.closed kind
  rw [heq]
  refine ⟨rfl, rfl, rfl, rfl, hnext, rfl, rfl, ?_, ⟨_, Table.insert_insert .., hp.shut kind⟩,
    by rw [hp.inbound], by rw [Channel.inboundBytes, hp.inbound]; rfl,
    hj.trans (hextends.mono fun _ he => he.2)⟩
  intro j
  rw [armed_retiredTimers, Timers.armed_cancel]
  by_cases hji : j = id
  · simp [hji]
  · rw [ht j hji]
    simp

theorem ended_failHandshake (registry : Registry ChannelId) (cause : Fault) :
    Ended c id ch es ({ c with
      channels := c.channels.insert id ch', journal := journal, registry := registry,
      timers := timers }.failHandshake id cause) := by
  rw [failHandshake, Table.get?_insert_self]
  dsimp only
  rw [hp.closed, failParked_eq (Table.get?_insert_self ..)]
  simp only [Table.insert_insert]
  exact ended_close hp.giveUpParked (hj.push rfl) ht registry _ .reset

end

theorem extends_append_nil {P : Entry → Prop} {j j' : Journal} (h : j.Extends P j') :
    ({ j with entries := j.entries ++ [] }).Extends P j' :=
  (Journal.Extends.of_eq (List.append_nil _).symm).trans h

section

variable (h : c.channels.get? id = some ch) (ho : ch.closed = false)
include h ho

theorem ended_of_close (kind : CloseKind) : Ended c id ch [] (c.close id kind) := by
  have hended : Ended c id ch [] _ := ended_close (.of_open ho)
    (extends_append_nil (.refl c.journal)) (fun _ _ => Iff.rfl) c.registry c.ledger kind
  rwa [Table.insert_self h] at hended

theorem ended_of_failHandshake {timers : Timers}
    (ht : ∀ j ≠ id, timers.Armed (.handshakeTimeout j) ↔ c.timers.Armed (.handshakeTimeout j))
    (cause : Fault) : Ended c id ch [] ({ c with timers := timers }.failHandshake id cause) := by
  have hended := ended_failHandshake (.of_open ho) (extends_append_nil (.refl c.journal)) ht
    c.registry cause
  rwa [Table.insert_self h] at hended

end

theorem corePath_close (id : ChannelId) (kind : CloseKind) :
    CorePath strict k ⟨c, ws⟩ ⟨c.close id kind, ws⟩ := by
  rcases close_cases c id kind with ⟨-, heq⟩ | ⟨ch, h, ho⟩
  · rw [heq]
    exact .refl _
  · exact (CoreStep.ended ws h ho .none (ended_of_close h ho kind)).path

theorem corePath_failHandshake (id : ChannelId) (cause : Fault) :
    CorePath strict k ⟨c, ws⟩ ⟨c.failHandshake id cause, ws⟩ := by
  rcases failHandshake_cases c id cause with heq | ⟨ch, h, ho⟩
  · rw [heq]
    exact .refl _
  · exact (CoreStep.ended ws h ho .none
      (ended_of_failHandshake h ho (fun _ _ => Iff.rfl) cause)).path

/-- Parked writes are failed, something is reported, and the channel is closed without a frame. -/
theorem corePath_part {what : Happening} (hwhat : (Entry.event ⟨id, what⟩).isPlain = true)
    (cause : Fault) :
    CorePath strict k ⟨c, ws⟩ ⟨((c.failParked id cause).emit id what).close id .remote, ws⟩ := by
  cases h : c.channels.get? id with
  | none =>
    rw [failParked, h]
    exact ((Plain.emit c id what hwhat).path ws).trans (corePath_close id .remote)
  | some ch =>
    cases ho : ch.closed with
    | true =>
      have hgave : CoreStep strict k ⟨c, ws⟩ ⟨c.failParked id cause, ws⟩ := .gaveUp cause ws h ho
      exact (hgave.path.plain (.emit _ id what hwhat)).trans (corePath_close id .remote)
    | false =>
      rw [failParked_eq h]
      exact (CoreStep.ended ws h ho .none (ended_close (Channel.Parting.of_open ho).giveUpParked
        (extends_append_nil ((Journal.Extends.refl _).push hwhat)) (fun _ _ => Iff.rfl)
        c.registry _ .remote)).path

theorem corePath_resetArrived (id : ChannelId) (reason : Reason) :
    CorePath strict k ⟨c, ws⟩ ⟨c.resetArrived id reason, ws⟩ := by
  rw [resetArrived]
  split
  · exact .refl _
  · have hnoted : Plain k c (c.updateChannel id fun ch =>
        { ch with remoteReset := true }.noteInitiator .theirs) := .update c id fun _ => rfl
    exact (hnoted.path ws).trans (corePath_part rfl _)

theorem corePath_writeFailed (id : ChannelId) :
    CorePath strict k ⟨c, ws⟩ ⟨c.writeFailed id, ws⟩ := by
  rw [writeFailed]
  split
  · exact .refl _
  next ch h =>
    split
    · exact .refl _
    · split
      · exact corePath_close id .reset
      · have hended : CorePath strict k ⟨c, ws⟩
            ⟨{ c with channels := c.channels.insert id { ch with outboundClosed := true } }, ws⟩ :=
          (Plain.insert h _ (by rfl)).path ws
        dsimp only
        split
        · exact hended.trans (corePath_close id .remote)
        · exact hended

/-! ## Handshakes that fail at once -/

section

variable {stream : StreamId} {f : WriteFault}

theorem reserve_eq_of_error (hres : c.reserve id = (.error f, c₁)) :
    ∃ stream, c₁ = c.note (.wire (some id) ⟨.reserve stream, some f⟩) := by
  rw [reserve, submit] at hres
  split at hres
  next => cases (Prod.mk.inj hres).1
  next heq =>
    obtain ⟨herror, rfl⟩ := Prod.mk.inj hres
    obtain ⟨hfault, rfl⟩ := Prod.mk.inj heq
    obtain rfl := Except.error.inj herror
    exact ⟨_, by rw [hfault]⟩

theorem reserve_eq_of_ok (hres : c.reserve id = (.ok stream, c₁)) :
    c₁ = c.note (.wire (some id) ⟨.reserve stream, none⟩) := by
  rw [reserve, submit] at hres
  split at hres
  next heq =>
    obtain ⟨hok, rfl⟩ := Prod.mk.inj hres
    obtain ⟨hfault, rfl⟩ := Prod.mk.inj heq
    obtain rfl := Except.ok.inj hok
    rw [hfault]
  next => cases (Prod.mk.inj hres).1

/-- A stream was reserved for a channel, and headers were handed to the encoder. -/
theorem assigned_eq (h : c.channels.get? id = some ch) {block : HeaderBlock}
    {fault : Option WriteFault} (hres : c.reserve id = (.ok stream, c₁))
    (hsub : (c₁.assignStream id stream).submit (some id) (.headers stream block false) =
      (fault, c₂)) :
    c₂ = { c with
      channels := c.channels.insert id { ch with stream := stream, cachedWeight := none }
      registry := c.registry.insert stream id
      journal := (c.journal.push (.wire (some id) ⟨.reserve stream, none⟩)).push
        (.wire (some id) ⟨.headers stream block false, fault⟩) } := by
  obtain rfl := reserve_eq_of_ok hres
  obtain ⟨hfault, rfl⟩ := Prod.mk.inj hsub
  have h' : (c.note (.wire (some id) ⟨.reserve stream, none⟩)).channels.get? id = some ch := h
  rw [hfault, assignStream, updateChannel_eq h']
  rfl

variable (h : c.channels.get? id = some ch) (ho : ch.closed = false)
  (ha : ch.handshake = .awaitingSettings)
include h ho ha

theorem corePath_unreserved (hres : c.reserve id = (.error f, c₁)) :
    CorePath strict k ⟨c, ws⟩ ⟨c₁.failHandshake id (.write f), ws⟩ := by
  obtain ⟨stream, rfl⟩ := reserve_eq_of_error hres
  have hended : Ended c id ch [.wire (some id) ⟨.reserve stream, some f⟩] _ :=
    ended_failHandshake (.of_open ho) (.refl _) (fun _ _ => Iff.rfl) c.registry (.write f)
  rw [Table.insert_self h] at hended
  exact (CoreStep.ended ws h ho (.unreserved stream f ha) hended).path

theorem corePath_requestRefused {block : HeaderBlock} (hres : c.reserve id = (.ok stream, c₁))
    (hsub : (c₁.assignStream id stream).submit (some id) (.headers stream block false) =
      (some f, c₂)) :
    CorePath strict k ⟨c, ws⟩ ⟨c₂.failHandshake id (.write f), ws⟩ := by
  obtain rfl := assigned_eq h hres hsub
  have hparting : ch.Parting { ch with stream := stream, cachedWeight := none } :=
    ⟨ho, rfl, Nat.le_refl _, fun _ => rfl, rfl, rfl, .inr ha⟩
  have hended : Ended c id ch [.wire (some id) ⟨.reserve stream, none⟩,
      .wire (some id) ⟨.headers stream block false, some f⟩] _ :=
    ended_failHandshake hparting (.refl _) (fun _ _ => Iff.rfl) (c.registry.insert stream id)
      (.write f)
  refine (CoreStep.ended ws h ho (.refused stream block f ha) ?_).path
  simpa only [Journal.push, List.append_assoc, List.cons_append, List.nil_append] using hended

theorem corePath_requested {block : HeaderBlock} (h0 : strict → stream ≠ 0)
    (hres : c.reserve id = (.ok stream, c₁))
    (hsub : (c₁.assignStream id stream).submit (some id) (.headers stream block false) =
      (none, c₂)) :
    CorePath strict k ⟨c, ws⟩
      ⟨c₂.updateChannel id fun ch => { ch with handshake := .requestSent }, ws⟩ := by
  rw [updateChannel_eq (get?_assigned h hres hsub), assigned_eq h hres hsub]
  dsimp only
  rw [Table.insert_insert]
  exact (CoreStep.requested block ws h ho ha h0).path

end

theorem corePath_accept (ht : c.Tidy) {stream : StreamId} (path : String)
    (subprotocol : Option String) (compression : Option Deflate.Terms)
    (hrole : c.config.role = .server) (h0 : strict → stream ≠ 0) :
    CorePath strict k ⟨c, ws⟩ ⟨c.accept stream path subprotocol compression, ws⟩ := by
  rw [accept_eq]
  generalize (Connect.Response.accepting subprotocol _).toHeaders = block
  split
  next f d heq =>
    obtain ⟨hfault, rfl⟩ := Prod.mk.inj heq
    rw [hfault]
    have hchannels : (c.enrol stream path subprotocol compression).channels.erase c.nextChannel =
        c.channels := Table.erase_insert ht.get?_nextChannel _
    change CorePath strict k ⟨c, ws⟩ ⟨{ c with
      channels := (c.enrol stream path subprotocol compression).channels.erase c.nextChannel
      nextChannel := _, registry := _, journal := _ }, ws⟩
    rw [hchannels]
    exact (CoreStep.turnedAway block f _ ws hrole).path
  next d heq =>
    obtain ⟨hfault, rfl⟩ := Prod.mk.inj heq
    rw [hfault]
    have henrolled : CoreStep strict k ⟨c, ws⟩ _ :=
      .enrolled path subprotocol compression block ws hrole h0
    exact (henrolled.path.plain (.told _ ((Journal.Extends.refl _).push rfl) _)).plain
      (.emit _ _ _ rfl)

/-! ## Reading -/

theorem corePath_handOver (h : c.channels.get? id = some ch) (ho : ch.closed = false)
    {item : Inbound} {rest : List Inbound} (hq : ch.inbound = item :: rest) :
    CorePath strict k ⟨c, ws⟩ ⟨c.handOver id ch.stream item rest, ws⟩ := by
  have hnoted : CorePath strict k ⟨c, ws⟩ ⟨c.note (.delivered id item), ws⟩ :=
    (Plain.note c rfl).path ws
  have hhanded : CorePath strict k ⟨c, ws⟩ ⟨{ c with
      channels := c.channels.insert id { ch with inbound := rest }
      journal := (c.journal.push (.delivered id item)).report id ch.stream item }, ws⟩ :=
    hnoted.tail (.handed ws h ho hq)
  have hspent (reports : Bool) : CorePath strict k ⟨c, ws⟩ ⟨{ c with
      channels := c.channels.insert id { ch with
        inbound := rest, budget := ch.budget - 1, endReported := ch.endReported || reports }
      journal := (c.journal.push (.delivered id item)).report id ch.stream item }, ws⟩ := by
    have hplain := hhanded.plain (.insert (Table.get?_insert_self ..) { ch with
      inbound := rest, budget := ch.budget - 1, endReported := ch.endReported || reports }
      (by rfl))
    rwa [Table.insert_insert] at hplain
  have hreported (reports : Bool) := (hspent reports).plain
    (.emit _ id (.remoteClosed .endOfStream) rfl)
  obtain ⟨_⟩ := c
  simp only at h
  cases item with
  | data payload endStream =>
    simp only [handOver, note, emit, tell, updateChannel, Table.modify_eq_insert h]
    split
    · exact hreported _
    · exact hspent _
  | trailers =>
    simp only [handOver, note, emit, updateChannel, Table.modify_eq_insert h]
    split
    · exact hreported _
    · exact hspent _

theorem corePath_settle (id : ChannelId) : CorePath strict k ⟨c, ws⟩ ⟨c.settle id, ws⟩ := by
  rw [settle]
  split
  · exact .refl _
  · split
    · exact corePath_close id .remote
    · split
      · have hflushed : Plain k c (c.updateChannel id fun ch => { ch with unflushed := false }) :=
          .update c id fun _ => rfl
        exact (hflushed.path ws).plain (.flush _)
      · exact .refl _

theorem corePath_deliverItems {stream : StreamId} (budget : Nat) (items : List Inbound)
    (h : c.channels.get? id = some ch) (ho : ch.closed = false) (hs : ch.stream = stream)
    (hq : ch.inbound = items) :
    CorePath strict k ⟨c, ws⟩ ⟨(deliverItems id stream budget items c).2, ws⟩ := by
  induction items generalizing c ch budget with
  | nil => exact corePath_settle id
  | cons item rest ih =>
    obtain ⟨reported, journal, hover, -⟩ := handOver_eq h hq stream
    have hfirst : CorePath strict k ⟨c, ws⟩ ⟨c.handOver id stream item rest, ws⟩ :=
      hs ▸ corePath_handOver h ho hq
    rw [deliverItems]
    dsimp only
    split
    · exact hfirst
    · have hopen : (ch.handed 1 reported).closed = false := ho
      have hrest : (ch.handed 1 reported).inbound = rest := by rw [Channel.handed, hq]; rfl
      rw [hover] at hfirst ⊢
      exact hfirst.trans (ih (budget - 1) (get?_handed ..) hopen hs hrest)

theorem corePath_deliver (id : ChannelId) :
    CorePath strict k ⟨c, ws⟩ ⟨(c.deliver id).2, ws⟩ := by
  rw [deliver]
  split
  · exact .refl _
  next ch h =>
    split
    · exact .refl _
    next hguard =>
      rw [not_or] at hguard
      exact corePath_deliverItems ch.budget ch.inbound h (Bool.not_eq_true _ ▸ hguard.1) rfl rfl

theorem core_requestRead (ch : Channel) (budget : Nat) :
    (ch.requestRead budget).core = ch.core := by
  rw [Channel.requestRead]
  split <;> rfl

theorem corePath_readStep (h : ReadStep c c') : CorePath strict k ⟨c, ws⟩ ⟨c', ws⟩ := by
  cases h with
  | requested id => exact (Plain.update c id fun ch => core_requestRead ch _).path ws
  | automated id on =>
    have hset : Plain k c (c.updateChannel id fun ch => { ch with autoRead := on }) :=
      .update c id fun _ => rfl
    exact hset.path ws
  | delivered id => exact corePath_deliver id
  | completed id =>
    cases h : c.channels.get? id with
    | none => rw [fireReadComplete, h]; exact .refl _
    | some ch =>
      rw [fireReadComplete_eq h]
      exact ((Plain.insert h (ch.finishRead _) rfl).path ws).plain (.emit _ id .readComplete rfl)
  | @queued id batch _ =>
    have hbatch : Plain k c { c with batch := batch } := { Plain.refl c with }
    have hwaits : Plain k { c with batch := batch }
        ({ c with batch := batch }.updateChannel id fun ch => { ch with batched := true }) :=
      .update _ id fun _ => rfl
    exact (hbatch.path ws).plain hwaits
  | drainBegun | drainFinished | cycleEnded => exact CoreStep.path (.plain ws { Plain.refl c with })
  | swept =>
    have hswept : Plain k c { c with channels := c.channels.mapEntries fun _ => flushed } := by
      refine { Plain.refl c with cores := ?_ }
      intro id
      rw [Table.get?_mapEntries, Option.map_map]
      rfl
    exact (hswept.path ws).plain (.flush _)

theorem corePath_readPath (h : ReadPath c c') : CorePath strict k ⟨c, ws⟩ ⟨c', ws⟩ := by
  induction h with
  | refl => exact .refl _
  | tail _ hstep ih => exact ih.trans (corePath_readStep hstep)

/-! ## Upkeep -/

theorem corePath_runTask {t : Task} {tasks : List Task} (h : c.tasks = t :: tasks) :
    CorePath strict k ⟨c, ws⟩ ⟨{ c with tasks := tasks }.runTask t, ws⟩ := by
  cases t with
  | reportWritability id on =>
    rw [runTask]
    split
    next hthere => exact (CoreStep.turned ws h hthere).path
    next hgone => exact (CoreStep.unheard ws h (Bool.not_eq_true _ ▸ hgone)).path
  | tearDown id =>
    have htorn : CoreStep strict k ⟨c, ws⟩
        ⟨{ c with tasks := tasks, channels := c.channels.erase id }, ws⟩ := .tornDown ws h
    rw [runTask]
    split
    · exact (htorn.path.plain (.emit _ id .inactive rfl)).plain (.emit _ id .unregistered rfl)
    next hgone =>
      have hnone : c.channels.get? id = none := by simpa [Table.contains] using hgone
      rw [Table.erase_of_none hnone] at htorn
      exact htorn.path

theorem corePath_fireTimer {now : Time} {t : Timer} {timers : Timers}
    (h : c.timers.popDue now = some (t, timers)) :
    CorePath strict k ⟨c, ws⟩ ⟨{ c with timers := timers }.fireTimer t, ws⟩ := by
  have hkept {u : Timer} (hu : u ≠ t) : timers.Armed u ↔ c.timers.Armed u := by
    obtain ⟨-, hback, hforth⟩ := Timers.armed_popDue (u := u) h
    exact ⟨hback, fun harmed => (hforth harmed).resolve_left hu⟩
  cases t with
  | registryRemoval stream =>
    exact CoreStep.path (.plain ws { Plain.refl c with timeouts := fun _ => hkept nofun })
  | handshakeTimeout id =>
    rw [fireTimer]
    dsimp only
    split
    next hwaits =>
      obtain ⟨ch, hch, hopen⟩ := (Option.any_eq_true ..).mp hwaits
      simp only [Bool.and_eq_true, Bool.not_eq_true'] at hopen
      refine (CoreStep.ended ws hch hopen.1 .none (ended_of_failHandshake hch hopen.1 ?_ _)).path
      intro j hj
      exact hkept fun heq => hj (Timer.handshakeTimeout.inj heq)
    next hnot =>
      refine (CoreStep.missed ws ⟨now, h⟩ ?_).path
      intro ch hch ho
      rw [hch, Option.any_some, ho] at hnot
      simpa using hnot

/-! ## Changes -/

theorem isPlain_of_isNotice {what : Happening} (h : what.isNotice = true) (id : ChannelId) :
    (Entry.event ⟨id, what⟩).isPlain = true := by
  cases what with
  | read _ | writability _ => cases h
  | _ => rfl

/-- Every change is made of steps. -/
theorem corePath_change (ht : c.Tidy) (h : Change strict k c c') (ws : List LooseWrite) :
    CorePath strict k ⟨c, ws⟩ ⟨c', ws⟩ := by
  cases h with
  | around encoder journal ledger clock hentries _ _ _ hencoder =>
    exact CoreStep.path (.plain ws { Plain.refl c with
      encoder := hencoder.imp_right fun hk => ⟨_, hk⟩, journal := .of_eq hentries })
  | cycleBegun => exact CoreStep.path (.plain ws { Plain.refl c with })
  | settingsNoted s hk =>
    have hannounces : k.call.announces = true := by rw [hk]; rfl
    rw [noteSettings]
    dsimp only
    split
    · exact CoreStep.path (.plain ws { Plain.refl c with announced := .inr ⟨rfl, hannounces⟩ })
    · exact CoreStep.path (.plain ws { Plain.refl c with announced := .inr ⟨rfl, hannounces⟩ })
  | endNoted last reason debug hk =>
    have hannounces : k.call.announces = true := by rw [hk]; rfl
    exact CoreStep.path (.plain ws { Plain.refl c with
      announced := .inr ⟨Bool.or_true _, hannounces⟩ })
  | forwarded f => exact (Plain.told c (Journal.extends_push _ (by rfl)) _).path ws
  | discarded frames bytes => exact (Plain.told c (.refl _) _).path ws
  | resetArrived id reason => exact corePath_resetArrived id reason
  | noticed id what hnotice => exact (Plain.emit c id what (isPlain_of_isNotice hnotice id)).path ws
  | flushed => exact (Plain.flush c).path ws
  | asked path subprotocol hrole _ _ hk => exact (CoreStep.asked path subprotocol ws hrole hk).path
  | unreserved h ho ha hres => exact corePath_unreserved h ho ha hres
  | requested h ho ha hres hfresh hsub =>
    exact corePath_requested h ho ha (fun hs => (hfresh hs).1) hres hsub
  | requestRefused h ho ha hres _ hsub => exact corePath_requestRefused h ho ha hres hsub
  | handshakeFailed id cause => exact corePath_failHandshake id cause
  | refused stream status =>
    exact ((Plain.submit c none _ fun _ => rfl).path ws).plain (.flush _)
  | answered path subprotocol compression hrole _ h0 =>
    exact corePath_accept ht path subprotocol compression hrole h0
  | received item h _ hc hr hitem =>
    exact (CoreStep.received item ws h hc hr hitem).path.trans
      (corePath_readPath (readPath_receive ..))
  | cycleEnded => exact corePath_readPath (readPath_readCycleEnded c)
  | readBegun id => exact corePath_readPath (readPath_beginRead c id)
  | autoReadSet id on => exact corePath_readPath (readPath_setAutoRead c id on)
  | issued o => exact CoreStep.path (.plain ws { Plain.refl c with })
  | writeSettled fault hk hw => exact (CoreStep.settled fault ws hk hw).path
  | writeFailed id => exact corePath_writeFailed id
  | channelFlushed id =>
    have hflushed : Plain k c (c.updateChannel id fun ch => { ch with unflushed := false }) :=
      .update c id fun _ => rfl
    exact (hflushed.path ws).plain (.flush _)
  | weightCached weight h ho hs =>
    rw [updateChannel_eq h]
    exact (CoreStep.weightCached weight ws h ho hs).path
  | weightSent id stream weight =>
    have hsent : CorePath strict k ⟨c, ws⟩ _ :=
      (Plain.submit c (some id) (.priority stream (.ofWeight weight)) fun _ => rfl).path ws
    rw [sendPriority]
    split
    next heq => rw [heq] at hsent; exact hsent
    next heq => rw [heq] at hsent; exact hsent.plain (.emit _ id _ rfl)
  | closed id kind => exact corePath_close id kind
  | inflightLost hk => exact (CoreStep.inflightLost c ws hk).path
  | channelLost id _ => exact corePath_part rfl _
  | cleared hk hnone => exact (CoreStep.cleared c ws hk hnone).path
  | recovered id ho =>
    obtain ⟨ch, h, ho⟩ := isOpen_iff.mp ho
    exact (CoreStep.recovered ws h ho).path
  | timerFired hpop => exact corePath_fireTimer hpop
  | taskRun h => exact corePath_runTask h

/-! ## Calls -/

theorem corePath_callStep (ht : s.conn.Tidy) (h : CallStep strict k s t) :
    CorePath strict k s t := by
  cases h with
  | change ws h => exact corePath_change ht h ws
  | takenUp hk hc h ho hout => exact (CoreStep.takenUp hk hc h ho hout).path
  | parked h ho hp hpush =>
    rw [updateChannel_eq h]
    exact (CoreStep.parked h ho hp hpush).path
  | unparked subprotocol compression h hs =>
      exact (CoreStep.unparked subprotocol compression h hs).path
  | sent h ho _ hs hsub =>
    obtain ⟨hfault, rfl⟩ := Prod.mk.inj hsub
    subst hs
    rw [hfault]
    exact (CoreStep.sent h ho).path.plain (.update _ _ fun _ => rfl)
  | bounced h ho _ hs hsub =>
    obtain ⟨hfault, rfl⟩ := Prod.mk.inj hsub
    subst hs
    rw [hfault]
    exact (CoreStep.bounced _ h ho).path.trans (corePath_writeFailed _)
  | dropped h => exact (CoreStep.dropped h).path

theorem corePath_callPath (ht : s.conn.Tidy) (h : CallPath strict k s t) :
    CorePath strict k s t := by
  have hall : t.conn.Tidy ∧ CorePath strict k s t :=
    CallPath.induction (P := fun u => u.conn.Tidy ∧ CorePath strict k s u)
      (fun _ _ hm hu => ⟨hu.1.registryPath (registryPath_callStep hm),
        hu.2.trans (corePath_callStep hu.1 hm)⟩)
      h ⟨ht, .refl s⟩
  exact hall.2

/-- Every call is made of steps. -/
theorem corePath_after (ht : c.Tidy) (k : Call) (ho : strict → c.Careful k) :
    CorePath strict ⟨c, k⟩ ⟨c, []⟩ ⟨c.after k, []⟩ := corePath_callPath ht (callPath_after c k ho)

/-- What the steps of a call keep holds after the call. -/
theorem after_induction {P : Connection → Prop} (ht : c.Tidy) (k : Call)
    (step : ∀ u v : Stage, u.conn.Tidy → CoreStep False ⟨c, k⟩ u v → P u.conn → P v.conn)
    (h : P c) :
    P (c.after k) :=
  (CorePath.induction (P := fun u => P u.conn) step ht (corePath_after ht k False.elim) h).2

/-- What every step keeps holds after every run. -/
theorem run_induction {P : Connection → Prop} (ht : c.Tidy) (ks : List Call)
    (step : ∀ (k : Cause) (u v : Stage), u.conn.Tidy → CoreStep False k u v → P u.conn → P v.conn)
    (h : P c) : P (c.run ks) := by
  induction ks generalizing c with
  | nil => exact h
  | cons k ks ih =>
    exact ih (ht.after k) (after_induction ht k (step ⟨c, k⟩) h)

/-- A connection keeps the configuration that it was made with. -/
theorem config_run {config : Config} {encoder : Encoder} (h : start config encoder = .ok c)
    (ks : List Call) : (c.run ks).config = config :=
  run_induction (P := fun d => d.config = config) (tidy_start h) ks
    (fun _ _ _ _ hs hu => hs.config.trans hu) (by rw [(start_eq h).1]; rfl)

end Connection

end ChannelMux
