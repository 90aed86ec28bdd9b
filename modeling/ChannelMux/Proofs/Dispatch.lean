import ChannelMux.Proofs.Accounts
import ChannelMux.Proofs.EncoderSteps
import ChannelMux.Proofs.Registration
import Mathlib.Data.List.Induction

/-!
# Dispatch: a call is made of encoder steps

Every change that a call makes, and every step that puts a write down, is a path of encoder steps,
so what each of them keeps holds after every run.  The paths rest on one fact about the registry: it
leads only to channels that no longer wait for the peer's settings (`Enlisted`), so nothing that the
peer sends on a stream reaches a channel that still waits.
-/

namespace ChannelMux

namespace Connection

variable {k : Cause} {c c' d : Connection} {id j : ChannelId} {ch ch' : Channel}
  {ws : List LooseWrite} {s t u : Stage}

/-! ## The end of channels -/

theorem failHandshake_eq (h : c.channels.get? id = some ch) (ho : ch.closed = false)
    (cause : Fault) : c.failHandshake id cause = { c with
      channels := c.channels.insert id ch.giveUpParked
      ledger := c.ledger.resolveAll ch.parkedTickets (.failed cause)
      journal := c.journal.push (.event ⟨id, .failed cause⟩) }.close id .reset := by
  rw [failHandshake, h]
  dsimp only
  rw [ho, failParked_eq h]
  rfl

/-- A handshake that fails is reported with its cause, and then its channel is closed. -/
theorem failHandshake_closes (h : c.channels.get? id = some ch) (ho : ch.closed = false)
    (cause : Fault) :
    ∃ d : Connection, c.failHandshake id cause = d.close id .reset ∧
      d.channels.get? id = some ch.giveUpParked ∧
      d.journal = c.journal.push (.event ⟨id, .failed cause⟩) :=
  ⟨_, failHandshake_eq h ho cause, Table.get?_insert_self .., rfl⟩

theorem stream_of_insert (t : Table Channel) (id : ChannelId) {stream : StreamId}
    (hs : ch.stream = stream) (e : Channel) (he : (t.insert id ch).get? id = some e) :
    e.stream = stream := by
  rw [Table.get?_insert_self] at he
  rw [← Option.some.inj he, hs]

theorem encoderPath_close (id : ChannelId) (kind : CloseKind) :
    EncoderPath k ⟨c, ws⟩ ⟨c.close id kind, ws⟩ := by
  rcases close_cases c id kind with ⟨-, heq⟩ | ⟨ch, h, ho⟩
  · rw [heq]
    exact .refl _
  · refine (EncoderStep.ended kind ws h ho (.of_aloof (.refl c) h ho) ?_).path
    intro e he
    rw [Option.some.inj (h.symm.trans he)]

/-- The handshake of a channel fails, whose deadline may have passed. -/
theorem encoderPath_failHandshake (timers : Timers) (id : ChannelId) (cause : Fault) :
    EncoderPath k ⟨c, ws⟩ ⟨{ c with timers := timers }.failHandshake id cause, ws⟩ := by
  have htimers : Aloof k c { c with timers := timers } := { Aloof.refl c with }
  rcases failHandshake_cases { c with timers := timers } id cause with heq | ⟨ch, h, ho⟩
  · rw [heq]
    exact htimers.path ws
  · have h : c.channels.get? id = some ch := h
    rw [failHandshake_eq (c := { c with timers := timers }) h ho]
    exact (EncoderStep.ended .reset ws h ho
      (.set c id (leaving_of_open ho).giveUpParked c.registry _ timers
        (Journal.extends_push _ (minor_of rfl fun _ => rfl)))
      (stream_of_insert c.channels id rfl)).path

/-- Parked writes are failed, something is reported, and the channel is closed without a frame. -/
theorem encoderPath_part (ht : c.Tidy) (id : ChannelId) (what : Happening) (cause : Fault) :
    EncoderPath k ⟨c, ws⟩ ⟨((c.failParked id cause).emit id what).close id .remote, ws⟩ := by
  cases ho : c.isOpen id with
  | false =>
    exact (((aloof_failParked ht ho cause).path ws).aloof (.emit _ id what)).trans
      (encoderPath_close id .remote)
  | true =>
    obtain ⟨ch, h, ho⟩ := isOpen_iff.mp ho
    rw [failParked_eq h]
    exact (EncoderStep.ended .remote ws h ho
      (.set c id (leaving_of_open ho).giveUpParked c.registry _ c.timers
        (Journal.extends_push _ (minor_of rfl fun _ => rfl)))
      (stream_of_insert c.channels id rfl)).path

theorem encoderPath_resetArrived (ht : c.Tidy) (id : ChannelId) (reason : Reason) :
    EncoderPath k ⟨c, ws⟩ ⟨c.resetArrived id reason, ws⟩ := by
  rw [resetArrived]
  split
  · exact .refl _
  · have hnoted : Aloof k c (c.updateChannel id fun ch =>
        { ch with remoteReset := true }.noteInitiator .theirs) :=
      .update c id fun ch _ => ⟨rfl, rfl, rfl, rfl, fun _ => rfl, fun h => h, fun _ => rfl,
        fun _ => rfl⟩
    have htidy : (c.updateChannel id fun ch =>
        { ch with remoteReset := true }.noteInitiator .theirs).Tidy :=
      ht.plain (k := k) (.update c id fun _ => rfl)
    exact (hnoted.path ws).trans (encoderPath_part htidy id _ _)

/-! ## Handshakes that begin -/

section

variable {c₁ c₂ : Connection} {stream : StreamId} {f : WriteFault}

theorem encoderPath_unreserved (hres : c.reserve id = (.error f, c₁)) :
    EncoderPath k ⟨c, ws⟩ ⟨c₁.failHandshake id (.write f), ws⟩ := by
  obtain ⟨stream, rfl⟩ := reserve_eq_of_error hres
  have hreserved : Aloof k c (c.note (.wire (some id) ⟨.reserve stream, some f⟩)) :=
    .note (minor_of rfl fun _ => rfl)
  exact (hreserved.path ws).trans (encoderPath_failHandshake _ id (.write f))

variable (h : c.channels.get? id = some ch) (ho : ch.closed = false)
  (ha : ch.handshake = .awaitingSettings)
include h ho ha

theorem encoderPath_requested {block : HeaderBlock} (hres : c.reserve id = (.ok stream, c₁))
    (hsub : (c₁.assignStream id stream).submit (some id) (.headers stream block false) =
      (none, c₂)) :
    EncoderPath k ⟨c, ws⟩
      ⟨c₂.updateChannel id fun ch => { ch with handshake := .requestSent }, ws⟩ := by
  rw [updateChannel_eq (get?_assigned h hres hsub), assigned_eq h hres hsub]
  dsimp only
  rw [Table.insert_insert]
  exact (EncoderStep.requested block ws h ho ha).path

theorem encoderPath_requestRefused {block : HeaderBlock} (hres : c.reserve id = (.ok stream, c₁))
    (hsub : (c₁.assignStream id stream).submit (some id) (.headers stream block false) =
      (some f, c₂)) :
    EncoderPath k ⟨c, ws⟩ ⟨c₂.failHandshake id (.write f), ws⟩ := by
  have hch := get?_assigned h hres hsub
  obtain rfl := assigned_eq h hres hsub
  rw [failHandshake_eq hch (by exact ho)]
  simp only [Table.insert_insert]
  have hleaving : ch.Leaving { ch with stream := stream, cachedWeight := none } :=
    { leaving_of_open ho with stream := .inr ha }
  have hheaders : c.Minor (.wire (some id) ⟨.headers stream block false, some f⟩) := by
    refine ⟨rfl, fun j hj => .inl ?_⟩
    have hid : id = j := by simpa [Entry.isFrameOf, WireCall.isFrame] using hj
    exact hid ▸ isOpen_iff.mpr ⟨ch, h, ho⟩
  have hstream := stream_of_insert c.channels id
    (rfl : ({ ch with stream := stream, cachedWeight := none }).giveUpParked.stream = stream)
  refine (EncoderStep.requestRefused block f ws h ho ha
    (.set c id hleaving.giveUpParked _ _ c.timers
      ((((Journal.Extends.refl _).push (minor_of rfl fun _ => rfl)).push hheaders).push
        (minor_of rfl fun _ => rfl))) hstream ?_).path
  simp only [Journal.push, List.append_assoc, List.cons_append, List.nil_append]

end

theorem encoderPath_accept (ht : c.Tidy) {stream : StreamId} (path : String)
    (subprotocol : Option String) (compression : Option Deflate.Terms)
    (hrole : c.config.role = .server) :
    EncoderPath k ⟨c, ws⟩ ⟨c.accept stream path subprotocol compression, ws⟩ := by
  rw [accept_eq]
  generalize (Connect.Response.accepting subprotocol _).toHeaders = block
  split
  next f d heq =>
    obtain ⟨hfault, rfl⟩ := Prod.mk.inj heq
    rw [hfault]
    have hchannels : (c.enrol stream path subprotocol compression).channels.erase c.nextChannel =
        c.channels := Table.erase_insert ht.get?_nextChannel _
    have hheaders : c.Minor (.wire (some c.nextChannel) ⟨.headers stream block false, some f⟩) := by
      refine ⟨rfl, fun j hj => .inr ?_⟩
      have hid : c.nextChannel = j := by simpa [Entry.isFrameOf, WireCall.isFrame] using hj
      exact Nat.le_of_eq hid
    refine Aloof.path ?_ ws
    exact
      { config := rfl
        encoder := .inl rfl
        nextChannel := Nat.le_succ _
        channels := .of_get?_eq .refl fun j => congrArg (fun t => t.get? j) hchannels
        inflight := fun _ _ he => he
        journal := Journal.extends_push _ hheaders }
  next d heq =>
    obtain ⟨hfault, rfl⟩ := Prod.mk.inj heq
    rw [hfault]
    have henrolled : EncoderStep k ⟨c, ws⟩ ⟨{ c.enrol stream path subprotocol compression with
        journal := c.journal.push
          (.wire (some c.nextChannel) ⟨.headers stream block false, none⟩) }, ws⟩ :=
      .enrolled path subprotocol compression block ws hrole
    exact (henrolled.path.aloof
      (.told _ (Journal.extends_push _ (minor_of rfl fun _ => rfl)) _)).aloof (.emit _ _ _)

/-! ## Reading -/

theorem aloof_handOver (c : Connection) (id : ChannelId) (stream : StreamId) (item : Inbound)
    (rest : List Inbound) : Aloof k c (c.handOver id stream item rest) := by
  have hnoted : Aloof k c (c.note (.delivered id item)) := .note (minor_of rfl fun _ => rfl)
  have hspent (d : Connection) (reports : Bool) : Aloof k d (d.updateChannel id fun ch =>
      { ch with
        inbound := rest, budget := ch.budget - 1, endReported := ch.endReported || reports }) :=
    .update d id fun _ _ => .of_eq rfl rfl rfl rfl rfl rfl rfl
  cases item with
  | data payload endStream =>
    have htold := (hnoted.trans (.emit _ id (.read payload))).trans
      (.note (minor_of (e := .wire (some id) ⟨.consume stream payload.length, none⟩) rfl
        fun _ => rfl))
    rw [handOver]
    split
    · exact (htold.trans (hspent ..)).trans (.emit ..)
    · exact htold.trans (hspent ..)
  | trailers =>
    rw [handOver]
    split
    · exact (hnoted.trans (hspent ..)).trans (.emit ..)
    · exact hnoted.trans (hspent ..)

theorem aloof_flushChannel (c : Connection) (id : ChannelId) : Aloof k c (c.flushChannel id) := by
  have hflushed : Aloof k c (c.updateChannel id fun ch => { ch with unflushed := false }) :=
    .update c id fun _ _ => .of_eq rfl rfl rfl rfl rfl rfl rfl
  exact hflushed.trans (.flush _)

theorem encoderPath_settle (id : ChannelId) : EncoderPath k ⟨c, ws⟩ ⟨c.settle id, ws⟩ := by
  rw [settle]
  split
  · exact .refl _
  · split
    · exact encoderPath_close id .remote
    · split
      · exact (aloof_flushChannel c id).path ws
      · exact .refl _

theorem encoderPath_readStep (h : ReadStep c c') : EncoderPath k ⟨c, ws⟩ ⟨c', ws⟩ := by
  cases h with
  | requested id => exact EncoderStep.path (.aloof ws (.update c id fun ch _ => .requestRead ch _))
  | automated id on =>
    exact EncoderStep.path (.aloof ws (.update c id fun _ _ => .of_eq rfl rfl rfl rfl rfl rfl rfl))
  | delivered id =>
    exact deliver_rel (R := fun c d => EncoderPath k ⟨c, ws⟩ ⟨d, ws⟩) (fun _ => .refl _) .trans
      (fun c stream item rest => (aloof_handOver c id stream item rest).path ws)
      (fun _ => encoderPath_settle id) c
  | completed id =>
    cases h : c.channels.get? id with
    | none => rw [fireReadComplete, h]; exact .refl _
    | some ch =>
      have hfinished : ch.Constant (ch.finishRead c.config.messagesPerRead) :=
        .of_eq rfl rfl rfl rfl rfl rfl rfl
      rw [fireReadComplete_eq h]
      exact ((Aloof.insert h hfinished).path ws).aloof (.emit _ id .readComplete)
  | @queued id batch _ =>
    have hbatch : Aloof k c { c with batch := batch } := { Aloof.refl c with }
    exact (hbatch.path ws).aloof
      (.update _ id fun _ _ => .of_eq rfl rfl rfl rfl rfl rfl rfl)
  | drainBegun | drainFinished | cycleEnded =>
    exact EncoderStep.path (.aloof ws { Aloof.refl c with })
  | swept =>
    have hswept : Aloof k c { c with channels := c.channels.mapEntries fun _ => flushed } :=
      { Aloof.refl c with
        channels := .mapEntries _ fun _ _ => .of_eq rfl rfl rfl rfl rfl rfl rfl }
    exact (hswept.path ws).aloof (.flush _)

theorem encoderPath_readPath (h : ReadPath c c') : EncoderPath k ⟨c, ws⟩ ⟨c', ws⟩ := by
  induction h with
  | refl => exact .refl _
  | tail _ hstep ih => exact ih.trans (encoderPath_readStep hstep)

/-! ## Registered channels have asked

A frame that arrives finds its channel in the registry, and a channel is entered there when its
request is handed to the encoder. -/

/-- The channels in the registry do not wait for the peer's settings. -/
structure Enlisted (c : Connection) : Prop where
  numbered : ∀ s id, c.registry.get? s = some (.active id) → id < c.nextChannel
  asked : ∀ s id ch, c.registry.get? s = some (.active id) → c.channels.get? id = some ch →
    ch.handshake ≠ .awaitingSettings

namespace Enlisted

/-- Nothing was entered, and no channel has begun to wait. -/
theorem of_back (hc : c.Enlisted)
    (hregistry : ∀ s id, c'.registry.get? s = some (.active id) →
      c.registry.get? s = some (.active id))
    (hnext : c.nextChannel ≤ c'.nextChannel)
    (hchannels : ∀ id ch', c'.channels.get? id = some ch' → ch'.handshake = .awaitingSettings →
      c.nextChannel ≤ id ∨ ∃ ch, c.channels.get? id = some ch ∧ ch.handshake = .awaitingSettings) :
    c'.Enlisted where
  numbered s id h := Nat.lt_of_lt_of_le (hc.numbered s id (hregistry s id h)) hnext
  asked s id ch' h hch' ha := by
    have hactive := hregistry s id h
    rcases hchannels id ch' hch' ha with hnew | ⟨ch, hch, ha⟩
    · exact Nat.not_lt.mpr hnew (hc.numbered s id hactive)
    · exact hc.asked s id ch hactive hch ha

theorem close (hc : c.Enlisted) (id : ChannelId) (kind : CloseKind) :
    (c.close id kind).Enlisted := by
  rcases close_cases c id kind with ⟨-, heq⟩ | ⟨ch, h, ho⟩
  · rw [heq]; exact hc
  · obtain ⟨_, _, _, _, heq, -⟩ := close_eq h ho kind
    rw [heq]
    refine hc.of_back (fun s j hj => (get?_retired_eq_active.mp hj).1) (Nat.le_refl _) ?_
    intro j ch' hj ha
    rcases Table.get?_insert_cases hj with ⟨-, rfl⟩ | hj
    · exact absurd (ch.isPending_shut kind) (by rw [ha]; decide)
    · exact .inr ⟨ch', hj, ha⟩

theorem quiet (hc : c.Enlisted) (h : Quiet c c') : c'.Enlisted := by
  refine hc.of_back (fun _ _ hr => h.registry ▸ hr) (Nat.le_of_eq h.nextChannel.symm) ?_
  intro id ch' hch' ha
  obtain ⟨ch, hch, halike⟩ := h.channels.back hch'
  exact .inr ⟨ch, hch, halike.handshake.symm.trans ha⟩

theorem readPath (hc : c.Enlisted) (h : ReadPath c c') : c'.Enlisted :=
  h.induction (fun _ _ hq hc => hc.quiet hq) (fun _ id hc => hc.close id .remote) hc

theorem registryStep (hc : c.Enlisted) (ht : c.Tidy) {strict : Prop}
    (h : RegistryStep strict c c') :
    c'.Enlisted := by
  cases h with
  | beside h =>
    refine hc.of_back (fun s _ hr => h.registry s ▸ hr) (Nat.le_of_eq h.nextChannel.symm) ?_
    intro id ch' hch' ha
    obtain ⟨ch, hch, hakin⟩ := h.channels.back hch'
    exact .inr ⟨ch, hch, hakin.awaiting ha⟩
  | closed id kind => exact hc.close id kind
  | made path =>
    refine hc.of_back (fun _ _ hr => hr) (Nat.le_succ _) ?_
    intro id ch' hch' ha
    rcases Table.get?_insert_cases hch' with ⟨hid, -⟩ | hch'
    · exact .inl (Nat.le_of_eq hid.symm)
    · exact .inr ⟨ch', hch', ha⟩
  | @assigned id ch stream handshake h _ _ hhand _ =>
    have hentered : ∀ s j, (c.registry.insert stream id).get? s = some (.active j) →
        j = id ∨ c.registry.get? s = some (.active j) := by
      intro s j hj
      rw [Registry.get?_insert] at hj
      split at hj
      · exact .inl (Slot.active.inj (Option.some.inj hj)).symm
      · exact .inr hj
    constructor
    · intro s j hj
      rcases hentered s j hj with rfl | hj
      · exact ht.numbered h
      · exact hc.numbered s j hj
    · intro s j d hj hd
      rw [Table.get?_insert] at hd
      split at hd
      · rw [← Option.some.inj hd]
        exact hhand
      next hne => exact hc.asked s j d ((hentered s j hj).resolve_left hne) hd
  | forgotten _ _ _ _ =>
    refine hc.of_back ?_ (Nat.le_refl _) fun j ch' hj ha => .inr ⟨ch', Table.get?_of_erase hj, ha⟩
    intro s j hj
    rw [Registry.get?_remove] at hj
    split at hj
    · cases hj
    · exact hj
  | @ended id ch h _ _ _ =>
    refine hc.of_back (fun _ _ hr => hr) (Nat.le_refl _) ?_
    intro j ch' hj ha
    rcases Table.get?_insert_cases hj with ⟨rfl, rfl⟩ | hj
    · exact .inr ⟨ch, h, ha⟩
    · exact .inr ⟨ch', hj, ha⟩
  | expired stream =>
    exact hc.of_back (fun _ _ hr => Registry.get?_removeClosed_eq_active.mp hr) (Nat.le_refl _)
      fun _ ch' hch' ha => .inr ⟨ch', hch', ha⟩
  | tornDown _ =>
    exact hc.of_back (fun _ _ hr => hr) (Nat.le_refl _)
      fun _ ch' hch' ha => .inr ⟨ch', Table.get?_of_erase hch', ha⟩
  | cleared _ =>
    refine hc.of_back ?_ (Nat.le_refl _) fun _ ch' hch' ha => .inr ⟨ch', hch', ha⟩
    intro s j hj
    rw [Registry.get?_clear] at hj
    cases hj
  | received item h _ =>
    exact (hc.quiet (.insert h _ (alike_receive _ item) _)).readPath (readPath_receive ..)
  | cycleEnded => exact hc.readPath (readPath_readCycleEnded c)
  | readBegun id => exact hc.readPath (readPath_beginRead c id)
  | autoReadSet id on => exact hc.readPath (readPath_setAutoRead c id on)

theorem registryPath (hc : c.Enlisted) (ht : c.Tidy) {strict : Prop}
    (h : RegistryPath strict c c') :
    c'.Enlisted := by
  have hboth : c'.Tidy ∧ c'.Enlisted := h.induction (P := fun d => d.Tidy ∧ d.Enlisted)
    (fun _ _ hs hd => ⟨hd.1.registryStep hs, hd.2.registryStep hd.1 hs⟩) ⟨ht, hc⟩
  exact hboth.2

end Enlisted

/-! ## Changes -/

theorem encoderPath_fireTimer (t : Timer) (timers : Timers) :
    EncoderPath k ⟨c, ws⟩ ⟨{ c with timers := timers }.fireTimer t, ws⟩ := by
  cases t with
  | registryRemoval stream => exact EncoderStep.path (.aloof ws { Aloof.refl c with })
  | handshakeTimeout id =>
    rw [fireTimer]
    split
    · exact encoderPath_failHandshake timers id _
    · exact EncoderStep.path (.aloof ws { Aloof.refl c with })

theorem encoderPath_runTask (ht : c.Tidy) {t : Task} {tasks : List Task}
    (h : c.tasks = t :: tasks) :
    EncoderPath k ⟨c, ws⟩ ⟨{ c with tasks := tasks }.runTask t, ws⟩ := by
  have htasks : Aloof k c { c with tasks := tasks } := { Aloof.refl c with }
  cases t with
  | reportWritability id on =>
    rw [runTask]
    split
    · exact (htasks.path ws).aloof (.emit _ id _)
    · exact htasks.path ws
  | tearDown id =>
    have htorn : EncoderStep k ⟨c, ws⟩
        ⟨{ c with tasks := tasks, channels := c.channels.erase id }, ws⟩ :=
      .tornDown tasks ws (ht.doomed (h ▸ List.mem_cons_self)).2
    rw [runTask]
    split
    · exact (htorn.path.aloof (.emit _ id .inactive)).aloof (.emit _ id .unregistered)
    · exact htasks.path ws

/-- Every change is made of such steps. -/
theorem encoderPath_change {strict : Prop} (ht : c.Tidy) (he : c.Enlisted)
    (h : Change strict k c c')
    (ws : List LooseWrite) : EncoderPath k ⟨c, ws⟩ ⟨c', ws⟩ := by
  cases h with
  | around encoder journal ledger clock hentries _ _ _ hencoder =>
    have haround : Aloof k c { c with
        encoder := encoder, journal := journal, ledger := ledger, clock := clock } :=
      { Aloof.refl (k := k) c with encoder := hencoder, journal := .of_eq hentries }
    exact haround.path ws
  | cycleBegun => exact EncoderStep.path (.aloof ws { Aloof.refl c with })
  | settingsNoted s => exact (aloof_noteSettings c s).path ws
  | endNoted => exact EncoderStep.path (.aloof ws { Aloof.refl c with })
  | forwarded f =>
    exact EncoderStep.path
      (.aloof ws (.told c (Journal.extends_push _ (minor_of rfl fun _ => rfl)) _))
  | discarded frames bytes => exact EncoderStep.path (.aloof ws (.told c (.refl _) _))
  | resetArrived id reason => exact encoderPath_resetArrived ht id reason
  | noticed id what => exact (Aloof.emit c id what).path ws
  | flushed => exact (Aloof.flush c).path ws
  | asked path subprotocol hrole => exact (EncoderStep.asked path subprotocol ws hrole).path
  | unreserved _ _ _ hres => exact encoderPath_unreserved hres
  | requested h ho ha hres _ hsub => exact encoderPath_requested h ho ha hres hsub
  | requestRefused h ho ha hres _ hsub => exact encoderPath_requestRefused h ho ha hres hsub
  | handshakeFailed id cause => exact encoderPath_failHandshake c.timers id cause
  | refused stream status =>
    exact ((Aloof.submit c none _ fun _ => minor_of rfl fun _ => rfl).path ws).aloof (.flush _)
  | answered path subprotocol compression hrole =>
    exact encoderPath_accept ht path subprotocol compression hrole
  | received item h _ _ hr =>
    obtain ⟨stream, hactive⟩ := hr
    have hreceived := Aloof.insert (k := k) h (.receive item (he.asked _ _ _ hactive h))
    exact (hreceived.path ws).trans (encoderPath_readPath (readPath_receive ..))
  | cycleEnded => exact encoderPath_readPath (readPath_readCycleEnded c)
  | readBegun id => exact encoderPath_readPath (readPath_beginRead c id)
  | autoReadSet id on => exact encoderPath_readPath (readPath_setAutoRead c id on)
  | issued o => exact EncoderStep.path (.aloof ws { Aloof.refl c with })
  | writeSettled fault => exact (aloof_settleWrite c _ _ fault).path ws
  | writeFailed id => exact (EncoderStep.failed c id ws).path
  | channelFlushed id => exact (aloof_flushChannel c id).path ws
  | weightCached weight =>
    exact EncoderStep.path (.aloof ws (.update c _ fun _ _ => .of_eq rfl rfl rfl rfl rfl rfl rfl))
  | weightSent id stream weight ho => exact (aloof_sendPriority ho stream weight).path ws
  | closed id kind => exact encoderPath_close id kind
  | inflightLost => exact EncoderStep.path (.aloof ws { Aloof.refl c with inflight := nofun })
  | channelLost id => exact encoderPath_part ht id _ _
  | cleared =>
    exact EncoderStep.path (.aloof ws { Aloof.refl c with
      journal := Journal.extends_push _ (minor_of rfl fun _ => rfl) })
  | recovered id => exact (aloof_recoverChannel c id).path ws
  | timerFired => exact encoderPath_fireTimer _ _
  | taskRun h => exact encoderPath_runTask ht h

/-! ## Calls -/

/-- Every step of a call is made of encoder steps. -/
theorem encoderPath_callStep {strict : Prop} (ht : s.conn.Tidy) (hb : Balanced s)
    (he : s.conn.Enlisted)
    (h : CallStep strict k s t) : EncoderPath k s t := by
  cases h with
  | change ws h => exact encoderPath_change ht he h ws
  | @takenUp c id ch payload hk hc h ho hout =>
    have hissued : Aloof k c (c.issue .held).2 := { Aloof.refl c with }
    exact (EncoderStep.takenUp c.ledger.next hk hc h ho hout
      (hissued.trans (.countBytes (c := (c.issue .held).2) h _))).path
  | parked h ho hp hpush =>
    rw [updateChannel_eq h]
    exact (EncoderStep.parked h ho hp hpush).path
  | unparked subprotocol compression h hs =>
    have htake := (hb.parking _ _ h).take_eq (by rw [hs]; rfl)
    rw [markComplete, Table.modify_eq_insert h, htake]
    exact (EncoderStep.unparked subprotocol compression h (ht.open_of_requestSent h hs) hs).path
  | sent h ho hp hs hsub =>
    obtain ⟨hfault, rfl⟩ := Prod.mk.inj hsub
    subst hs
    rw [hfault]
    exact (EncoderStep.sent h ho hp).path.aloof
      (.update _ _ fun _ _ => .of_eq rfl rfl rfl rfl rfl rfl rfl)
  | @bounced c c' w ws ch _ f h ho hp hs hsub =>
    have hsettled := aloof_settleWrite (k := k) c' c.nextWrite
      ⟨w.channel, w.payload.length, w.ticket⟩ (some f)
    have hinflight := (aside_settleWrite c' c.nextWrite
      ⟨w.channel, w.payload.length, w.ticket⟩ (some f)).inflight
    obtain ⟨hfault, rfl⟩ := Prod.mk.inj hsub
    subst hs
    rw [hfault] at hsettled hinflight ⊢
    refine (EncoderStep.bounced f h ho hp { hsettled with
      inflight := ?_, journal := hsettled.journal.mono fun e he => ⟨he.idle, he.frame⟩ }).path
    intro v e he
    rw [hinflight, Table.get?_erase] at he
    split at he
    · cases he
    next hne => exact (Table.get?_insert_of_ne hne ..).symm.trans he
  | @dropped c w ws h =>
    have hclosed : c.isOpen w.channel = false := by
      apply Bool.eq_false_iff.mpr
      intro hopen
      obtain ⟨ch, hch, ho⟩ := isOpen_iff.mp hopen
      obtain ⟨hp, hs⟩ := h ch hch ho
      exact absurd (hs.symm.trans ((hb.parking _ _ hch).pending hp)) (by decide)
    exact EncoderStep.path (.dropped hclosed { Aloof.refl c with })

/-! ## Calls -/

theorem encoderPath_callPath {strict : Prop} (ht : s.conn.Tidy) (hb : Balanced s)
    (he : s.conn.Enlisted)
    (h : CallPath strict k s t) : EncoderPath k s t := by
  have hall : (t.conn.Tidy ∧ Balanced t ∧ t.conn.Enlisted) ∧ EncoderPath k s t := by
    refine CallPath.induction
      (P := fun u => (u.conn.Tidy ∧ Balanced u ∧ u.conn.Enlisted) ∧ EncoderPath k s u) ?_ h
      ⟨⟨ht, hb, he⟩, .refl s⟩
    rintro u v hm ⟨⟨hut, hub, hue⟩, hu⟩
    exact ⟨⟨tidy_callStep hut hm, hub.callStep hut hm,
        hue.registryPath hut (registryPath_callStep hm)⟩,
      hu.trans (encoderPath_callStep hut hub hue hm)⟩
  exact hall.2

theorem enlisted_run {config : Config} {encoder : Encoder} (h : start config encoder = .ok c)
    (ks : List Call) : (c.run ks).Enlisted := by
  refine Enlisted.registryPath ?_ (tidy_start h) (registryPath_run c ks (False.elim : False → _))
  rw [(start_eq h).1]
  exact ⟨fun _ _ hr => (nomatch hr), fun _ _ _ hr => (nomatch hr)⟩

/-- Every call of a run is made of such steps. -/
theorem encoderPath_after {config : Config} {encoder : Encoder} (h : start config encoder = .ok c)
    (ks : List Call) (k : Call) :
    EncoderPath ⟨c.run ks, k⟩ ⟨c.run ks, []⟩ ⟨(c.run ks).after k, []⟩ :=
  have hregular := (Regular.of_start h).run ks
  encoderPath_callPath hregular.tidy hregular.balanced (enlisted_run h ks)
    (callPath_after (c.run ks) k (False.elim : False → _))

/-- What every step keeps holds after every run. -/
theorem encoderPath_induction {config : Config} {encoder : Encoder}
    (h : start config encoder = .ok c)
    {P : Connection → Prop} (step : ∀ k s t, EncoderStep k s t → P s.conn → P t.conn) (hc : P c)
    (ks : List Call) : P (c.run ks) := by
  induction ks using List.reverseRecOn with
  | nil => exact hc
  | append_singleton ks k ih =>
    rw [run_concat]
    exact (encoderPath_after h ks k).induction (P := fun s => P s.conn) (step _) ih

end Connection

end ChannelMux
