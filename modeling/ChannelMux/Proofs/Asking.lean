import ChannelMux.Proofs.Accounts
import ChannelMux.Proofs.QueueSteps
import ChannelMux.Proofs.Registration

/-!
# Asking: how a client opens its conversations

A client's channel waits for the peer's settings, asks for its conversation on a stream of its own,
and is answered.  `Channel.Phased` says what goes with each of the three, and `Asking` is what every
step keeps: besides that, which deadlines are armed, and that each channel has asked at most once.
A channel never waits when the settings are known or the end of the connection is announced; this
holds between calls only, since a channel that is opened then waits for a moment.
-/

namespace ChannelMux

/-! ## What was asked for -/

namespace WireEntry

def isReserve (e : WireEntry) : Bool :=
  match e.call with
  | .reserve _ => true
  | _ => false

def isHeaders (e : WireEntry) : Bool :=
  match e.call with
  | .headers .. => true
  | _ => false

end WireEntry

/-- The streams that were reserved for a channel, and the headers that were sent for it. -/
def Journal.asked (j : Journal) (id : ChannelId) : List WireEntry :=
  (j.wireFor id).filter fun e => e.isReserve || e.isHeaders

namespace Journal

variable {j j' : Journal} {id : ChannelId}

/-- The part of an entry that tells what was asked for. -/
def askedIn (id : ChannelId) (e : Entry) : Option WireEntry :=
  (e.wireFor? id).filter fun e => e.isReserve || e.isHeaders

theorem asked_eq (j : Journal) (id : ChannelId) :
    j.asked id = j.entries.filterMap (askedIn id) := by
  rw [asked, wireFor, List.filter_filterMap]
  rfl

theorem asked_push (j : Journal) (e : Entry) (id : ChannelId) :
    (j.push e).asked id = j.asked id ++ (askedIn id e).toList := by
  rw [asked_eq, asked_eq, entries_push, List.filterMap_append]
  cases h : askedIn id e <;> simp [h]

theorem askedIn_own (id : ChannelId) {e : WireEntry} (he : (e.isReserve || e.isHeaders) = true) :
    askedIn id (.wire (some id) e) = some e := by
  rw [askedIn, Entry.wireFor?, if_pos rfl, Option.filter_some, if_pos he]

theorem askedIn_other {j : ChannelId} (hj : j ≠ id) (e : WireEntry) :
    askedIn j (.wire (some id) e) = none := by
  rw [askedIn, Entry.wireFor?, if_neg fun heq => hj (Option.some.inj heq).symm, Option.filter_none]

theorem askedIn_of_isPlain {e : Entry} (h : e.isPlain = true) (id : ChannelId) :
    askedIn id e = none := by
  cases e with
  | event | delivered | closed => rfl
  | wire owner e =>
    rw [askedIn, Entry.wireFor?]
    split
    next howner =>
      obtain ⟨call, fault⟩ := e
      cases call with
      | reserve | headers =>
        rw [Entry.isPlain, howner] at h
        cases h
      | _ => rfl
    next => rfl

theorem asked_of_plain (h : j.Extends (fun e => e.isPlain = true) j') (id : ChannelId) :
    j'.asked id = j.asked id := by
  rw [asked_eq, asked_eq]
  exact h.filterMap_eq fun e he => askedIn_of_isPlain he id

theorem asked_report (j : Journal) (id : ChannelId) (stream : StreamId) (item : Inbound)
    (i : ChannelId) : (j.report id stream item).asked i = j.asked i := by
  cases item with
  | trailers => rfl
  | data payload endStream =>
    have hconsume : askedIn i (.wire (some id) ⟨.consume stream payload.length, none⟩) = none := by
      rw [askedIn, Entry.wireFor?]
      split <;> rfl
    rw [report, asked_push, asked_push, hconsume]
    simp [askedIn, Entry.wireFor?]

theorem Turned.asked (h : j.Turned id j') (i : ChannelId) : j'.asked i = j.asked i := by
  rw [asked_eq, asked_eq]
  refine Extends.filterMap_eq h ?_
  rintro _ rfl
  rfl

theorem countP_asked (j : Journal) (id : ChannelId) {p : WireEntry → Bool}
    (hp : ∀ e, p e = true → (e.isReserve || e.isHeaders) = true) :
    (j.wireFor id).countP p = (j.asked id).countP p := by
  rw [asked, List.countP_filter]
  refine List.countP_congr fun e _ => ?_
  simp only [Bool.and_eq_true]
  exact ⟨fun h => ⟨h, hp e h⟩, fun h => h.1⟩

end Journal

namespace Channel.FailedStart

variable {ch : Channel} {id j : ChannelId} {es : List Entry}

/-- A failed attempt to start a handshake asks for nothing in the name of others. -/
theorem others (h : ch.FailedStart id es) (hj : j ≠ id) :
    es.filterMap (Journal.askedIn j) = [] := by
  cases h with
  | none => rfl
  | unreserved | refused =>
    simp only [List.filterMap_cons, Journal.askedIn_other hj, List.filterMap_nil]

/-- It asks for no more than a conversation needs. -/
theorem own (h : ch.FailedStart id es) : es.filterMap (Journal.askedIn id) = [] ∨
    ch.handshake = .awaitingSettings ∧
      (es.filterMap (Journal.askedIn id)).countP WireEntry.isReserve ≤ 1 ∧
      (es.filterMap (Journal.askedIn id)).countP WireEntry.isHeaders ≤ 1 := by
  cases h with
  | none => exact .inl rfl
  | unreserved stream f ha =>
    rw [List.filterMap_cons, Journal.askedIn_own id rfl]
    exact .inr ⟨ha, Nat.le_refl _, Nat.zero_le _⟩
  | refused stream block f ha =>
    rw [List.filterMap_cons, List.filterMap_cons, Journal.askedIn_own id rfl,
      Journal.askedIn_own id rfl]
    exact .inr ⟨ha, Nat.le_refl _, Nat.le_refl _⟩

end Channel.FailedStart

/-! ## Phases -/

/-- What goes with the phase of a channel that is open. -/
structure Channel.Phased (ch : Channel) : Prop where
  alive : ch.handshake ≠ .failed
  streamless : ch.stream = 0 ↔ ch.handshake = .awaitingSettings
  settled : ch.parked.settled = true ↔ ch.handshake = .complete
  cached : ch.cachedWeight ≠ none → ch.stream = 0

/-- The second channel is in the phase of the first, with all that goes with it. -/
structure Channel.SamePhase (ch ch' : Channel) : Prop where
  closed : ch'.closed = ch.closed
  handshake : ch'.handshake = ch.handshake
  stream : ch'.stream = ch.stream
  settled : ch'.parked.settled = ch.parked.settled
  cached : ch'.cachedWeight = ch.cachedWeight ∨ ch.stream = 0

namespace Channel

variable {ch ch' : Channel}

theorem SamePhase.of_core (h : ch'.core = ch.core) : ch.SamePhase ch' where
  closed := congrArg Core.closed h
  handshake := congrArg Core.handshake h
  stream := congrArg Core.stream h
  settled := congrArg (fun k => k.parked.settled) h
  cached := .inl (congrArg Core.cachedWeight h)

theorem SamePhase.refl (ch : Channel) : ch.SamePhase ch := .of_core rfl

theorem SamePhase.receive (ch : Channel) (item : Inbound) : ch.SamePhase (ch.receive item) := by
  rw [Channel.receive]
  dsimp only
  split <;> exact ⟨rfl, rfl, rfl, rfl, .inl rfl⟩

theorem Phased.same (h : ch.Phased) (hs : ch.SamePhase ch') : ch'.Phased where
  alive := hs.handshake ▸ h.alive
  streamless := by rw [hs.stream, hs.handshake]; exact h.streamless
  settled := by rw [hs.settled, hs.handshake]; exact h.settled
  cached hc := by
    rw [hs.stream]
    rcases hs.cached with heq | h0
    · exact h.cached (heq ▸ hc)
    · exact h0

end Channel

namespace Connection

variable {k : Cause} {c c' : Connection} {id j : ChannelId} {ch ch' : Channel} {s t : Stage}

/-- How far the handshake of a channel has come, if the channel is open. -/
def phase (c : Connection) (id : ChannelId) : Option Handshake :=
  ((c.channels.get? id).filter fun ch => !ch.closed).map Channel.handshake

theorem phase_of_open (h : c.channels.get? id = some ch) (ho : ch.closed = false) :
    c.phase id = some ch.handshake := by
  rw [phase, h, Option.filter_some, ho]
  rfl

theorem phase_eq_some_iff {p : Handshake} : c.phase id = some p ↔
    ∃ ch, c.channels.get? id = some ch ∧ ch.closed = false ∧ ch.handshake = p := by
  simp [phase, Option.filter_eq_some_iff, and_assoc]

theorem phase_eq_none_iff : c.phase id = none ↔ c.isOpen id = false := by
  rw [phase, isOpen]
  cases c.channels.get? id with
  | none => simp
  | some ch => cases ho : ch.closed <;> simp [ho]

theorem phase_congr (h : c'.channels.get? id = c.channels.get? id) : c'.phase id = c.phase id := by
  rw [phase, phase, h]

theorem phase_insert (hchannels : c'.channels = c.channels.insert id ch') (j : ChannelId) :
    c'.phase j = if j = id then (if ch'.closed then none else some ch'.handshake)
      else c.phase j := by
  rw [phase, hchannels, Table.get?_insert]
  split
  next => rw [Option.filter_some]; cases ch'.closed <;> rfl
  next => rfl

/-- A closed channel, or one that is not there, has no phase. -/
theorem phase_eq_none (h : ∀ ch, c.channels.get? id = some ch → ch.closed = true) :
    c.phase id = none := by
  refine Option.eq_none_iff_forall_ne_some.mpr fun p hp => ?_
  obtain ⟨ch, hch, ho, -⟩ := phase_eq_some_iff.mp hp
  exact absurd (ho.symm.trans (h ch hch)) (by decide)

/-! ## What every step keeps -/

/-- What holds of the conversations of a client at any time. -/
structure Asking (c : Connection) : Prop where
  client : c.config.role = .client
  phased : ∀ id ch, c.channels.get? id = some ch → ch.closed = false → ch.Phased
  armed : ∀ id, c.timers.Armed (.handshakeTimeout id) ↔
    c.config.handshakeTimeout ≠ none ∧ (c.phase id).any Handshake.isPending = true
  once : ∀ id, (c.journal.asked id).countP WireEntry.isReserve ≤ 1 ∧
    (c.journal.asked id).countP WireEntry.isHeaders ≤ 1
  unasked : ∀ id, c.nextChannel ≤ id ∨ c.phase id = some .awaitingSettings → c.journal.asked id = []

namespace Asking

/-- No phase changes, and nobody asks. -/
theorem of_phase (h : c.Asking) (hconfig : c'.config = c.config)
    (hnext : c'.nextChannel = c.nextChannel)
    (htimers : ∀ id, c'.timers.Armed (.handshakeTimeout id) ↔
      c.timers.Armed (.handshakeTimeout id))
    (hasked : ∀ id, c'.journal.asked id = c.journal.asked id)
    (hphase : ∀ id, c'.phase id = c.phase id)
    (hphased : ∀ id ch, c'.channels.get? id = some ch → ch.closed = false → ch.Phased) :
    c'.Asking where
  client := hconfig ▸ h.client
  phased := hphased
  armed id := by rw [htimers, hconfig, hphase]; exact h.armed id
  once id := by rw [hasked]; exact h.once id
  unasked id := by rw [hnext, hphase, hasked]; exact h.unasked id

theorem of_same (h : c.Asking) (hchannels : c.channels.Matches Channel.SamePhase c'.channels)
    (hconfig : c'.config = c.config) (hnext : c'.nextChannel = c.nextChannel)
    (htimers : ∀ id, c'.timers.Armed (.handshakeTimeout id) ↔
      c.timers.Armed (.handshakeTimeout id))
    (hasked : ∀ id, c'.journal.asked id = c.journal.asked id) : c'.Asking := by
  refine h.of_phase hconfig hnext htimers hasked ?_ ?_
  · intro id
    cases hch : c.channels.get? id with
    | none =>
      refine (phase_eq_none fun ch' hch' => ?_).trans (phase_eq_none fun ch h => ?_).symm
      · obtain ⟨ch, h, -⟩ := hchannels.back hch'
        cases hch.symm.trans h
      · cases hch.symm.trans h
    | some ch =>
      obtain ⟨ch', hch', hsame⟩ := hchannels.forth hch
      rw [phase, phase, hch, hch', Option.filter_some, Option.filter_some, hsame.closed]
      cases ch.closed with
      | true => rfl
      | false => exact congrArg some hsame.handshake
  · intro id ch' hch' ho
    obtain ⟨ch, hch, hsame⟩ := hchannels.back hch'
    exact (h.phased id ch hch (hsame.closed.symm.trans ho)).same hsame

/-- One channel is made, or it comes to another phase. -/
theorem of_one (h : c.Asking) (hchannels : c'.channels = c.channels.insert id ch')
    (hconfig : c'.config = c.config) (hnext : c.nextChannel ≤ c'.nextChannel)
    (hid : id < c'.nextChannel) (hphased : ch'.closed = false → ch'.Phased)
    (htimer : c'.timers.Armed (.handshakeTimeout id) ↔ c.config.handshakeTimeout ≠ none ∧
      ch'.closed = false ∧ ch'.handshake.isPending = true)
    (htimers : ∀ j ≠ id, c'.timers.Armed (.handshakeTimeout j) ↔
      c.timers.Armed (.handshakeTimeout j))
    (hasked : ∀ j ≠ id, c'.journal.asked j = c.journal.asked j)
    (honce : (c'.journal.asked id).countP WireEntry.isReserve ≤ 1 ∧
      (c'.journal.asked id).countP WireEntry.isHeaders ≤ 1)
    (hunasked : ch'.closed = false → ch'.handshake = .awaitingSettings →
      c'.journal.asked id = []) : c'.Asking where
  client := hconfig ▸ h.client
  phased j d hd ho := by
    rw [hchannels] at hd
    rcases Table.get?_insert_cases hd with ⟨-, rfl⟩ | hd
    · exact hphased ho
    · exact h.phased j d hd ho
  armed j := by
    rw [phase_insert hchannels, hconfig]
    by_cases hj : j = id
    · rw [if_pos hj, hj, htimer]
      cases ch'.closed <;> simp
    · rw [if_neg hj, htimers j hj]
      exact h.armed j
  once j := by
    by_cases hj : j = id
    · rw [hj]
      exact honce
    · rw [hasked j hj]
      exact h.once j
  unasked j hj := by
    rw [phase_insert hchannels] at hj
    by_cases heq : j = id
    · rw [if_pos heq] at hj
      rw [heq]
      rcases hj with hle | hp
      · exact absurd (heq ▸ hle) (Nat.not_le_of_lt hid)
      · cases ho : ch'.closed with
        | true => rw [ho] at hp; cases hp
        | false =>
          rw [ho] at hp
          exact hunasked ho (Option.some.inj hp)
    · rw [if_neg heq] at hj
      rw [hasked j heq]
      exact h.unasked j (hj.imp_left (Nat.le_trans hnext))

/-- A channel begins its conversation. -/
theorem asked (h : c.Asking) (ht : c.Tidy) (path : String) (subprotocol : Option String) :
    (c.addAsking path subprotocol).2.Asking := by
  have hnone : c.journal.asked c.nextChannel = [] := h.unasked _ (.inl (Nat.le_refl _))
  have hpending : (c.newChannel path).handshake = .awaitingSettings := if_pos h.client
  have hphased : { c.newChannel path with requested := subprotocol }.Phased := by
    refine ⟨?_, ?_, ?_, fun hc => absurd rfl hc⟩
    · simp [hpending]
    · exact ⟨fun _ => hpending, fun _ => rfl⟩
    · simp [newChannel, h.client]
  have hunarmed : ¬ c.timers.Armed (.handshakeTimeout c.nextChannel) := by
    rw [h.armed, phase, ht.get?_nextChannel]
    rintro ⟨-, hnot⟩
    cases hnot
  rw [addAsking_eq]
  refine h.of_one rfl rfl (Nat.le_succ _) (Nat.lt_succ_self _) (fun _ => hphased) ?_ ?_
    (fun _ _ => rfl) ?_ (fun _ _ => hnone)
  · change Timers.Armed c.askingTimers _ ↔ _
    rw [askingTimers]
    have hwaits : (c.newChannel path).handshake.isPending = true := by rw [hpending]; rfl
    split
    next heq =>
      simp only [Timers.armed_arm, true_or, heq, hwaits, and_true, true_iff]
      exact ⟨Option.some_ne_none _, rfl⟩
    next heq => simp [hunarmed, heq]
  · intro j hj
    change Timers.Armed c.askingTimers _ ↔ _
    rw [askingTimers]
    split
    · rw [Timers.armed_arm]
      simp [hj]
    · rfl
  · change (c.journal.asked c.nextChannel).countP _ ≤ 1 ∧
      (c.journal.asked c.nextChannel).countP _ ≤ 1
    rw [hnone]
    exact ⟨Nat.zero_le _, Nat.zero_le _⟩

/-- A channel that waited sends its request. -/
theorem requested (h : c.Asking) (ht : c.Tidy) (hch : c.channels.get? id = some ch)
    (ho : ch.closed = false) (ha : ch.handshake = .awaitingSettings) {stream : StreamId}
    (h0 : stream ≠ 0) (block : HeaderBlock) : { c with
      channels := c.channels.insert id
        { ch with stream := stream, cachedWeight := none, handshake := .requestSent }
      registry := c.registry.insert stream id
      journal := (c.journal.push (.wire (some id) ⟨.reserve stream, none⟩)).push
        (.wire (some id) ⟨.headers stream block false, none⟩) }.Asking := by
  have hwaits : c.phase id = some .awaitingSettings := ha ▸ phase_of_open hch ho
  have hpending := h.armed id
  rw [hwaits] at hpending
  have hold := h.phased id ch hch ho
  refine h.of_one rfl rfl (Nat.le_refl _) (ht.numbered hch) (fun _ => ?_) ?_ (fun _ _ => Iff.rfl)
    ?_ ?_ (fun _ => nofun)
  · refine ⟨nofun, ⟨fun hz => absurd hz h0, nofun⟩, ?_, fun hc => absurd rfl hc⟩
    refine ⟨fun hs => ?_, nofun⟩
    cases ha.symm.trans (hold.settled.mp hs)
  · refine hpending.trans (and_congr_right fun _ => ?_)
    exact ⟨fun _ => ⟨ho, rfl⟩, fun _ => rfl⟩
  · intro j hj
    simp only [Journal.asked_push, Journal.askedIn_other hj, Option.toList_none, List.append_nil]
  · simp only [Journal.asked_push, h.unasked id (.inr hwaits)]
    rw [Journal.askedIn_own id rfl, Journal.askedIn_own id rfl]
    exact ⟨Nat.le_refl _, Nat.le_refl _⟩

/-- The answer to a request has arrived, and what was parked is taken. -/
theorem unparked (h : c.Asking) (ht : c.Tidy) (hch : c.channels.get? id = some ch)
    (hs : ch.handshake = .requestSent) (subprotocol : Option String)
    (compression : Option Deflate.Terms) :
    (c.markComplete id subprotocol compression).Asking := by
  have hold := h.phased id ch hch (ht.open_of_requestSent hch hs)
  have hstream : ch.stream ≠ 0 := by
    intro h0
    cases hs.symm.trans (hold.streamless.mp h0)
  rw [markComplete, Table.modify_eq_insert hch]
  refine h.of_one rfl rfl (Nat.le_refl _) (ht.numbered hch) (fun _ => ?_) ?_ ?_
    (fun _ _ => rfl) (h.once id) (by simp)
  · refine ⟨by simp, ⟨fun h0 => absurd h0 hstream, by simp⟩, ?_, hold.cached⟩
    refine ⟨fun _ => rfl, fun _ => ?_⟩
    change ch.parked.take.2.settled = true
    rw [Parked.take]
    split
    next hsettled => exact hsettled
    next => rfl
  · rw [Timers.armed_cancel]
    simp [Handshake.isPending]
  · intro j hj
    rw [Timers.armed_cancel]
    simp [hj]

/-- A channel is closed, perhaps after it failed to send its request. -/
theorem ended (h : c.Asking) (ht : c.Tidy) (hch : c.channels.get? id = some ch)
    (ho : ch.closed = false) {es : List Entry} (hes : ch.FailedStart id es)
    (he : Ended c id ch es c') : c'.Asking := by
  obtain ⟨ch', hchannels, hover⟩ := he.channels
  have hjournal (j : ChannelId) :
      c'.journal.asked j = c.journal.asked j ++ es.filterMap (Journal.askedIn j) := by
    rw [Journal.asked_of_plain he.journal, Journal.asked_eq, Journal.asked_eq,
      List.filterMap_append]
  have hclosed : ch'.closed = true := hover.closed
  refine h.of_one hchannels he.config (Nat.le_of_eq he.nextChannel.symm)
    (he.nextChannel ▸ ht.numbered hch) ?_ ?_ ?_ ?_ ?_ ?_
  · intro ho'
    exact absurd (ho'.symm.trans hclosed) (by decide)
  · rw [he.timeouts]
    simp [hclosed]
  · intro j hj
    rw [he.timeouts]
    simp [hj]
  · intro j hj
    rw [hjournal, hes.others hj, List.append_nil]
  · rw [hjournal]
    rcases hes.own with hnone | ⟨ha, honce⟩
    · rw [hnone, List.append_nil]
      exact h.once id
    · rw [h.unasked id (.inr (ha ▸ phase_of_open hch ho))]
      exact honce
  · intro ho'
    exact absurd (ho'.symm.trans hclosed) (by decide)

/-- The fate of a write is known, which has nothing to do with handshakes. -/
theorem settleWrite (h : c.Asking) (write : WriteId) (w : Inflight) (fault : Option WriteFault) :
    (c.settleWrite write w fault).Asking := by
  cases hch : c.channels.get? w.channel with
  | none =>
    rw [settleWrite_of_none write hch]
    exact h.of_same (.refl .refl _) rfl rfl (fun _ => Iff.rfl) fun _ => rfl
  | some ch =>
    obtain ⟨_, _, heq, -, hturned⟩ := settleWrite_eq write hch fault
    rw [heq]
    exact h.of_same (.insert .refl hch ⟨rfl, rfl, rfl, rfl, .inl rfl⟩) rfl rfl
      (fun _ => Iff.rfl) hturned.asked

theorem recoverChannel (h : c.Asking) (hch : c.channels.get? id = some ch) :
    (c.recoverChannel id).Asking := by
  obtain ⟨_, _, heq, -, hturned⟩ := recoverChannel_eq hch
  rw [heq]
  exact h.of_same (.insert .refl hch ⟨rfl, rfl, rfl, rfl, .inl rfl⟩) rfl rfl
    (fun _ => Iff.rfl) hturned.asked

/-- Closed channels may be changed and removed. -/
theorem of_closed (h : c.Asking) (id : ChannelId)
    (hch : ∀ ch, c.channels.get? id = some ch → ch.closed = true)
    (hch' : ∀ ch, c'.channels.get? id = some ch → ch.closed = true)
    (hother : ∀ j ≠ id, c'.channels.get? j = c.channels.get? j) (hconfig : c'.config = c.config)
    (hnext : c'.nextChannel = c.nextChannel) (htimers : c'.timers = c.timers)
    (hjournal : c'.journal = c.journal) : c'.Asking := by
  refine h.of_phase hconfig hnext (fun _ => by rw [htimers]) (fun _ => by rw [hjournal]) ?_ ?_
  · intro j
    by_cases hj : j = id
    · rw [hj, phase_eq_none hch, phase_eq_none hch']
    · exact phase_congr (hother j hj)
  · intro j d hd ho
    by_cases hj : j = id
    · exact absurd (ho.symm.trans (hch' d (hj ▸ hd))) (by decide)
    · exact h.phased j d (hother j hj ▸ hd) ho

theorem coreStep (h : s.conn.Asking) (ht : s.conn.Tidy) (hstep : CoreStep True k s t) :
    t.conn.Asking := by
  cases hstep with
  | plain ws hp =>
    exact h.of_same (hp.channels fun _ _ => .of_core) hp.config hp.nextChannel hp.timeouts
      (Journal.asked_of_plain hp.journal)
  | asked path subprotocol => exact h.asked ht path subprotocol
  | requested block ws hch ho ha h0 => exact h.requested ht hch ho ha (h0 trivial) block
  | enrolled _ _ _ _ _ hrole | turnedAway _ _ _ _ hrole =>
    exact absurd (h.client.symm.trans hrole) (by decide)
  | weightCached weight ws hch ho h0 =>
    exact h.of_same (.insert .refl hch ⟨rfl, rfl, rfl, rfl, .inr h0⟩) rfl rfl
      (fun _ => Iff.rfl) fun _ => rfl
  | received item ws hch =>
    exact h.of_same (.insert .refl hch (.receive _ item)) rfl rfl (fun _ => Iff.rfl) fun _ => rfl
  | handed ws hch =>
    exact h.of_same (.insert .refl hch ⟨rfl, rfl, rfl, rfl, .inl rfl⟩) rfl rfl
      (fun _ => Iff.rfl) fun _ => Journal.asked_report ..
  | @takenUp c id ch payload _ _ hch =>
    obtain ⟨_, heq, -⟩ := countBytes_eq (c.issue .held).2 id ch payload.length
    rw [heq]
    exact h.of_same (.insert .refl hch ⟨rfl, rfl, rfl, rfl, .inl rfl⟩) rfl rfl
      (fun _ => Iff.rfl) fun _ => rfl
  | parked hch ho hp hpush =>
    obtain ⟨-, hsettled, -⟩ := push?_eq_some hpush
    exact h.of_same (.insert .refl hch ⟨rfl, rfl, rfl, hsettled, .inl rfl⟩) rfl rfl
      (fun _ => Iff.rfl) fun _ => rfl
  | unparked subprotocol compression hch hs => exact h.unparked ht hch hs subprotocol compression
  | sent =>
    exact h.of_same (.refl .refl _) rfl rfl (fun _ => Iff.rfl)
      (Journal.asked_of_plain (Journal.extends_push _ rfl))
  | @bounced c w _ ch f =>
    have hsent : { c.enterWrite w.channel w.payload w.ticket with
        journal := c.journal.push (.wire (some w.channel)
          ⟨.data c.nextWrite ch.stream w.payload false, some f⟩) }.Asking :=
      h.of_same (.refl .refl _) rfl rfl (fun _ => Iff.rfl)
        (Journal.asked_of_plain (Journal.extends_push _ rfl))
    exact hsent.settleWrite ..
  | settled fault => exact h.settleWrite ..
  | recovered ws hch => exact h.recoverChannel hch
  | ended ws hch ho hes he => exact h.ended ht hch ho hes he
  | @gaveUp c id ch cause ws hch hclosed =>
    rw [failParked_eq hch]
    refine h.of_closed (c := c) id ?_ ?_ ?_ rfl rfl rfl rfl
    · intro d hd
      rw [← Option.some.inj (hch.symm.trans hd), hclosed]
    · intro d hd
      rw [Table.get?_insert_self] at hd
      rw [← Option.some.inj hd]
      exact hclosed
    · intro j hj
      exact Table.get?_insert_of_ne hj ..
  | inflightLost | dropped | unheard =>
    exact h.of_same (.refl .refl _) rfl rfl (fun _ => Iff.rfl) fun _ => rfl
  | @cleared c ws hk hnone =>
    have hunarmed (id : ChannelId) : ¬ c.timers.Armed (.handshakeTimeout id) := by
      rw [h.armed, phase_eq_none_iff.mpr (hnone id)]
      rintro ⟨-, hpending⟩
      cases hpending
    refine h.of_phase (c := c) rfl rfl (fun id => ?_) (fun _ => ?_) (fun _ => rfl) h.phased
    · refine iff_of_false ?_ (hunarmed id)
      rintro ⟨_, hmem⟩
      cases hmem
    · exact (Journal.asked_push ..).trans (List.append_nil _)
  | @missed c id _ ws hpop hdecided =>
    -- The deadline is armed only while it is waited for.
    obtain ⟨now, hpop⟩ := hpop
    have harmed := (Timers.armed_popDue (u := .handshakeTimeout id) hpop).1
    obtain ⟨-, hpending⟩ := (h.armed id).mp harmed
    obtain ⟨p, hphase, hp⟩ := (Option.any_eq_true ..).mp hpending
    obtain ⟨ch, hch, ho, rfl⟩ := phase_eq_some_iff.mp hphase
    exact absurd ((hdecided ch hch ho).symm.trans hp) (by decide)
  | turned ws htask hthere =>
    exact h.of_same (.refl .refl _) rfl rfl (fun _ => Iff.rfl) fun _ => by
      rw [Journal.asked_push]; exact List.append_nil _
  | @tornDown c id tasks ws htask =>
    have hdoomed := (ht.doomed (htask ▸ List.mem_cons_self)).2
    refine h.of_closed (c := c) id hdoomed ?_ ?_ rfl rfl rfl rfl
    · intro d hd
      exact hdoomed d (Table.get?_of_erase hd)
    · intro j hj
      exact (Table.get?_erase ..).trans (if_neg hj)

end Asking

/-! ## Nobody waits when it is known what to do -/

theorem phase_failHandshake_self (c : Connection) (id : ChannelId) (cause : Fault) :
    (c.failHandshake id cause).phase id = none := by
  rw [phase_eq_none_iff, failHandshake]
  split
  next h => rw [isOpen, h]; rfl
  next ch h =>
    split
    next hclosed => rw [isOpen_of_get? h, hclosed]; rfl
    next => exact isOpen_close_self ..

theorem phase_startHandshake_self (c : Connection) (id : ChannelId) :
    (c.startHandshake id).phase id ≠ some .awaitingSettings := by
  rw [startHandshake]
  split
  next => simp [phase_failHandshake_self]
  next stream c₁ hres =>
    split
    next hnone => simp [phase, hnone]
    next ch h =>
      dsimp only
      split
      next => simp [phase_failHandshake_self]
      next c₂ hsub =>
        intro hwaits
        obtain ⟨d, hd, -, ha⟩ := phase_eq_some_iff.mp hwaits
        rw [flush, tell, note, channels_sendCachedWeight, get?_updateChannel, if_pos rfl] at hd
        obtain ⟨_, -, rfl⟩ := Option.map_eq_some_iff.mp hd
        cases ha

theorem phase_decideDeferred_self (c : Connection) (id : ChannelId) :
    (c.decideDeferred id).phase id ≠ some .awaitingSettings := by
  rw [decideDeferred]
  split
  · exact phase_startHandshake_self c id
  · simp [phase_failHandshake_self]

theorem phase_foldl_decideDeferred (ids : List ChannelId)
    (h : (ids.foldl decideDeferred c).phase j = some .awaitingSettings) :
    c.phase j = some .awaitingSettings ∧ j ∉ ids := by
  induction ids generalizing c with
  | nil => exact ⟨h, List.not_mem_nil⟩
  | cons id ids ih =>
    obtain ⟨hwaits, hnot⟩ := ih h
    have hj : j ≠ id := by
      rintro rfl
      exact phase_decideDeferred_self c j hwaits
    rw [phase_congr (get?_decideDeferred_of_ne hj)] at hwaits
    exact ⟨hwaits, List.not_mem_cons_of_ne_of_not_mem hj hnot⟩

theorem phase_startDeferred (c : Connection) (j : ChannelId) :
    c.startDeferred.phase j ≠ some .awaitingSettings := by
  intro h
  obtain ⟨hwaits, hnot⟩ := phase_foldl_decideDeferred _ h
  obtain ⟨ch, hch, ho, ha⟩ := phase_eq_some_iff.mp hwaits
  refine hnot (List.mem_filter.mpr ⟨mem_openChannels.mpr ⟨ch, hch, ho⟩, ?_⟩)
  rw [isAwaitingSettings, hch, Option.any_some, ha]
  rfl

/-- A channel that is open after the end of the connection was announced to one channel was not
touched; the channel that was told is open only if it has a stream. -/
theorem get?_of_open_announceEnd {last : StreamId} {reason : Reason}
    (h : (announceEnd last reason c id).channels.get? j = some ch) (ho : ch.closed = false) :
    c.channels.get? j = some ch ∧ (j = id → ch.stream ≠ 0) := by
  rw [announceEnd] at h
  split at h
  next hnone =>
    refine ⟨h, ?_⟩
    rintro rfl
    cases hnone.symm.trans h
  next d hd =>
    dsimp only at h
    have hstream (hch : c.channels.get? j = some ch) (h0 : d.stream ≠ 0) :
        c.channels.get? j = some ch ∧ (j = id → ch.stream ≠ 0) := by
      refine ⟨hch, ?_⟩
      rintro rfl
      rwa [← Option.some.inj (hd.symm.trans hch)]
    split at h
    next =>
      have hj : j ≠ id := by
        rintro rfl
        cases (phase_of_open h ho).symm.trans (phase_failHandshake_self ..)
      rw [get?_failHandshake_of_ne hj] at h
      exact ⟨h, fun heq => absurd heq hj⟩
    next h0 =>
      split at h
      next =>
        have hch := get?_of_open_close h ho
        exact hstream hch h0
      next => exact hstream h h0

theorem get?_of_open_foldl_announceEnd {last : StreamId} {reason : Reason} (ids : List ChannelId)
    (h : (ids.foldl (announceEnd last reason) c).channels.get? j = some ch)
    (ho : ch.closed = false) : c.channels.get? j = some ch ∧ (j ∈ ids → ch.stream ≠ 0) := by
  induction ids generalizing c with
  | nil => exact ⟨h, fun hj => absurd hj List.not_mem_nil⟩
  | cons id ids ih =>
    obtain ⟨hrest, hin⟩ := ih h
    obtain ⟨hch, hself⟩ := get?_of_open_announceEnd hrest ho
    exact ⟨hch, fun hj => (List.mem_cons.mp hj).elim hself hin⟩

theorem Asking.phase_goAwayArrived (h : c.Asking) (last : StreamId) (reason : Reason)
    (j : ChannelId) : (c.goAwayArrived last reason).phase j ≠ some .awaitingSettings := by
  intro hwaits
  obtain ⟨ch, hch, ho, ha⟩ := phase_eq_some_iff.mp hwaits
  obtain ⟨hbefore, h0⟩ := get?_of_open_foldl_announceEnd _ hch ho
  have hbefore : c.channels.get? j = some ch := hbefore
  exact h0 (mem_openChannels.mpr ⟨ch, hbefore, ho⟩) ((h.phased j ch hbefore ho).streamless.mpr ha)

/-- A conversation that begins when it is known what to do does not wait. -/
theorem phase_openStream (path : String) (subprotocol : Option String) (hc : c.announced = true)
    (h : (c.openStream path subprotocol).2.phase j = some .awaitingSettings) :
    c.phase j = some .awaitingSettings := by
  rcases openStream_cases c path subprotocol with ⟨f, heq⟩ | ⟨-, hgoing, -, -, heq⟩
  · rwa [heq] at h
  · have hknown : c.peer.settingsReceived = true := by
      rw [announced, hgoing, Option.isSome_none, Bool.or_false] at hc
      exact hc
    rw [heq, if_pos hknown] at h
    have hj : j ≠ c.nextChannel := by
      rintro rfl
      exact phase_startHandshake_self _ _ h
    refine (phase_congr ((get?_startHandshake_of_ne hj).trans ?_)).symm.trans h
    rw [addAsking_eq, Table.get?_insert_of_ne hj]

/-! ## Whole runs -/

/-- No channel waits for what is known. -/
def Decided (c : Connection) : Prop :=
  c.announced = true → ∀ id, c.phase id ≠ some .awaitingSettings

theorem announced_of_callPath (ht : c.Tidy) (h : CallPath False k ⟨c, []⟩ ⟨c', []⟩)
    (hc : c.announced = true) : c'.announced = true := by
  have hall := CorePath.induction (P := fun u => u.conn.announced = true) ?_ ht
    (corePath_callPath ht h) hc
  · exact hall.2
  · intro u v _ hstep hu
    rcases hstep.announced with heq | ⟨hv, -⟩
    · exact heq.trans hu
    · exact hv

/-- What is announced by a call is known after it. -/
theorem announced_of_announces (ht : c.Tidy) {k : Call} (hk : k.announces = true) :
    (c.after k).announced = true := by
  unfold Call.announces at hk
  split at hk
  next s =>
    have hnoted : ({ c with reading := true }.noteSettings s).Tidy ∧
        ({ c with reading := true }.noteSettings s).announced = true := by
      rw [noteSettings]
      dsimp only
      split <;> exact ⟨ht.of_eq rfl (Nat.le_refl _) fun _ h => h, rfl⟩
    have hstarted := announced_of_callPath hnoted.1 (k := ⟨c, .frame (.settings s)⟩)
      (callPath_startDeferred False.elim rfl) hnoted.2
    exact hstarted
  next last reason debug =>
    have hnoted : { c with reading := true, goingAway := some reason }.Tidy :=
      ht.of_eq rfl (Nat.le_refl _) fun _ h => h
    have htold := announced_of_callPath hnoted (k := ⟨c, .runTasks⟩)
      (callPath_foldl_open (announceEnd last reason) { c with reading := true }.openChannels
        (nodup_openChannels _) (fun _ hid => isOpen_iff.mpr (mem_openChannels.mp hid))
        (fun _ _ ho => callPath_announceEnd last reason ho)
        (fun _ _ _ hne => get?_announceEnd_of_ne hne last reason)) (Bool.or_true _)
    exact htold
  next => cases hk

/-- What was announced before a call is known after it, and what the call announces. -/
theorem announced_after (ht : c.Tidy) (k : Call) :
    (c.after k).announced = (c.announced || k.announces) := by
  cases hk : k.announces with
  | true => rw [announced_of_announces ht hk, Bool.or_true]
  | false =>
    rw [Bool.or_false]
    refine after_induction (P := fun d => d.announced = c.announced) ht k ?_ rfl
    intro u v _ hstep hu
    rcases hstep.announced with heq | ⟨-, hannounces⟩
    · exact heq.trans hu
    · exact absurd (hannounces.symm.trans hk) (by decide)

theorem Asking.after (h : c.Asking) (ht : c.Tidy) {k : Call} (ho : c.Careful k) :
    (c.after k).Tidy ∧ (c.after k).Asking :=
  CorePath.induction (P := fun u => u.conn.Asking) (fun _ _ ht hstep hu => hu.coreStep ht hstep) ht
    (corePath_after ht k fun _ => ho) h

/-- No call but one that opens a conversation makes a channel wait. -/
theorem Asking.waiting_after (h : c.Asking) (ht : c.Tidy) {k : Call}
    (hk : ∀ path subprotocol, k ≠ .openStream path subprotocol)
    (hwaits : (c.after k).phase id = some .awaitingSettings) :
    c.phase id = some .awaitingSettings := by
  refine (after_induction (P := fun d => d.config.role = .client ∧
    (d.phase id = some .awaitingSettings → c.phase id = some .awaitingSettings)) ht k ?_
    ⟨h.client, fun h => h⟩).2 hwaits
  rintro u v htu hstep ⟨hrole, hwaited⟩
  refine ⟨hstep.config ▸ hrole, fun hid => hwaited ?_⟩
  obtain ⟨ch', hch', ho', ha'⟩ := phase_eq_some_iff.mp hid
  obtain ⟨ch, hch, hfollows⟩ := (queueStep_of_coreStep htu hstep).follows (.inr ⟨hrole, hk⟩) hch'
  obtain ⟨ho, ha⟩ := hfollows.waiting ho' ha'
  exact ha ▸ phase_of_open hch ho

theorem Decided.after (hd : c.Decided) (h : c.Asking) (ht : c.Tidy) (k : Call) :
    (c.after k).Decided := by
  intro hafter id hwaits
  rw [announced_after ht, Bool.or_eq_true] at hafter
  by_cases hk : k.announces = true
  · unfold Call.announces at hk
    split at hk
    next s => exact phase_startDeferred _ _ hwaits
    next last reason debug =>
      have hbegun : { c with reading := true }.Asking :=
        h.of_same (.refl .refl _) rfl rfl (fun _ => Iff.rfl) fun _ => rfl
      exact hbegun.phase_goAwayArrived last reason id hwaits
    next => cases hk
  · have hbefore := hafter.resolve_right hk
    by_cases hopen : ∃ path subprotocol, k = .openStream path subprotocol
    · obtain ⟨path, subprotocol, rfl⟩ := hopen
      exact hd hbefore id (phase_openStream path subprotocol hbefore hwaits)
    · exact hd hbefore id
        (h.waiting_after ht (fun path sub heq => hopen ⟨path, sub, heq⟩) hwaits)

theorem asking_start {config : Config} {encoder : Encoder} (h : start config encoder = .ok c)
    (hrole : config.role = .client) : c.Asking := by
  obtain rfl := (start_eq h).1
  have hnone (id : ChannelId) : (fresh config encoder).journal.asked id = [] := rfl
  have hempty (id : ChannelId) : (fresh config encoder).channels.get? id = none := rfl
  refine
    { client := hrole
      phased := fun id _ hch => nomatch (hempty id).symm.trans hch
      armed := fun id => iff_of_false ?_ ?_
      once := fun id => ?_
      unasked := fun id _ => hnone id }
  · rintro ⟨_, hmem⟩
    cases hmem
  · rintro ⟨-, hpending⟩
    rw [phase, hempty] at hpending
    cases hpending
  · rw [hnone]
    exact ⟨Nat.zero_le _, Nat.zero_le _⟩

theorem Asking.run (h : c.Asking) (ht : c.Tidy) (hd : c.Decided) {ks : List Call}
    (ho : c.CarefulRun ks) : (c.run ks).Asking ∧ (c.run ks).Tidy ∧ (c.run ks).Decided ∧
      (c.run ks).announced = (c.announced || ks.any Call.announces) := by
  induction ks generalizing c with
  | nil => exact ⟨h, ht, hd, (Bool.or_false _).symm⟩
  | cons k ks ih =>
    obtain ⟨ht', h'⟩ := h.after ht ho.1
    obtain ⟨hrun, htidy, hdecided, hannounced⟩ := ih h' ht' (hd.after h ht k) ho.2
    refine ⟨hrun, htidy, hdecided, ?_⟩
    rw [run_cons, hannounced, announced_after ht, List.any_cons, Bool.or_assoc]

/-- The channel has had the stream from when it was made, or has been removed. -/
structure Settled (id : ChannelId) (stream : StreamId) (c : Connection) : Prop where
  made : id < c.nextChannel
  stream : ∀ ch, c.channels.get? id = some ch → ch.stream = stream

theorem Asking.settled_run (h : c.Asking) (ht : c.Tidy) {stream : StreamId} (h0 : stream ≠ 0)
    (hs : c.Settled id stream) {ks : List Call} (ho : c.CarefulRun ks) :
    (c.run ks).Settled id stream := by
  induction ks generalizing c with
  | nil => exact hs
  | cons k ks ih =>
    have hall := CorePath.induction (P := fun u => u.conn.Asking ∧ u.conn.Settled id stream) ?_ ht
      (corePath_after ht k fun _ : True => ho.1) ⟨h, hs⟩
    · exact ih hall.2.1 hall.1 hall.2.2 ho.2
    rintro u v htu hstep ⟨hu, hmade, hstream⟩
    have hqueue := queueStep_of_coreStep htu hstep
    refine ⟨hu.coreStep htu hstep, Nat.lt_of_lt_of_le hmade hqueue.nextChannel, ?_⟩
    intro ch' hch'
    obtain ⟨ch, hch, hfollows⟩ := hqueue.follows (.inl hmade) hch'
    rcases hfollows.stream with heq | ⟨hopen, ha⟩
    · exact heq.trans (hstream ch hch)
    · have hnone := ((hu.phased id ch hch hopen).streamless.mpr ha).symm.trans (hstream ch hch)
      exact absurd hnone.symm h0

/-- What goes with an open channel of a client whose handshakes have the given deadline, if any. -/
structure Underway (timeout : Option Time) (c : Connection) (id : ChannelId) (ch : Channel) :
    Prop where
  alive : ch.handshake ≠ .failed
  streamless : ch.stream = 0 ↔ ch.handshake = .awaitingSettings
  registered : ch.handshake ≠ .awaitingSettings → c.registry.get? ch.stream = some (.active id)
  settled : ch.parked.settled = true ↔ ch.handshake = .complete
  cached : ch.cachedWeight ≠ none → ch.stream = 0
  armed : c.timers.Armed (.handshakeTimeout id) ↔
    timeout ≠ none ∧ ch.handshake.isPending = true

/-- Between the calls of a client's run the handshake of an open channel has not failed, and all
that goes with its phase is in place; a deadline is armed for nothing else.  When settings have
arrived or the end of the connection was announced, no channel waits for settings.  In a whole run a
channel reserves at most one stream and hands the encoder at most one request, refused ones
included, and keeps the stream that it has got. -/
theorem client_channels_are_underway {config : Config} {encoder : Encoder} {c : Connection}
    (h : start config encoder = .ok c) (hrole : config.role = .client) {ks : List Call}
    (ho : c.CarefulRun ks) :
    (∀ id ch, (c.run ks).channels.get? id = some ch → ch.closed = false →
      (c.run ks).Underway config.handshakeTimeout id ch) ∧
    (∀ id, (c.run ks).timers.Armed (.handshakeTimeout id) → (c.run ks).isOpen id = true) ∧
    (ks.any Call.announces = true → ∀ id ch, (c.run ks).channels.get? id = some ch →
      ch.closed = false → ch.handshake ≠ .awaitingSettings) ∧
    (∀ id, ((c.run ks).journal.wireFor id).countP WireEntry.isReserve ≤ 1 ∧
      ((c.run ks).journal.wireFor id).countP WireEntry.isHeaders ≤ 1) ∧
    ∀ ls rs id ch ch', ks = ls ++ rs → (c.run ls).channels.get? id = some ch → ch.stream ≠ 0 →
      (c.run ks).channels.get? id = some ch' → ch'.stream = ch.stream := by
  have ha : c.Asking := asking_start h hrole
  have ht : c.Tidy := tidy_start h
  have hd : c.Decided := by
    rw [(start_eq h).1]
    nofun
  obtain ⟨hrun, -, hdecided, hannounced⟩ := ha.run ht hd ho
  have hregistered := registered_run h ho
  refine ⟨?_, ?_, ?_, ?_, ?_⟩
  · intro id ch hch hopen
    have hphased := hrun.phased id ch hch hopen
    refine ⟨hphased.alive, hphased.streamless, ?_, hphased.settled, hphased.cached, ?_⟩
    · intro hnot
      exact (hregistered.active _ _).mpr
        ⟨ch, hch, hopen, rfl, fun h0 => hnot (hphased.streamless.mp h0)⟩
    · rw [hrun.armed, phase_of_open hch hopen, config_run h]
      rfl
  · intro id harmed
    rw [hrun.armed] at harmed
    by_contra hclosed
    rw [phase_eq_none_iff.mpr (Bool.not_eq_true _ ▸ hclosed)] at harmed
    cases harmed.2
  · intro hany id ch hch hopen hwaits
    rw [hany, Bool.or_true] at hannounced
    exact hdecided hannounced id (hwaits ▸ phase_of_open hch hopen)
  · intro id
    rw [Journal.countP_asked _ _ fun e he => by rw [he, Bool.true_or],
      Journal.countP_asked _ _ fun e he => by rw [he, Bool.or_true]]
    exact hrun.once id
  · intro ls rs id ch ch' hks hch h0 hch'
    subst hks
    obtain ⟨hols, hors⟩ := carefulRun_append.mp ho
    obtain ⟨hls, htls, -⟩ := ha.run ht hd hols
    have hsettled : (c.run ls).Settled id ch.stream :=
      ⟨htls.numbered hch, fun d hd => by rw [← Option.some.inj (hch.symm.trans hd)]⟩
    rw [run_append] at hch'
    exact (hls.settled_run htls h0 hsettled hors).stream ch' hch'

/-- A conversation that was accepted is underway; it was asked for once and waits no more. -/
theorem accepted_channel_is_underway :
    ∃ ch, ((fresh {} .willing).run Call.opening).channels.get? 1 = some ch ∧ ch.closed = false ∧
      ((fresh {} .willing).run Call.opening).Underway (some 15000) 1 ch ∧
      ch.handshake ≠ .awaitingSettings ∧
      (((fresh {} .willing).run Call.opening).journal.wireFor 1).countP
        WireEntry.isReserve ≤ 1 := by
  obtain ⟨ch, hch, hopen⟩ := isOpen_iff.mp
    (by decide : ((fresh {} .willing).run Call.opening).isOpen 1 = true)
  obtain ⟨hunderway, -, hdecided, honce, -⟩ := client_channels_are_underway
    (rfl : start {} .willing = .ok (fresh {} .willing)) rfl
    (by decide : (fresh {} .willing).OrderlyRun Call.opening).careful
  exact ⟨ch, hch, hopen, hunderway 1 ch hch hopen, hdecided (by decide) 1 ch hch hopen,
    (honce 1).1⟩

end Connection

end ChannelMux
