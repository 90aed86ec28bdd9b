import ChannelMux.Connection.Call
import ChannelMux.Proofs.Ledgers
import Mathlib.Tactic.SplitIfs

/-!
# Effects: what each operation changes

One equation for each operation that branches, so that nothing else has to open it: the connection
before it with the changed fields replaced.  What an operation adds to the journal is described by
`Journal.Extends`, by the kind of the added entries.
-/

namespace ChannelMux

/-! ## Histories -/

/-- What stands in a history of two pieces stands in the second or in the first. -/
theorem mem_pieces {α : Type} {es fs xs ys : List α} {e : α} (h : es ++ fs = xs ++ e :: ys) :
    (∃ zs, xs = es ++ zs ∧ fs = zs ++ e :: ys) ∨ ∃ zs, es = xs ++ e :: zs ∧ ys = zs ++ fs := by
  obtain ⟨zs, hxs, hfs⟩ | ⟨zs, hes, hend⟩ := List.append_eq_append_iff.mp h
  · exact .inl ⟨zs, hxs, hfs⟩
  · cases zs with
    | nil =>
      rw [List.append_nil] at hes
      exact .inl ⟨[], by rw [hes, List.append_nil], hend.symm⟩
    | cons d zs =>
      obtain ⟨rfl, hys⟩ := List.cons.inj hend
      exact .inr ⟨zs, hes, hys⟩

namespace Entry

/-- The entry tells of the reading side of a channel. -/
def isReading : Entry → Bool
  | delivered .. => true
  | event e => e.what = .readComplete
  | wire .. | closed _ => false

/-- The entry belongs to none of the histories that are followed through a run: nothing was read or
consumed, no channel turned, and neither was a stream reserved for a channel nor were headers sent
for one. -/
def isPlain : Entry → Bool
  | wire owner e =>
    match e.call with
    | .consume .. => false
    | .reserve _ | .headers .. => owner = none
    | .data .. | .reset .. | .priority .. | .flush | .forward _ | .inactive => true
  | event e =>
    match e.what with
    | .read _ | .writability _ => false
    | .opened .. | .readComplete | .remoteClosed _ | .goAway .. | .priorityApplied _ => true
    | .peerPriority _ | .handshakeCompleted .. | .failed _ | .inactive | .unregistered => true
  | delivered .. | closed _ => true

/-- What is reported about a channel. -/
def reportOf? (id : ChannelId) : Entry → Option Happening
  | event e => if e.channel = id then some e.what else none
  | wire .. | delivered .. | closed _ => none

end Entry

namespace Journal

theorem eventsOf_eq (j : Journal) (id : ChannelId) :
    j.eventsOf id = j.entries.filterMap (Entry.reportOf? id) := by
  rw [eventsOf, events]
  induction j.entries with
  | nil => rfl
  | cons e es ih =>
    cases e with
    | event e =>
      by_cases he : e.channel = id
      · simp [Entry.event?, Entry.reportOf?, he, ih]
      · simp [Entry.event?, Entry.reportOf?, he, ih]
    | wire | delivered | closed => exact ih

/-- The second journal continues the first one with entries of a kind. -/
def Extends (P : Entry → Prop) (j j' : Journal) : Prop :=
  ∃ es, j'.entries = j.entries ++ es ∧ ∀ e ∈ es, P e

variable {P Q : Entry → Prop} {j j' j'' : Journal}

theorem Extends.refl (j : Journal) : j.Extends P j :=
  ⟨[], (List.append_nil _).symm, fun _ h => absurd h List.not_mem_nil⟩

theorem Extends.of_eq (h : j'.entries = j.entries) : j.Extends P j' :=
  ⟨[], h.trans (List.append_nil _).symm, fun _ h => absurd h List.not_mem_nil⟩

theorem Extends.trans (h : j.Extends P j') (h' : j'.Extends P j'') : j.Extends P j'' := by
  obtain ⟨es, hes, hP⟩ := h
  obtain ⟨fs, hfs, hP'⟩ := h'
  refine ⟨es ++ fs, by rw [hfs, hes, List.append_assoc], ?_⟩
  intro e he
  rcases List.mem_append.mp he with he | he
  · exact hP e he
  · exact hP' e he

theorem Extends.mono (hPQ : ∀ e, P e → Q e) (h : j.Extends P j') : j.Extends Q j' := by
  obtain ⟨es, hes, hP⟩ := h
  exact ⟨es, hes, fun e he => hPQ e (hP e he)⟩

/-- Entries of which a projection knows nothing leave it as it was. -/
theorem Extends.filterMap_eq {α : Type} {f : Entry → Option α} (h : j.Extends P j')
    (hf : ∀ e, P e → f e = none) : j'.entries.filterMap f = j.entries.filterMap f := by
  obtain ⟨es, hes, hP⟩ := h
  have hnone : es.filterMap f = [] := List.filterMap_eq_nil_iff.mpr fun e he => hf e (hP e he)
  rw [hes, List.filterMap_append, hnone, List.append_nil]

theorem Extends.wire (h : j.Extends P j') : j.wire <+: j'.wire := by
  obtain ⟨es, hes, -⟩ := h
  rw [Journal.wire, Journal.wire, hes, List.filterMap_append]
  exact List.prefix_append _ _

theorem extends_push (j : Journal) {e : Entry} (he : P e) : j.Extends P (j.push e) :=
  ⟨[e], rfl, fun _ hd => List.mem_singleton.mp hd ▸ he⟩

theorem Extends.push (h : j.Extends P j') {e : Entry} (he : P e) : j.Extends P (j'.push e) :=
  h.trans (extends_push j' he)

end Journal

/-- The journal is continued with entries that have nothing to do with reading. -/
def Journal.Apart (j j' : Journal) : Prop := j.Extends (fun e => e.isReading = false) j'

namespace Journal.Apart

variable {j j' j'' : Journal}

theorem refl (j : Journal) : j.Apart j := Extends.refl j

theorem push (h : j.Apart j') {e : Entry} (he : e.isReading = false) : j.Apart (j'.push e) :=
  Extends.push h he

end Journal.Apart

/-- The journal is continued with reports that a channel has turned writable. -/
def Journal.Turned (id : ChannelId) (j j' : Journal) : Prop :=
  j.Extends (fun e => e = .event ⟨id, .writability true⟩) j'

theorem Journal.Turned.apart {id : ChannelId} {j j' : Journal} (h : j.Turned id j') :
    j.Apart j' := by
  refine Extends.mono ?_ h
  rintro _ rfl
  rfl

/-! ## Handshakes that are given up -/

/-- Parked writes are given up once. -/
theorem Parked.fst_giveUp_giveUp (p : Parked) : p.giveUp.2.giveUp.1 = none := by
  unfold giveUp
  split
  · simp
  · rfl

namespace Channel

theorem parkedTickets_giveUpParked (ch : Channel) : ch.giveUpParked.parkedTickets = [] :=
  congrArg (Option.getD · []) ch.parked.fst_giveUp_giveUp

theorem parkedTickets_shut (ch : Channel) (kind : CloseKind) :
    (ch.shut kind).parkedTickets = [] :=
  congrArg (Option.getD · []) ch.parked.fst_giveUp_giveUp

theorem handshake_shut (ch : Channel) (kind : CloseKind) :
    (ch.shut kind).handshake = ch.giveUpParked.handshake := rfl

theorem isPending_giveUpParked (ch : Channel) : ch.giveUpParked.handshake.isPending = false := by
  rw [giveUpParked]
  dsimp only
  split
  next => rfl
  next h => exact Bool.not_eq_true _ ▸ h

theorem isPending_shut (ch : Channel) (kind : CloseKind) :
    (ch.shut kind).handshake.isPending = false := by
  rw [handshake_shut, isPending_giveUpParked]

/-- A handshake that is decided stays as it is. -/
theorem handshake_giveUpParked {ch : Channel} (h : ch.handshake.isPending = false) :
    ch.giveUpParked.handshake = ch.handshake := by
  rw [giveUpParked]
  dsimp only
  rw [h]
  rfl

end Channel

namespace Connection

variable {c : Connection} {id : ChannelId} {ch : Channel}

/-! ## Channels -/

theorem updateChannel_eq (h : c.channels.get? id = some ch) (f : Channel → Channel) :
    c.updateChannel id f = { c with channels := c.channels.insert id (f ch) } := by
  rw [updateChannel, Table.modify_eq_insert h]

theorem mem_openChannels {c : Connection} {id : ChannelId} :
    id ∈ c.openChannels ↔ ∃ ch, c.channels.get? id = some ch ∧ ch.closed = false := by
  rw [openChannels, List.mem_map]
  constructor
  · rintro ⟨e, he, rfl⟩
    obtain ⟨he, ho⟩ := List.mem_filter.mp he
    exact ⟨e.2, (Table.mem_entries_iff _ _ _).mp he, by simpa using ho⟩
  · rintro ⟨ch, h, ho⟩
    exact ⟨(id, ch), List.mem_filter.mpr ⟨(Table.mem_entries_iff _ _ _).mpr h, by simp [ho]⟩, rfl⟩

theorem nodup_openChannels (c : Connection) : c.openChannels.Nodup := by
  rw [openChannels, List.nodup_iff_pairwise_ne, List.pairwise_map]
  exact (c.channels.ascending.filter _).imp fun h => Nat.ne_of_lt h

theorem isOpen_iff :
    c.isOpen id = true ↔ ∃ ch, c.channels.get? id = some ch ∧ ch.closed = false := by
  rw [isOpen, Option.any_eq_true]
  simp

theorem isOpen_of_get? (h : c.channels.get? id = some ch) : c.isOpen id = !ch.closed := by
  rw [isOpen, h]; rfl

/-- The channel that is made for a conversation. -/
def newChannel (c : Connection) (path : String) : Channel :=
  { path
    autoRead := c.config.autoRead
    demand := if c.config.autoRead then .inProgress else .idle
    budget := if c.config.autoRead then c.config.messagesPerRead else 0
    handshake := if c.config.role = .client then .awaitingSettings else .complete }

theorem allocate_eq (c : Connection) (path : String) :
    c.allocate path = (c.nextChannel, { c with
      channels := c.channels.insert c.nextChannel (c.newChannel path)
      nextChannel := c.nextChannel + 1 }) := by
  rw [allocate, newChannel]
  cases c.config.autoRead <;> rfl

/-- The deadlines after a conversation was asked for. -/
def askingTimers (c : Connection) : Timers :=
  match c.config.handshakeTimeout with
  | some ms => c.timers.arm (c.clock + ms) (.handshakeTimeout c.nextChannel)
  | none => c.timers

theorem addAsking_eq (c : Connection) (path : String) (subprotocol : Option String) :
    (c.addAsking path subprotocol).2 = { c with
      channels := c.channels.insert c.nextChannel
        { c.newChannel path with requested := subprotocol }
      nextChannel := c.nextChannel + 1
      timers := c.askingTimers
      stats := { c.stats with opened := c.stats.opened + 1 } } := by
  have hnew : (c.allocate path).2.channels.get? c.nextChannel = some (c.newChannel path) := by
    rw [allocate_eq, Table.get?_insert_self]
  rw [addAsking, askingTimers]
  dsimp only
  rw [show (c.allocate path).1 = c.nextChannel from rfl, updateChannel_eq hnew, allocate_eq]
  dsimp only
  rw [Table.insert_insert]
  cases c.config.handshakeTimeout <;> rfl

/-- A conversation is refused without a trace, or a channel is made for it; its stream is asked for
at once if the settings of the peer are known. -/
theorem openStream_cases (c : Connection) (path : String) (subprotocol : Option String) :
    (∃ f, c.openStream path subprotocol = (.error f, c)) ∨
      c.config.role = .client ∧ c.goingAway = none ∧ c.isActive = true ∧
        (c.peer.settingsReceived = true → c.peer.extendedConnect = true) ∧
        c.openStream path subprotocol = (.ok c.nextChannel,
          if c.peer.settingsReceived then
            (c.addAsking path subprotocol).2.startHandshake c.nextChannel
          else (c.addAsking path subprotocol).2) := by
  rw [openStream]
  split
  · exact .inl ⟨_, rfl⟩
  next hrole =>
    split
    · exact .inl ⟨_, rfl⟩
    next hgoing =>
      split
      · exact .inl ⟨_, rfl⟩
      next hactive =>
        split
        · exact .inl ⟨_, rfl⟩
        next hknown =>
          have hpeer : (c.addAsking path subprotocol).2.peer = c.peer := by rw [addAsking_eq]
          refine .inr ⟨not_not.mp hrole, hgoing, not_not.mp hactive, fun hreceived => ?_, ?_⟩
          · simpa [hreceived] using hknown
          · dsimp only
            rw [hpeer]
            rfl

/-! ## Elementary steps that branch -/

theorem failParked_eq (h : c.channels.get? id = some ch) (cause : Fault) :
    c.failParked id cause = { c with
      channels := c.channels.insert id ch.giveUpParked
      ledger := c.ledger.resolveAll ch.parkedTickets (.failed cause) } := by
  rw [failParked, h]
  simp only
  rw [updateChannel_eq h]
  rfl

theorem reportWritable_eq (c : Connection) (id : ChannelId) :
    ∃ tasks journal, c.reportWritable id = { c with tasks := tasks, journal := journal } ∧
      (tasks = c.tasks ∨ tasks = c.tasks ++ [.reportWritability id true]) ∧
      c.journal.Turned id journal := by
  unfold reportWritable
  split
  · exact ⟨_, c.journal, rfl, .inr rfl, .refl _⟩
  · exact ⟨c.tasks, _, rfl, .inl rfl, (Journal.Extends.refl _).push rfl⟩

/-- Report that a channel has turned writable, if it has. -/
def reportIf (c : Connection) (id : ChannelId) (turns : Bool) : Connection :=
  if turns then c.reportWritable id else c

theorem reportIf_eq (c : Connection) (id : ChannelId) (turns : Bool) :
    ∃ tasks journal, c.reportIf id turns = { c with tasks := tasks, journal := journal } ∧
      (tasks = c.tasks ∨ tasks = c.tasks ++ [.reportWritability id true]) ∧
      c.journal.Turned id journal := by
  rw [reportIf]
  split
  · exact reportWritable_eq c id
  · exact ⟨c.tasks, c.journal, rfl, .inl rfl, .refl _⟩

theorem releaseBytes_exact {w : Inflight} (h : c.channels.get? w.channel = some ch) :
    c.releaseBytes w = { c with
      channels := c.channels.insert w.channel <|
        (ch.subPending w.size c.config.lowWatermark c.isWritable).1 }.reportIf w.channel
          (ch.subPending w.size c.config.lowWatermark c.isWritable).2 := by
  rw [releaseBytes, h]
  rfl

theorem recoverChannel_exact (h : c.channels.get? id = some ch) :
    c.recoverChannel id = { c with
      channels := c.channels.insert id (ch.recover c.config.lowWatermark).1 }.reportIf id
        (ch.recover c.config.lowWatermark).2 := by
  rw [recoverChannel, h]
  rfl

theorem recoverChannel_eq (h : c.channels.get? id = some ch) :
    ∃ tasks journal, c.recoverChannel id = { c with
        channels := c.channels.insert id (ch.recover c.config.lowWatermark).1
        tasks := tasks
        journal := journal } ∧
      (tasks = c.tasks ∨ tasks = c.tasks ++ [.reportWritability id true]) ∧
      c.journal.Turned id journal := by
  rw [recoverChannel_exact h]
  exact reportIf_eq ..

theorem recoverChannel_of_none (h : c.channels.get? id = none) : c.recoverChannel id = c := by
  rw [recoverChannel, h]

theorem releaseBytes_of_none {w : Inflight} (h : c.channels.get? w.channel = none) :
    c.releaseBytes w = c := by
  rw [releaseBytes, h]

theorem countBytes_eq (c : Connection) (id : ChannelId) (ch : Channel) (size : Nat) :
    ∃ tasks, c.countBytes id ch size = { c with
        channels := c.channels.insert id (ch.addPending size c.config.highWatermark).1
        tasks := tasks } ∧
      (tasks = c.tasks ∨ tasks = c.tasks ++ [.reportWritability id false]) := by
  rw [countBytes]
  simp only
  split
  · exact ⟨_, rfl, .inr rfl⟩
  · exact ⟨c.tasks, rfl, .inl rfl⟩

theorem issue_eq (c : Connection) (p : Promise) :
    c.issue p = (c.ledger.next, { c with ledger := (c.ledger.issue p).2 }) := rfl

/-! ## Closing -/

theorem sendClosing_eq (c : Connection) (id : ChannelId) (stream : StreamId)
    (f : Option ClosingFrame) :
    ∃ nextWrite journal,
      c.sendClosing id stream f = { c with nextWrite := nextWrite, journal := journal } ∧
      c.nextWrite ≤ nextWrite ∧
      c.journal.Extends (fun e => e.isReading = false ∧ e.isPlain = true) journal := by
  match f with
  | none => exact ⟨c.nextWrite, c.journal, rfl, Nat.le_refl _, .refl _⟩
  | some .endStream =>
    exact ⟨_, _, rfl, Nat.le_succ _, ((Journal.Extends.refl _).push ⟨rfl, rfl⟩).push ⟨rfl, rfl⟩⟩
  | some .cancel =>
    exact ⟨_, _, rfl, Nat.le_refl _, ((Journal.Extends.refl _).push ⟨rfl, rfl⟩).push ⟨rfl, rfl⟩⟩

/-- The tickets of a channel's writes that are on their way. -/
def inflightTickets (c : Connection) (id : ChannelId) : List Ticket :=
  c.inflight.entries.filterMap fun e => if e.2.channel = id then some e.2.ticket else none

/-- The registry after a channel's stream was given up. -/
def retired (r : Registry ChannelId) (stream : StreamId) (absorb : Bool) : Registry ChannelId :=
  if stream = 0 then r else if absorb then r.markClosed stream else r.remove stream

/-- The deadlines after a channel's stream was given up. -/
def retiredTimers (ts : Timers) (due : Time) (stream : StreamId) (absorb : Bool) : Timers :=
  if stream = 0 then ts else if absorb then ts.arm due (.registryRemoval stream) else ts

theorem retireStream_eq (c : Connection) (stream : StreamId) (absorb : Bool) :
    c.retireStream stream absorb = { c with
      registry := retired c.registry stream absorb
      timers := retiredTimers c.timers (c.clock + c.config.grace) stream absorb } := by
  unfold retireStream retired retiredTimers
  split_ifs <;> rfl

/-- All that closing a channel does. -/
theorem close_exact (h : c.channels.get? id = some ch) (ho : ch.closed = false)
    (kind : CloseKind) :
    ∃ nextWrite journal, c.close id kind = { c with
        channels := c.channels.insert id (ch.shut kind)
        ledger := (c.ledger.resolveAll ch.parkedTickets (.failed .channelClosed)).resolveAll
          (c.inflightTickets id) (.failed .channelClosed)
        inflight := c.inflight.keep fun w => w.channel ≠ id
        batch := c.batch.remove id
        registry := retired c.registry ch.stream
          (c.isActive && (ch.shut kind).initiator = some .ours)
        tasks := c.tasks ++ [.tearDown id]
        timers := retiredTimers (c.timers.cancel (.handshakeTimeout id))
          (c.clock + c.config.grace) ch.stream
          (c.isActive && (ch.shut kind).initiator = some .ours)
        stats := { c.stats with
          discardedFrames := c.stats.discardedFrames + ch.inbound.length
          discardedBytes := c.stats.discardedBytes + ch.inboundBytes
          closed := c.stats.closed + 1 }
        nextWrite := nextWrite, journal := journal } ∧
      c.nextWrite ≤ nextWrite ∧
      c.journal.Extends (fun e => e.isReading = false ∧ e.isPlain = true) journal := by
  obtain ⟨_⟩ := c
  simp only at h
  simp only [close, h, ho, Bool.false_eq_true, if_false, discard, resolveAll]
  obtain ⟨nextWrite, journal, hsend, hnext, hextends⟩ := sendClosing_eq
    _ id ch.stream (ch.closingFrame kind (isActive _))
  rw [hsend]
  simp only [failInflight, resolveAll, retireStream_eq]
  exact ⟨nextWrite, journal.push (.closed id), rfl, hnext, hextends.push ⟨rfl, rfl⟩⟩

theorem close_eq (h : c.channels.get? id = some ch) (ho : ch.closed = false) (kind : CloseKind) :
    ∃ nextWrite journal timers stats, c.close id kind = { c with
        channels := c.channels.insert id (ch.shut kind)
        ledger := (c.ledger.resolveAll ch.parkedTickets (.failed .channelClosed)).resolveAll
          (c.inflightTickets id) (.failed .channelClosed)
        inflight := c.inflight.keep fun w => w.channel ≠ id
        batch := c.batch.remove id
        registry := retired c.registry ch.stream
          (c.isActive && (ch.shut kind).initiator = some .ours)
        tasks := c.tasks ++ [.tearDown id]
        nextWrite := nextWrite, journal := journal, timers := timers, stats := stats } ∧
      c.nextWrite ≤ nextWrite ∧ c.journal.Apart journal := by
  obtain ⟨nextWrite, journal, heq, hnext, hextends⟩ := close_exact h ho kind
  exact ⟨nextWrite, journal, _, _, heq, hnext, hextends.mono fun _ he => he.1⟩

/-- Closing does nothing, or there is an open channel to close. -/
theorem close_cases (c : Connection) (id : ChannelId) (kind : CloseKind) :
    c.isOpen id = false ∧ c.close id kind = c ∨
      ∃ ch, c.channels.get? id = some ch ∧ ch.closed = false := by
  cases h : c.channels.get? id with
  | none => exact .inl ⟨by rw [isOpen, h]; rfl, by rw [close, h]⟩
  | some ch =>
    cases ho : ch.closed with
    | true => exact .inl ⟨by rw [isOpen_of_get? h, ho]; rfl, by simp only [close, h, ho, if_true]⟩
    | false => exact .inr ⟨ch, rfl, ho⟩

theorem failHandshake_cases (c : Connection) (id : ChannelId) (cause : Fault) :
    c.failHandshake id cause = c ∨ ∃ ch, c.channels.get? id = some ch ∧ ch.closed = false := by
  cases h : c.channels.get? id with
  | none => exact .inl (by rw [failHandshake, h])
  | some ch =>
    cases ho : ch.closed with
    | true => exact .inl (by simp only [failHandshake, h, ho, if_true])
    | false => exact .inr ⟨ch, rfl, ho⟩

end Connection

end ChannelMux
