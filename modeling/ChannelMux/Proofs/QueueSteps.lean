import ChannelMux.Proofs.CorePaths

/-!
# Queue steps: what core steps do to queues

A channel's queue holds what has arrived and not been read.  Only three steps touch a queue: an
item is received, an item is handed over, and a channel that is closed drops what is left.  A
`QueueStep` is one of these, or it makes or removes a channel, or it leaves all queues as they are,
and with them all that was read and consumed.
-/

namespace ChannelMux

/-! ## What was read and consumed -/

/-- The payload that was read. -/
def Happening.read? : Happening → Option Bytes
  | read payload => some payload
  | _ => none

/-- The stream on which bytes are reported as consumed, and their number. -/
def WireEntry.consume? (e : WireEntry) : Option (StreamId × Nat) :=
  match e.call with
  | .consume stream size => some (stream, size)
  | _ => none

namespace Journal

/-- The payloads that were read from a channel, in their order. -/
def reads (j : Journal) (id : ChannelId) : List Bytes := (j.eventsOf id).filterMap Happening.read?

/-- The reports for a channel of bytes consumed, in their order. -/
def consumed (j : Journal) (id : ChannelId) : List (StreamId × Nat) :=
  (j.wireFor id).filterMap WireEntry.consume?

/-- The payload that an entry tells was read from a channel. -/
def readIn (id : ChannelId) (e : Entry) : Option Bytes := (e.reportOf? id).bind Happening.read?

/-- The bytes that an entry tells were consumed for a channel. -/
def consumedIn (id : ChannelId) (e : Entry) : Option (StreamId × Nat) :=
  (e.wireFor? id).bind WireEntry.consume?

/-- Nothing was read or consumed in the meantime. -/
def Mute (j j' : Journal) : Prop :=
  ∀ id, j'.reads id = j.reads id ∧ j'.consumed id = j.consumed id

variable {j j' j'' : Journal} {P : Entry → Prop}

theorem reads_eq (j : Journal) (id : ChannelId) : j.reads id = j.entries.filterMap (readIn id) := by
  rw [reads, eventsOf_eq, List.filterMap_filterMap]
  rfl

theorem consumed_eq (j : Journal) (id : ChannelId) :
    j.consumed id = j.entries.filterMap (consumedIn id) := by
  rw [consumed, wireFor, List.filterMap_filterMap]
  rfl

theorem reads_push (j : Journal) (e : Entry) (id : ChannelId) :
    (j.push e).reads id = j.reads id ++ (readIn id e).toList := by
  rw [reads_eq, reads_eq, entries_push, List.filterMap_append]
  cases h : readIn id e <;> simp [h]

theorem consumed_push (j : Journal) (e : Entry) (id : ChannelId) :
    (j.push e).consumed id = j.consumed id ++ (consumedIn id e).toList := by
  rw [consumed_eq, consumed_eq, entries_push, List.filterMap_append]
  cases h : consumedIn id e <;> simp [h]

/-- An entry that tells of nothing read and nothing consumed. -/
def IsMute (e : Entry) : Prop := ∀ id, readIn id e = none ∧ consumedIn id e = none

theorem isMute_wire (owner : Option ChannelId) {e : WireEntry} (h : e.consume? = none) :
    IsMute (.wire owner e) := by
  intro id
  refine ⟨rfl, ?_⟩
  rw [consumedIn, Entry.wireFor?]
  split
  · exact h
  · rfl

theorem isMute_turn (id : ChannelId) (on : Bool) : IsMute (.event ⟨id, .writability on⟩) := by
  intro i
  refine ⟨?_, rfl⟩
  rw [readIn, Entry.reportOf?]
  split <;> rfl

theorem isMute_of_isPlain {e : Entry} (h : e.isPlain = true) : IsMute e := by
  cases e with
  | delivered | closed => exact fun _ => ⟨rfl, rfl⟩
  | wire owner e =>
    obtain ⟨call, fault⟩ := e
    apply isMute_wire
    cases call with
    | consume => cases h
    | _ => rfl
  | event e =>
    intro id
    obtain ⟨channel, what⟩ := e
    refine ⟨?_, rfl⟩
    rw [readIn, Entry.reportOf?]
    split
    · cases what with
      | read => cases h
      | _ => rfl
    · rfl

namespace Mute

theorem of_extends (h : j.Extends P j') (hP : ∀ e, P e → IsMute e) : j.Mute j' := by
  intro id
  rw [reads_eq, reads_eq, consumed_eq, consumed_eq]
  exact ⟨h.filterMap_eq fun e he => (hP e he id).1, h.filterMap_eq fun e he => (hP e he id).2⟩

theorem refl (j : Journal) : j.Mute j := fun _ => ⟨rfl, rfl⟩

theorem push (h : j.Mute j') {e : Entry} (he : IsMute e) : j.Mute (j'.push e) := by
  intro id
  rw [reads_push, consumed_push, (he id).1, (he id).2, (h id).1, (h id).2]
  exact ⟨List.append_nil _, List.append_nil _⟩

theorem of_plain (h : j.Extends (fun e => e.isPlain = true) j') : j.Mute j' :=
  of_extends h fun _ => isMute_of_isPlain

theorem of_turned {id : ChannelId} (h : j.Turned id j') : j.Mute j' := by
  refine of_extends h ?_
  rintro _ rfl
  exact isMute_turn id true

theorem trans (h : j.Mute j') (h' : j'.Mute j'') : j.Mute j'' := fun id =>
  ⟨(h' id).1.trans (h id).1, (h' id).2.trans (h id).2⟩

end Mute

/-- What is told of an item that is handed over. -/
theorem reads_report (j : Journal) (id : ChannelId) (stream : StreamId) (item : Inbound)
    (i : ChannelId) : (j.report id stream item).reads i =
      j.reads i ++ if i = id then item.payload?.toList else [] := by
  cases item with
  | trailers => simp [report, Inbound.payload?]
  | data payload endStream =>
    rw [report, reads_push, reads_push]
    by_cases hi : i = id
    · simp [hi, readIn, Entry.reportOf?, Happening.read?, Inbound.payload?]
    · simp [hi, Ne.symm hi, readIn, Entry.reportOf?]

theorem consumed_report (j : Journal) (id : ChannelId) (stream : StreamId) (item : Inbound)
    (i : ChannelId) : (j.report id stream item).consumed i = j.consumed i ++
      if i = id then item.payload?.toList.map fun payload => (stream, payload.length) else [] := by
  cases item with
  | trailers => simp [report, Inbound.payload?]
  | data payload endStream =>
    rw [report, consumed_push, consumed_push]
    by_cases hi : i = id
    · simp [hi, consumedIn, Entry.wireFor?, WireEntry.consume?, Inbound.payload?]
    · simp [hi, Ne.symm hi, consumedIn, Entry.wireFor?]

end Journal

/-- A failed attempt to start a handshake reads nothing. -/
theorem Channel.FailedStart.mute {ch : Channel} {id : ChannelId} {es : List Entry}
    (h : ch.FailedStart id es) : ∀ e ∈ es, Journal.IsMute e := by
  cases h with
  | none => exact fun _ he => absurd he List.not_mem_nil
  | unreserved =>
    simp only [List.mem_singleton, forall_eq]
    exact Journal.isMute_wire _ rfl
  | refused =>
    simp only [List.mem_cons, List.not_mem_nil, or_false, forall_eq_or_imp, forall_eq]
    exact ⟨Journal.isMute_wire _ rfl, Journal.isMute_wire _ rfl⟩

/-- The second channel has the queue of the first. -/
structure Channel.Still (ch ch' : Channel) : Prop where
  closed : ch'.closed = ch.closed
  inbound : ch'.inbound = ch.inbound
  follows : ch.Follows ch'

namespace Channel.Still

variable {ch ch' : Channel}

theorem of_core (h : ch'.core = ch.core) : ch.Still ch' :=
  ⟨congrArg Core.closed h, congrArg Core.inbound h, .of_core h⟩

theorem refl (ch : Channel) : ch.Still ch := .of_core rfl

theorem of_akin (h : ch.Akin ch') : ch.Still ch' := ⟨h.closed, h.inbound, h.follows⟩

end Channel.Still

namespace Connection

variable {k : Cause} {c c' d : Connection} {id j : ChannelId} {ch ch' : Channel} {s t u v : Stage}

/-! ## What steps do to queues -/

/-- Closing a channel reads nothing more, drops the queue and counts what it drops. -/
structure Drops (c : Connection) (id : ChannelId) (ch : Channel) (c' : Connection) : Prop where
  emptied : ∀ ch', c'.channels.get? id = some ch' → ch'.closed = true ∧ ch'.inbound = []
  reads : ∀ i, c'.journal.reads i = c.journal.reads i
  frames : c'.stats.discardedFrames = c.stats.discardedFrames + ch.inbound.length
  bytes : c'.stats.discardedBytes = c.stats.discardedBytes + (ch.inbound.map Inbound.size).sum

theorem inboundBytes_eq (ch : Channel) : ch.inboundBytes = (ch.inbound.map Inbound.size).sum := by
  rw [Channel.inboundBytes, List.sum_eq_foldr, List.foldr_map]

theorem drops_close (h : c.channels.get? id = some ch) (ho : ch.closed = false)
    (kind : CloseKind) : Drops c id ch (c.close id kind) := by
  obtain ⟨_, journal, heq, -, hextends⟩ := close_exact h ho kind
  have hmute : c.journal.Mute journal := .of_plain (hextends.mono fun _ he => he.2)
  rw [heq]
  refine ⟨?_, fun i => (hmute i).1, rfl, ?_⟩
  · intro ch' hch'
    rw [Table.get?_insert_self] at hch'
    rw [← Option.some.inj hch']
    exact ⟨rfl, rfl⟩
  · rw [← inboundBytes_eq]

/-- What a step may do to queues. -/
inductive QueueStep (k : Cause) : Connection → Connection → Prop
  | still {c c' : Connection} :
      c.nextChannel ≤ c'.nextChannel → c.journal.Mute c'.journal →
      c.channels.Matches Channel.Still c'.channels → QueueStep k c c'
  /-- A client makes a channel only when it is asked to. -/
  | made {c c' : Connection} (ch : Channel) :
      c.config.role = .server ∨ (∃ path subprotocol, k.call = .openStream path subprotocol) →
      ch.closed = false → ch.inbound = [] → c'.channels = c.channels.insert c.nextChannel ch →
      c'.nextChannel = c.nextChannel + 1 → c.journal.Mute c'.journal → QueueStep k c c'
  | received {c : Connection} {id : ChannelId} {ch : Channel} (item : Inbound) :
      c.channels.get? id = some ch → c = { k.conn with reading := true } →
      (∃ stream, c.registry.get? stream = some (.active id)) →
      k.conn.arriving id k.call = item.payload?.toList →
      QueueStep k c { c with channels := c.channels.insert id (ch.receive item) }
  | handed {c : Connection} {id : ChannelId} {ch : Channel} {item : Inbound}
      {rest : List Inbound} :
      c.channels.get? id = some ch → ch.closed = false → ch.inbound = item :: rest →
      QueueStep k c { c with
        channels := c.channels.insert id { ch with inbound := rest }
        journal := c.journal.report id ch.stream item }
  | ended {c c' : Connection} {id : ChannelId} {ch : Channel} (ch' : Channel) :
      c.channels.get? id = some ch → ch.closed = false →
      c'.channels = c.channels.insert id ch' → ch.Over ch' → c'.nextChannel = c.nextChannel →
      c.journal.Mute c'.journal → Drops c id ch c' → QueueStep k c c'
  | tornDown {c : Connection} {id : ChannelId} (tasks : List Task) :
      (∀ ch, c.channels.get? id = some ch → ch.closed = true) →
      QueueStep k c { c with tasks := tasks, channels := c.channels.erase id }

theorem queueStep_of_beside (h : Beside d c') (hchannels : d.channels = c.channels)
    (hnext : d.nextChannel = c.nextChannel) (hmute : c.journal.Mute c'.journal) :
    QueueStep k c c' :=
  .still (Nat.le_of_eq (hnext.symm.trans h.nextChannel.symm)) hmute
    (hchannels ▸ h.channels.mono fun _ _ hakin => .of_akin hakin)

theorem queueStep_of_ended (h : c.channels.get? id = some ch) (ho : ch.closed = false)
    {es : List Entry} (hes : ch.FailedStart id es) (he : Ended c id ch es c') :
    QueueStep k c c' := by
  obtain ⟨ch', hchannels, hover⟩ := he.channels
  have htried : c.journal.Mute { c.journal with entries := c.journal.entries ++ es } :=
    .of_extends (P := fun e => e ∈ es) ⟨es, rfl, fun _ he => he⟩ hes.mute
  have hmute : c.journal.Mute c'.journal := htried.trans (.of_plain he.journal)
  refine .ended ch' h ho hchannels hover he.nextChannel hmute ⟨?_, fun i => (hmute i).1,
    he.frames, inboundBytes_eq ch ▸ he.bytes⟩
  intro d hd
  rw [hchannels, Table.get?_insert_self] at hd
  rw [← Option.some.inj hd]
  exact ⟨hover.closed, hover.inbound⟩

theorem queueStep_of_coreStep {strict : Prop} (ht : s.conn.Tidy) (h : CoreStep strict k s t) :
    QueueStep k s.conn t.conn := by
  cases h with
  | plain ws hp =>
    exact .still (Nat.le_of_eq hp.nextChannel.symm) (.of_plain hp.journal)
      (hp.channels fun _ _ => .of_core)
  | asked path subprotocol ws _ hk =>
    rw [addAsking_eq]
    exact .made _ (.inr ⟨path, subprotocol, congrArg Cause.call hk⟩) (by rfl) (by rfl) rfl rfl
      (.refl _)
  | enrolled _ _ _ _ _ hrole =>
    exact .made _ (.inl hrole) (by rfl) (by rfl) rfl rfl
      ((Journal.Mute.refl _).push (Journal.isMute_wire _ rfl))
  | turnedAway =>
    exact .still (Nat.le_succ _) ((Journal.Mute.refl _).push (Journal.isMute_wire _ rfl))
      (.refl .refl _)
  | requested block ws hch ho ha =>
    exact .still (Nat.le_refl _) (((Journal.Mute.refl _).push (Journal.isMute_wire _ rfl)).push
      (Journal.isMute_wire _ rfl)) (.insert .refl hch ⟨rfl, rfl, .inr ⟨ho, ha⟩, nofun⟩)
  | weightCached weight ws hch =>
    exact .still (Nat.le_refl _) (.refl _) (.insert .refl hch ⟨rfl, rfl, .inl rfl, .intro⟩)
  | received item ws hch hc hr hitem => exact .received item hch hc hr hitem
  | handed ws hch ho hq => exact .handed hch ho hq
  | @takenUp c id ch payload _ _ hch =>
    obtain ⟨_, heq, -⟩ := countBytes_eq (c.issue .held).2 id ch payload.length
    rw [heq]
    exact .still (Nat.le_refl _) (.refl _) (.insert .refl hch ⟨rfl, rfl, .inl rfl, .intro⟩)
  | parked hch =>
    exact .still (Nat.le_refl _) (.refl _) (.insert .refl hch ⟨rfl, rfl, .inl rfl, .intro⟩)
  | unparked subprotocol compression hch =>
    exact .still (Nat.le_refl _) (.refl _)
      (.modify .refl _ _ fun _ _ => ⟨rfl, rfl, .inl rfl, nofun⟩)
  | sent =>
    exact .still (Nat.le_refl _) ((Journal.Mute.refl _).push (Journal.isMute_wire _ rfl))
      (.refl .refl _)
  | @bounced c w _ ch f =>
    have hsent : c.journal.Mute (c.journal.push (.wire (some w.channel)
        ⟨.data c.nextWrite ch.stream w.payload false, some f⟩)) :=
      (Journal.Mute.refl _).push (Journal.isMute_wire _ rfl)
    exact queueStep_of_beside (beside_settleWrite ..) rfl rfl
      (hsent.trans (.of_turned (turned_settleWrite ..)))
  | settled =>
    exact queueStep_of_beside (beside_settleWrite ..) rfl rfl (.of_turned (turned_settleWrite ..))
  | @recovered c id ch ws hch =>
    obtain ⟨_, _, heq, -, hturned⟩ := recoverChannel_eq hch
    refine queueStep_of_beside (beside_recoverChannel ..) rfl rfl ?_
    rw [heq]
    exact .of_turned hturned
  | ended ws hch ho hes he => exact queueStep_of_ended hch ho hes he
  | gaveUp cause ws hch =>
    refine queueStep_of_beside (.failParked ..) rfl rfl ?_
    rw [failParked_eq hch]
    exact .refl _
  | cleared =>
    exact .still (Nat.le_refl _) ((Journal.Mute.refl _).push (Journal.isMute_wire _ rfl))
      (.refl .refl _)
  | turned =>
    exact .still (Nat.le_refl _) ((Journal.Mute.refl _).push (Journal.isMute_turn _ _))
      (.refl .refl _)
  | tornDown ws htask => exact .tornDown _ (ht.doomed (htask ▸ List.mem_cons_self)).2
  | _ => exact .still (Nat.le_refl _) (.refl _) (.refl .refl _)

namespace QueueStep

/-- Channels are numbered in the order in which they are made. -/
theorem nextChannel (hf : QueueStep k c c') : c.nextChannel ≤ c'.nextChannel := by
  cases hf with
  | still hnext => exact hnext
  | made _ _ _ _ _ hnext => exact Nat.le_of_lt (Nat.lt_of_succ_le (Nat.le_of_eq hnext.symm))
  | ended _ _ _ _ _ hnext => exact Nat.le_of_eq hnext.symm
  | received | handed | tornDown => exact Nat.le_refl _

/-- A channel was there before, and follows what it was then, unless it is new. -/
theorem follows (hf : QueueStep k c c') (hid : id < c.nextChannel ∨
      c.config.role = .client ∧ ∀ path subprotocol, k.call ≠ .openStream path subprotocol)
    (hch' : c'.channels.get? id = some ch') :
    ∃ ch, c.channels.get? id = some ch ∧ ch.Follows ch' := by
  have back (h : c.channels.Matches Channel.Follows c'.channels) :
      ∃ ch, c.channels.get? id = some ch ∧ ch.Follows ch' := h.back hch'
  cases hf with
  | still _ _ hchannels => exact back (hchannels.mono fun _ _ hstill => hstill.follows)
  | made ch hwhy _ _ hchannels =>
    rcases hid with hid | ⟨hclient, hnot⟩
    · rw [hchannels, Table.get?_insert_of_ne (Nat.ne_of_lt hid)] at hch'
      exact ⟨ch', hch', .refl ch'⟩
    · rcases hwhy with hserver | ⟨path, subprotocol, hk⟩
      · exact absurd (hclient.symm.trans hserver) (by decide)
      · exact absurd hk (hnot path subprotocol)
  | received item hch => exact back (.insert .refl hch (alike_receive _ item).follows)
  | handed hch => exact back (.insert .refl hch ⟨.inl rfl, .intro⟩)
  | ended d hch ho hchannels hover =>
    exact back (hchannels ▸ .insert .refl hch (hover.follows ho))
  | tornDown => exact ⟨ch', Table.get?_of_erase hch', .refl ch'⟩

/-- A channel that is closed by a step drops its queue. -/
theorem drops (hf : QueueStep k c c') (ht : c.Tidy) (hch : c.channels.get? id = some ch)
    (ho : ch.closed = false) (hclosed : c'.isOpen id = false) : Drops c id ch c' := by
  have hopen : c.isOpen id = true := isOpen_iff.mpr ⟨ch, hch, ho⟩
  have hkept (heq : c'.isOpen id = c.isOpen id) : False :=
    absurd ((hclosed.symm.trans heq).trans hopen) (by decide)
  cases hf with
  | still _ _ hchannels =>
    obtain ⟨ch', hch', hstill⟩ := hchannels.forth hch
    exact (hkept (by rw [isOpen_of_get? hch', isOpen_of_get? hch, hstill.closed])).elim
  | made d _ _ _ hchannels =>
    have hne : id ≠ c.nextChannel := Nat.ne_of_lt (ht.numbered hch)
    exact (hkept (isOpen_congr (by rw [hchannels, Table.get?_insert_of_ne hne]))).elim
  | received item hd => exact (hkept (isOpen_insert hd (alike_receive _ item).closed id)).elim
  | handed hd => exact (hkept (isOpen_insert hd (by rfl) id)).elim
  | @ended _ j d _ hd _ hchannels _ _ _ hdrops =>
    by_cases hid : id = j
    · subst hid
      obtain rfl := Option.some.inj (hch.symm.trans hd)
      exact hdrops
    · exact (hkept (isOpen_congr (by rw [hchannels, Table.get?_insert_of_ne hid]))).elim
  | @tornDown j tasks hgone =>
    by_cases hid : id = j
    · subst hid
      exact absurd (ho.symm.trans (hgone ch hch)) (by decide)
    · exact (hkept (isOpen_congr ((Table.get?_erase ..).trans (if_neg hid)))).elim

/-- A channel that is not open is not opened again. -/
theorem stays_closed (hf : QueueStep k c c') (hid : id < c.nextChannel)
    (hclosed : c.isOpen id = false) : c'.isOpen id = false := by
  cases hf with
  | still _ _ hchannels =>
    refine Bool.eq_false_iff.mpr fun hopen => ?_
    obtain ⟨ch', hch', ho⟩ := isOpen_iff.mp hopen
    obtain ⟨ch, hch, hstill⟩ := hchannels.back hch'
    rw [isOpen_of_get? hch, ← hstill.closed, ho] at hclosed
    cases hclosed
  | made d _ _ _ hchannels =>
    refine (isOpen_congr ?_).trans hclosed
    rw [hchannels, Table.get?_insert_of_ne (Nat.ne_of_lt hid)]
  | received item hd => exact (isOpen_insert hd (alike_receive _ item).closed id).trans hclosed
  | handed hd => exact (isOpen_insert hd (by rfl) id).trans hclosed
  | @ended _ j d ch' _ _ hchannels hover =>
    by_cases hj : id = j
    · rw [hj, isOpen, hchannels, Table.get?_insert_self, Option.any_some, hover.closed]
      rfl
    · exact (isOpen_congr (by rw [hchannels, Table.get?_insert_of_ne hj])).trans hclosed
  | @tornDown j tasks _ =>
    by_cases hj : id = j
    · rw [hj, isOpen, Table.get?_erase, if_pos rfl]
      rfl
    · exact (isOpen_congr ((Table.get?_erase ..).trans (if_neg hj))).trans hclosed

end QueueStep

end Connection

end ChannelMux
