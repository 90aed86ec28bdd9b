import ChannelMux.Proofs.Outbox

/-!
# Holes: what is sent after a failed write

A write that fails leaves a hole in what was sent for its channel.  The channel is closed, or, where
a failed write closes no channel, it has ended its half of the stream; either way it is spent:
nothing is sent for it in any later call, and every later write to it is refused.

Within a call there is one way around this.  When a handshake completes, the parked writes of the
channel are sent one after another, and only the end of the channel stops them.  So if the encoder
refuses one of them and the channel is not closed for it, the rest is sent after the hole.
-/

namespace ChannelMux

namespace Entry

/-- The encoder refused a payload of the channel. -/
def isRefused (id : ChannelId) : Entry → Bool
  | wire owner e =>
    match e.call with
    | .data _ _ _ false => owner = some id && e.fault.isSome
    | _ => false
  | event _ | delivered .. | closed _ => false

theorem isRefused_of_none {id : ChannelId} {e : Entry} (h : e.payloadOf? id = none) :
    e.isRefused id = false := by
  cases e with
  | wire owner entry =>
    obtain ⟨call, fault⟩ := entry
    cases call with
    | data write stream payload endStream =>
      cases endStream with
      | true => rfl
      | false =>
        have hne : owner ≠ some id := by simpa [payloadOf?] using h
        simp [isRefused, hne]
    | _ => rfl
  | event | delivered | closed => rfl

theorem isSome_of_isRefused {id : ChannelId} {e : Entry} (h : e.isRefused id = true) :
    (e.payloadOf? id).isSome = true := by
  rw [Option.isSome_iff_ne_none]
  intro hnone
  rw [isRefused_of_none hnone] at h
  cases h

/-- The entry carries no payload of any channel. -/
def Bare (e : Entry) : Prop := ∀ id, e.payloadOf? id = none

theorem payloadOf?_data {id j : ChannelId} (write : WriteId) (stream : StreamId) (payload : Bytes)
    (fault : Option WriteFault) :
    (wire (some id) ⟨.data write stream payload false, fault⟩).payloadOf? j =
      if id = j then some payload else none := by
  simp [payloadOf?]

/-- If a payload of a channel is sent after one that was refused, then a failed write closes no
channel. -/
def NoHole (spares : Prop) (xs : List Entry) (e : Entry) : Prop :=
  ∀ id, (e.payloadOf? id).isSome = true → xs.any (isRefused id) = true → spares

theorem Bare.noHole {spares : Prop} {e : Entry} (h : e.Bare) (xs : List Entry) :
    NoHole spares xs e := by
  intro id hsome
  rw [h id] at hsome
  cases hsome

end Entry

/-- What is about to be put down is not for the channel. -/
def Stage.Avoids (s : Stage) (id : ChannelId) : Prop := ∀ w ∈ s.loose, w.channel ≠ id

theorem Stage.Avoids.tail {c c' : Connection} {w : LooseWrite} {ws : List LooseWrite}
    {id : ChannelId} (h : Stage.Avoids ⟨c, w :: ws⟩ id) : Stage.Avoids ⟨c', ws⟩ id :=
  fun v hv => h v (List.mem_cons_of_mem w hv)

namespace Connection

variable {k : Cause} {c c' d : Connection} {id j : ChannelId} {ch ch' : Channel}
  {ws : List LooseWrite} {s t : Stage} {payload : Bytes}

/-! ## Spent channels -/

/-- The channel of the number has come, and if it is still there, it is closed, or it has ended its
half of the stream after its handshake was decided. -/
def Spent (c : Connection) (id : ChannelId) : Prop :=
  id < c.nextChannel ∧ ∀ ch, c.channels.get? id = some ch →
    ch.closed = true ∨ ch.outboundClosed = true ∧ ch.handshake.isPending = false

namespace Spent

/-- Channels have closed, or they send as they did. -/
theorem of_back (h : c.Spent id) (hnext : c.nextChannel ≤ c'.nextChannel)
    (hback : ∀ ch', c'.channels.get? id = some ch' → ch'.closed = true ∨
      ∃ ch, c.channels.get? id = some ch ∧ ch.Constant ch') : c'.Spent id := by
  refine ⟨Nat.lt_of_lt_of_le h.1 hnext, fun ch' hch' => ?_⟩
  rcases hback ch' hch' with hclosed | ⟨ch, hch, hconst⟩
  · exact .inl hclosed
  · rw [hconst.closed, hconst.outboundClosed, hconst.handshake]
    exact h.2 ch hch

/-- It is not a channel that is open and still sends, or waits for its handshake. -/
theorem ne (h : c.Spent id) (hch : c.channels.get? j = some ch) (ho : ch.closed = false)
    (hsends : ch.outboundClosed = false ∨ ch.handshake.isPending = true) : j ≠ id := by
  rintro rfl
  rcases h.2 ch hch with hclosed | ⟨hout, hp⟩
  · exact absurd (ho.symm.trans hclosed) (by decide)
  · rcases hsends with hsends | hsends
    · exact absurd (hsends.symm.trans hout) (by decide)
    · exact absurd (hsends.symm.trans hp) (by decide)

/-- Another channel has got a new value. -/
theorem insert (h : c.Spent id) (hj : j ≠ id) (hnext : c.nextChannel ≤ c'.nextChannel)
    (hchannels : c'.channels = c.channels.insert j ch') : c'.Spent id := by
  refine h.of_back hnext fun e he => .inr ⟨e, ?_, .refl e⟩
  rwa [hchannels, Table.get?_insert_of_ne hj.symm] at he

theorem aloof (h : c.Spent id) (ha : Aloof k c c') : c'.Spent id :=
  h.of_back ha.nextChannel fun _ hch' => .inr (ha.channels.back hch')

theorem shuts (h : c.Spent id) (hs : Shuts c j ch c') : c'.Spent id :=
  h.of_back hs.nextChannel fun _ he => (hs.cases he).imp_left fun hshut => hshut.2.1

theorem writeFailed (h : c.Spent id) (j : ChannelId) : (c.writeFailed j).Spent id := by
  rcases writeFailed_shuts c j with ⟨-, heq⟩ | ⟨ch, hch, -, hshuts | ⟨-, heq⟩⟩
  · rw [heq]
    exact h
  · exact h.shuts hshuts
  · rw [heq]
    refine ⟨h.1, fun e he => ?_⟩
    rcases Table.get?_insert_cases he with ⟨rfl, rfl⟩ | he
    · exact (h.2 ch hch).imp (fun hclosed => hclosed) fun ⟨_, hp⟩ => ⟨rfl, hp⟩
    · exact h.2 e he

end Spent

/-- A failed write makes a channel spent whose handshake was decided. -/
theorem spent_writeFailed (hid : id < c.nextChannel)
    (hp : ∀ ch, c.channels.get? id = some ch → ch.closed = false →
      ch.handshake.isPending = false) : (c.writeFailed id).Spent id := by
  rcases writeFailed_shuts c id with
    ⟨hclosed, heq⟩ | ⟨ch, hch, ho, hshuts | ⟨-, heq⟩⟩
  · rw [heq]
    refine ⟨hid, fun ch hch => .inl ?_⟩
    rwa [isOpen_of_get? hch, Bool.not_eq_false'] at hclosed
  · obtain ⟨ch', hch', hclosed, -⟩ := hshuts.channel
    refine ⟨Nat.lt_of_lt_of_le hid hshuts.nextChannel, fun e he => .inl ?_⟩
    exact Option.some.inj (he.symm.trans hch') ▸ hclosed
  · rw [heq]
    refine ⟨hid, fun e he => .inr ?_⟩
    obtain rfl := Option.some.inj ((Table.get?_insert_self ..).symm.trans he)
    exact ⟨rfl, hp ch hch ho⟩

theorem extends_writeFailed (c : Connection) (id : ChannelId) :
    c.journal.Extends Entry.Bare (c.writeFailed id).journal := by
  rcases writeFailed_shuts c id with ⟨-, heq⟩ | ⟨ch, -, -, hshuts | ⟨-, heq⟩⟩
  · rw [heq]
    exact .refl _
  · exact hshuts.journal
  · rw [heq]
    exact .refl _

/-! ## Steps -/

theorem Aloof.bare (h : Aloof k c c') : c.journal.Extends Entry.Bare c'.journal :=
  h.journal.mono fun _ he => Entry.payloadOf?_of_idle he.idle

/-- A step sends no payload, or that of a loose write to an open channel, which is spent if the
encoder refuses it. -/
theorem encoderStep_cases (h : EncoderStep k s t) :
    s.conn.journal.Extends Entry.Bare t.conn.journal ∨
    ∃ w ch fault, w ∈ s.loose ∧ s.conn.channels.get? w.channel = some ch ∧ ch.closed = false ∧
      (s.conn.journal.push (.wire (some w.channel)
        ⟨.data s.conn.nextWrite ch.stream w.payload false, fault⟩)).Extends Entry.Bare
          t.conn.journal ∧
      (fault.isSome = true → w.channel < s.conn.nextChannel → t.conn.Spent w.channel) := by
  cases h with
  | aloof _ ha | takenUp _ _ _ _ _ _ ha | dropped _ ha => exact .inl ha.bare
  | asked path subprotocol ws _ =>
    rw [addAsking_eq]
    exact .inl (.refl _)
  | requested block ws _ _ _ =>
    exact .inl (((Journal.Extends.refl _).push fun _ => rfl).push fun _ => rfl)
  | enrolled path subprotocol compression block ws _ =>
    exact .inl (Journal.extends_push _ fun _ => rfl)
  | parked | unparked | tornDown => exact .inl (.refl _)
  | @sent c w ws ch hch ho hp =>
    exact .inr ⟨w, ch, none, List.mem_cons_self, hch, ho, .refl _, nofun⟩
  | @bounced c d w ws ch f hch ho hp ha =>
    refine .inr ⟨w, ch, some f, List.mem_cons_self, hch, ho,
      ha.bare.trans (extends_writeFailed d w.channel), fun _ hid => ?_⟩
    refine spent_writeFailed (Nat.lt_of_lt_of_le hid ha.nextChannel) fun e he _ => ?_
    obtain ⟨e', he', hconst⟩ := ha.channels.back he
    obtain rfl := Option.some.inj (hch.symm.trans he')
    rw [hconst.handshake]
    exact hp
  | failed c id ws => exact .inl (extends_writeFailed c id)
  | ended kind ws _ _ hl _ => exact .inl (hl.shuts kind).journal
  | requestRefused block f ws _ _ _ hl _ _ => exact .inl (hl.shuts .reset).journal

/-- A spent channel stays spent, and nothing comes to be sent for it. -/
theorem Spent.encoderStep (h : s.conn.Spent id) (hs : EncoderStep k s t) :
    t.conn.Spent id ∧ (s.Avoids id → t.Avoids id) := by
  cases hs with
  | aloof ws ha => exact ⟨h.aloof ha, fun hw => hw⟩
  | @asked c path subprotocol ws hrole =>
    rw [addAsking_eq]
    exact ⟨h.insert (Nat.ne_of_gt h.1) (Nat.le_succ _) rfl, fun hw => hw⟩
  | requested block ws hch ho ha =>
    have hne := h.ne hch ho (.inr (by rw [ha]; rfl))
    exact ⟨h.insert hne (Nat.le_refl _) rfl, fun hw => hw⟩
  | @enrolled c stream path subprotocol compression block ws hrole =>
    exact ⟨h.insert (Nat.ne_of_gt h.1) (Nat.le_succ _) rfl, fun hw => hw⟩
  | takenUp ticket hk hc hch ho hout ha =>
    refine ⟨h.aloof ha, fun _ w hw => ?_⟩
    rw [List.mem_singleton.mp hw]
    exact h.ne hch ho (.inl hout)
  | parked hch ho hp hpush =>
    exact ⟨h.insert (h.ne hch ho (.inr hp)) (Nat.le_refl _) rfl, Stage.Avoids.tail⟩
  | unparked subprotocol compression hch ho hs =>
    have hne := h.ne hch ho (.inr (by rw [hs]; rfl))
    refine ⟨h.insert hne (Nat.le_refl _) rfl, fun _ w hw => ?_⟩
    obtain ⟨_, -, rfl⟩ := List.mem_map.mp hw
    exact hne
  | sent hch ho hp => exact ⟨⟨h.1, h.2⟩, Stage.Avoids.tail⟩
  | @bounced c d w ws ch f hch ho hp ha =>
    have hnoted : (c.note (.wire (some w.channel)
        ⟨.data c.nextWrite ch.stream w.payload false, some f⟩)).Spent id := ⟨h.1, h.2⟩
    exact ⟨(hnoted.aloof ha).writeFailed w.channel, Stage.Avoids.tail⟩
  | dropped hclosed ha => exact ⟨h.aloof ha, Stage.Avoids.tail⟩
  | failed c j ws => exact ⟨h.writeFailed j, fun hw => hw⟩
  | ended kind ws hch ho hl hs => exact ⟨h.shuts (hl.shuts kind), fun hw => hw⟩
  | requestRefused block f ws hch ho ha hl hs hd => exact ⟨h.shuts (hl.shuts .reset), fun hw => hw⟩
  | tornDown tasks ws =>
    exact ⟨h.of_back (Nat.le_refl _) fun e he => .inr ⟨e, Table.get?_of_erase he, .refl e⟩,
      fun hw => hw⟩

/-- Only what was about to be put down is sent. -/
theorem payloads_of_avoids (hs : EncoderStep k s t) (hw : s.Avoids id) :
    t.conn.journal.payloads id = s.conn.journal.payloads id := by
  rcases encoderStep_cases hs with hbare | ⟨w, ch, fault, hmem, -, -, hext, -⟩
  · exact payloads_continued hbare fun _ he => he id
  · rw [payloads_continued hext fun _ he => he id, payloads_push, Entry.payloadOf?_data,
      if_neg (hw w hmem)]
    exact List.append_nil _

/-- Over the steps of a call nothing is sent for a channel that is spent at the start. -/
theorem Spent.encoderPath (h : c.Spent id) (hs : EncoderPath k ⟨c, []⟩ s) :
    s.conn.Spent id ∧ s.conn.journal.payloads id = c.journal.payloads id := by
  have hall := hs.induction (P := fun u => u.conn.Spent id ∧ u.Avoids id ∧
    u.conn.journal.payloads id = c.journal.payloads id) ?_
    ⟨h, fun _ hw => absurd hw List.not_mem_nil, rfl⟩
  · exact ⟨hall.1, hall.2.2⟩
  rintro u v hstep ⟨hspent, hw, heq⟩
  obtain ⟨hspent', hw'⟩ := hspent.encoderStep hstep
  exact ⟨hspent', hw' hw, (payloads_of_avoids hstep hw).trans heq⟩

/-! ## After a hole -/

/-- Writes are on their way only for channels whose handshake was decided, and a channel has ended
its half of the stream only where a failed write does not close it. -/
structure Sending (c : Connection) : Prop where
  numbered : ∀ id ch, c.channels.get? id = some ch → id < c.nextChannel
  begun : ∀ w e, c.inflight.get? w = some e → e.channel < c.nextChannel ∧
    ∀ ch, c.channels.get? e.channel = some ch → ch.closed = false →
      ch.handshake.isPending = false
  policy : ∀ id ch, c.channels.get? id = some ch → ch.closed = false →
    ch.outboundClosed = true → c.config.closeOnWriteFailure = false

namespace Sending

/-- Channels have closed, or they send as they did. -/
theorem of_back (h : c.Sending) (hconfig : c'.config = c.config)
    (hnext : c.nextChannel ≤ c'.nextChannel)
    (hinflight : ∀ w e, c'.inflight.get? w = some e → c.inflight.get? w = some e)
    (hback : ∀ id ch', c'.channels.get? id = some ch' → id < c.nextChannel ∧
      (ch'.closed = true ∨ ∃ ch, c.channels.get? id = some ch ∧ ch.Constant ch')) : c'.Sending where
  numbered id ch' hch' := Nat.lt_of_lt_of_le (hback id ch' hch').1 hnext
  begun w e he := by
    obtain ⟨hlt, hbegun⟩ := h.begun w e (hinflight w e he)
    refine ⟨Nat.lt_of_lt_of_le hlt hnext, fun ch' hch' ho => ?_⟩
    obtain ⟨-, hclosed | ⟨ch, hch, hconst⟩⟩ := hback e.channel ch' hch'
    · exact absurd (ho.symm.trans hclosed) (by decide)
    · rw [hconst.handshake]
      exact hbegun ch hch (hconst.closed.symm.trans ho)
  policy id ch' hch' ho hout := by
    rw [hconfig]
    obtain ⟨-, hclosed | ⟨ch, hch, hconst⟩⟩ := hback id ch' hch'
    · exact absurd (ho.symm.trans hclosed) (by decide)
    · exact h.policy id ch hch (hconst.closed.symm.trans ho) (hconst.outboundClosed.symm.trans hout)

theorem aloof (h : c.Sending) (ha : Aloof k c c') : c'.Sending := by
  refine h.of_back ha.config ha.nextChannel ha.inflight fun id ch' hch' => ?_
  obtain ⟨ch, hch, hconst⟩ := ha.channels.back hch'
  exact ⟨h.numbered id ch hch, .inr ⟨ch, hch, hconst⟩⟩

theorem shuts (h : c.Sending) (hch : c.channels.get? id = some ch) (hs : Shuts c id ch c') :
    c'.Sending := by
  refine h.of_back hs.config hs.nextChannel hs.inflight fun j e he => ?_
  rcases hs.cases he with ⟨rfl, hclosed, -⟩ | ⟨d, hd, hconst⟩
  · exact ⟨h.numbered j ch hch, .inl hclosed⟩
  · exact ⟨h.numbered j d hd, .inr ⟨d, hd, hconst⟩⟩

/-- One channel has got a new value, and its handshake is not pending again. -/
theorem insert (h : c.Sending) (hconfig : c'.config = c.config)
    (hnext : c'.nextChannel = c.nextChannel) (hinflight : c'.inflight = c.inflight)
    (hchannels : c'.channels = c.channels.insert id ch') (hch : c.channels.get? id = some ch)
    (hclosed : ch'.closed = ch.closed)
    (hp : ch.handshake.isPending = false → ch'.handshake.isPending = false)
    (hout : ch'.outboundClosed = true → ch.outboundClosed = true ∨
      c.config.closeOnWriteFailure = false) : c'.Sending := by
  have hcases {i : ChannelId} {e : Channel} (he : c'.channels.get? i = some e) :
      i = id ∧ e = ch' ∨ c.channels.get? i = some e :=
    Table.get?_insert_cases (hchannels ▸ he)
  constructor
  case numbered =>
    intro i e he
    rw [hnext]
    rcases hcases he with ⟨rfl, -⟩ | he
    · exact h.numbered i ch hch
    · exact h.numbered i e he
  case begun =>
    intro w f hf
    obtain ⟨hlt, hbegun⟩ := h.begun w f (hinflight ▸ hf)
    refine ⟨hnext ▸ hlt, fun e he ho => ?_⟩
    rcases hcases he with ⟨heq, rfl⟩ | he
    · exact hp (hbegun ch (heq ▸ hch) (hclosed.symm.trans ho))
    · exact hbegun e he ho
  case policy =>
    intro i e he ho hends
    rw [hconfig]
    rcases hcases he with ⟨rfl, rfl⟩ | he
    · exact (hout hends).elim (h.policy i ch hch (hclosed.symm.trans ho)) id
    · exact h.policy i e he ho hends

/-- A channel has come. -/
theorem made (h : c.Sending) (hconfig : c'.config = c.config)
    (hnext : c'.nextChannel = c.nextChannel + 1) (hinflight : c'.inflight = c.inflight)
    (hchannels : c'.channels = c.channels.insert c.nextChannel ch')
    (hout : ch'.outboundClosed = false) : c'.Sending := by
  have hcases {i : ChannelId} {e : Channel} (he : c'.channels.get? i = some e) :
      i = c.nextChannel ∧ e = ch' ∨ c.channels.get? i = some e :=
    Table.get?_insert_cases (hchannels ▸ he)
  constructor
  case numbered =>
    intro i e he
    rw [hnext]
    rcases hcases he with ⟨rfl, -⟩ | he
    · exact Nat.lt_succ_self _
    · exact Nat.lt_succ_of_lt (h.numbered i e he)
  case begun =>
    intro w f hf
    obtain ⟨hlt, hbegun⟩ := h.begun w f (hinflight ▸ hf)
    refine ⟨hnext ▸ Nat.lt_succ_of_lt hlt, fun e he ho => ?_⟩
    rcases hcases he with ⟨heq, -⟩ | he
    · exact absurd hlt (heq ▸ Nat.lt_irrefl _)
    · exact hbegun e he ho
  case policy =>
    intro i e he ho hends
    rw [hconfig]
    rcases hcases he with ⟨-, rfl⟩ | he
    · exact absurd (hout.symm.trans hends) (by decide)
    · exact h.policy i e he ho hends

theorem writeFailed (h : c.Sending) (id : ChannelId) : (c.writeFailed id).Sending := by
  rcases writeFailed_shuts c id with ⟨-, heq⟩ | ⟨ch, hch, -, hshuts | ⟨hpolicy, heq⟩⟩
  · rw [heq]
    exact h
  · exact h.shuts hch hshuts
  · rw [heq]
    exact h.insert rfl rfl rfl rfl hch rfl (fun hp => hp) fun _ => .inr hpolicy

/-- A write was handed to the encoder. -/
theorem enterWrite (h : c.Sending) (hch : c.channels.get? id = some ch)
    (hp : ch.handshake.isPending = false) (payload : Bytes) (ticket : Ticket) (journal : Journal) :
    ({ c.enterWrite id payload ticket with journal := journal }).Sending where
  numbered := h.numbered
  begun w e he := by
    rcases Table.get?_insert_cases he with ⟨-, rfl⟩ | he
    · refine ⟨h.numbered id ch hch, fun e he _ => ?_⟩
      rw [← Option.some.inj (hch.symm.trans he)]
      exact hp
    · exact h.begun w e he
  policy := h.policy

theorem encoderStep (h : s.conn.Sending) (hs : EncoderStep k s t) : t.conn.Sending := by
  cases hs with
  | aloof ws ha | takenUp _ _ _ _ _ _ ha | dropped _ ha => exact h.aloof ha
  | asked path subprotocol ws hrole =>
    rw [addAsking_eq]
    exact h.made rfl rfl rfl rfl rfl
  | requested block ws hch ho ha =>
    exact h.insert rfl rfl rfl rfl hch rfl (fun hp => by rw [ha] at hp; cases hp) .inl
  | enrolled path subprotocol compression block ws hrole => exact h.made rfl rfl rfl rfl rfl
  | parked hch ho hp hpush => exact h.insert rfl rfl rfl rfl hch rfl (fun hp => hp) .inl
  | unparked subprotocol compression hch ho hs =>
    exact h.insert rfl rfl rfl rfl hch rfl (fun _ => rfl) .inl
  | sent hch ho hp => exact h.enterWrite hch hp _ _ _
  | @bounced c d w ws ch f hch ho hp ha =>
    have hnoted : (c.note (.wire (some w.channel)
        ⟨.data c.nextWrite ch.stream w.payload false, some f⟩)).Sending :=
      ⟨h.numbered, h.begun, h.policy⟩
    exact (hnoted.aloof ha).writeFailed w.channel
  | failed c id ws => exact h.writeFailed id
  | ended kind ws hch ho hl hs => exact h.shuts hch (hl.shuts kind)
  | requestRefused block f ws hch ho ha hl hs hd => exact h.shuts hch (hl.shuts .reset)
  | tornDown tasks ws =>
    refine h.of_back rfl (Nat.le_refl _) (fun _ _ he => he) fun id e he => ?_
    have hbefore := Table.get?_of_erase he
    exact ⟨h.numbered id e hbefore, .inr ⟨e, hbefore, .refl e⟩⟩

end Sending

theorem config_encoderStep (h : EncoderStep k s t) : t.conn.config = s.conn.config := by
  have hfailed (c : Connection) (id : ChannelId) : (c.writeFailed id).config = c.config := by
    rcases writeFailed_shuts c id with ⟨-, heq⟩ | ⟨ch, -, -, hshuts | ⟨-, heq⟩⟩
    · rw [heq]
    · exact hshuts.config
    · rw [heq]
  cases h with
  | aloof _ ha | takenUp _ _ _ _ _ _ ha | dropped _ ha => exact ha.config
  | bounced f _ _ _ ha => exact (hfailed ..).trans ha.config
  | failed c id ws => exact hfailed c id
  | ended kind ws _ _ hl _ => exact (hl.shuts kind).config
  | requestRefused block f ws _ _ _ hl _ _ => exact (hl.shuts .reset).config
  | asked path subprotocol ws _ => rw [addAsking_eq]
  | _ => rfl

/-- A refused payload has made its channel spent, and no payload follows it where a failed write
closes the channel. -/
structure Halting (c : Connection) : Prop where
  sending : c.Sending
  broken : ∀ id, ∀ e ∈ c.journal.entries, e.isRefused id = true → c.Spent id
  spared : c.journal.Obeys (Entry.NoHole (c.config.closeOnWriteFailure = false))

theorem Halting.encoderStep (h : s.conn.Halting) (hs : EncoderStep k s t) : t.conn.Halting := by
  have hkept {id : ChannelId} {e : Entry} (he : e ∈ s.conn.journal.entries)
      (hrefused : e.isRefused id = true) : t.conn.Spent id :=
    ((h.broken id e he hrefused).encoderStep hs).1
  have hbare {id : ChannelId} {e : Entry} (he : e.Bare) (hrefused : e.isRefused id = true) :
      False := by
    rw [Entry.isRefused_of_none (he id)] at hrefused
    cases hrefused
  refine { sending := h.sending.encoderStep hs, broken := ?broken, spared := ?spared }
  case broken =>
    intro id e he hrefused
    rcases encoderStep_cases hs with
      ⟨es, hes, hall⟩ | ⟨w, ch, fault, -, hch, -, ⟨es, hes, hall⟩, hspent⟩
    · rw [hes, List.mem_append] at he
      rcases he with he | he
      · exact hkept he hrefused
      · exact (hbare (hall e he) hrefused).elim
    · rw [hes, Journal.entries_push, List.mem_append, List.mem_append, List.mem_singleton] at he
      rcases he with (he | rfl) | he
      · exact hkept he hrefused
      · rw [Entry.isRefused, Bool.and_eq_true, decide_eq_true_eq] at hrefused
        obtain ⟨howner, hfault⟩ := hrefused
        obtain rfl := Option.some.inj howner
        exact hspent hfault (h.sending.numbered _ ch hch)
      · exact (hbare (hall e he) hrefused).elim
  case spared =>
    rw [config_encoderStep hs]
    rcases encoderStep_cases hs with hext | ⟨w, ch, fault, -, hch, ho, hext, -⟩
    · exact h.spared.continued hext fun xs e he => Entry.Bare.noHole he xs
    · refine (h.spared.push ?_).continued hext fun xs e he => Entry.Bare.noHole he xs
      intro id hsome hrefused
      rw [Entry.payloadOf?_data] at hsome
      have hid : w.channel = id := by
        by_contra hne
        rw [if_neg hne] at hsome
        cases hsome
      subst hid
      obtain ⟨e, he, hrefused⟩ := List.any_eq_true.mp hrefused
      rcases (h.broken _ e he hrefused).2 ch hch with hclosed | ⟨hout, -⟩
      · exact absurd (ho.symm.trans hclosed) (by decide)
      · exact h.sending.policy _ ch hch ho hout

/-! ## Runs -/

theorem halting_run {config : Config} {encoder : Encoder} (h : start config encoder = .ok c)
    (ks : List Call) : (c.run ks).Halting := by
  refine encoderPath_induction h (fun _ _ _ hs hc => hc.encoderStep hs) ?_ ks
  obtain rfl := (start_eq h).1
  exact
    { sending :=
        { numbered := fun _ _ hch => (nomatch hch)
          begun := fun _ _ he => (nomatch he)
          policy := fun _ _ hch => (nomatch hch) }
      broken := fun _ _ he => absurd he List.not_mem_nil
      spared := fun _ _ _ heq => absurd heq (by simp [fresh]) }

theorem Spent.run {config : Config} {encoder : Encoder} (h : start config encoder = .ok c)
    {ks : List Call} (hs : (c.run ks).Spent id) (ls : List Call) :
    (c.run (ks ++ ls)).Spent id ∧
      (c.run (ks ++ ls)).journal.payloads id = (c.run ks).journal.payloads id := by
  induction ls using List.reverseRecOn with
  | nil =>
    rw [List.append_nil]
    exact ⟨hs, rfl⟩
  | append_singleton ls l ih =>
    obtain ⟨hspent, heq⟩ := ih
    rw [← List.append_assoc, run_concat]
    obtain ⟨hspent', heq'⟩ := hspent.encoderPath (encoderPath_after h (ks ++ ls) l)
    exact ⟨hspent', heq'.trans heq⟩

theorem Spent.accepted (h : c.Spent id) (hr : c.Regular) (k : Call) : c.accepted id k = [] := by
  rcases c.accepted_cases k with hnone | ⟨j, ch, payload, hw⟩
  · exact hnone id
  · exact (hw.accepted hr).2 id (h.ne hw.channel hw.opened (.inl hw.sending)).symm

theorem Spent.parked (h : c.Spent id) (hr : c.Regular) (hch : c.channels.get? id = some ch) :
    ch.parked.writes = [] := by
  have hparking := hr.balanced.parking id ch hch
  rcases h.2 ch hch with hclosed | ⟨-, hp⟩
  · exact hparking.decided (hparking.closed hclosed)
  · exact hparking.decided hp

/-- The report that a write has failed makes its channel spent, and sends nothing. -/
theorem spent_writeCompleted (h : c.Sending) {write : WriteId} {w : Inflight}
    (hw : c.inflight.get? write = some w) (f : WriteFault) :
    (c.after (.writeCompleted write (some f))).Spent w.channel ∧
      (c.after (.writeCompleted write (some f))).journal.payloads w.channel =
        c.journal.payloads w.channel := by
  change (c.writeCompleted write (some f)).Spent w.channel ∧
    (c.writeCompleted write (some f)).journal.payloads w.channel = _
  rw [writeCompleted_of_some hw]
  have hsettled := aloof_settleWrite (k := ⟨c, .runTasks⟩) c write w (some f)
  obtain ⟨hlt, hbegun⟩ := h.begun write w hw
  refine ⟨spent_writeFailed (Nat.lt_of_lt_of_le hlt hsettled.nextChannel) fun ch' hch' ho => ?_, ?_⟩
  · obtain ⟨ch, hch, hconst⟩ := hsettled.channels.back hch'
    rw [hconst.handshake]
    exact hbegun ch hch (hconst.closed.symm.trans ho)
  · exact payloads_continued (hsettled.bare.trans (extends_writeFailed _ _)) fun _ he => he _

theorem length_accepted_le (c : Connection) (id : ChannelId) (k : Call) :
    (c.accepted id k).length ≤ 1 := by
  unfold Connection.accepted
  split
  · split <;> simp
  · exact Nat.zero_le _

/-- If two payloads are sent for a channel in one call, its handshake was pending before: one of
them was accepted earlier and had been parked. -/
theorem pending_of_two_payloads {config : Config} {encoder : Encoder}
    (h : start config encoder = .ok c) (ks : List Call) (k : Call)
    (hlen : ((c.run ks).journal.payloads id).length + 2 ≤
      (((c.run ks).after k).journal.payloads id).length) :
    ∃ ch, (c.run ks).channels.get? id = some ch ∧ ch.closed = false ∧
      ch.handshake.isPending = true := by
  have hqueued := queued_run h ks
  have hafter := ((queued_run h (ks ++ [k])).bounded id).length_le
  rw [acceptances_concat, List.length_append, run_concat] at hafter
  have hone := (c.run ks).length_accepted_le id k
  have hmore : ((c.run ks).journal.payloads id).length < (acceptances id c ks).length := by
    have hafter : (((c.run ks).after k).journal.payloads id).length ≤ _ := hafter
    omega
  have hid : id < (c.run ks).nextChannel := by
    refine Nat.lt_of_not_le fun hle => ?_
    have hnil : acceptances id c ks = [] := hqueued.unmade id hle
    rw [hnil] at hmore
    exact absurd hmore (Nat.not_lt_zero _)
  have hunspent : ¬ (c.run ks).Spent id := by
    intro hspent
    have hsame := (hspent.encoderPath (encoderPath_after h ks k)).2
    rw [hsame] at hlen
    omega
  by_contra hnone
  refine hunspent ⟨hid, fun ch hch => ?_⟩
  cases ho : ch.closed with
  | true => exact .inl rfl
  | false =>
    have hp : ch.handshake.isPending = false :=
      Bool.eq_false_iff.mpr fun hp => hnone ⟨ch, hch, ho, hp⟩
    -- all that was accepted has been sent
    have hflow : acceptances id c ks = _ := hqueued.flows id ch hch ho
    have hparked := ((Regular.of_start h).run ks).balanced.parking id ch hch |>.decided hp
    rw [hparked, List.map_nil, List.append_nil, List.filterMap_nil, List.append_nil] at hflow
    rw [hflow] at hmore
    exact absurd hmore (Nat.lt_irrefl _)

theorem length_payloads_of_two {j j' : Journal} {xs ys zs : List Entry} {e d : Entry}
    (heq : j'.entries = j.entries ++ (xs ++ e :: ys ++ d :: zs))
    (he : (e.payloadOf? id).isSome = true) (hd : (d.payloadOf? id).isSome = true) :
    (j.payloads id).length + 2 ≤ (j'.payloads id).length := by
  obtain ⟨p, hp⟩ := Option.isSome_iff_exists.mp he
  obtain ⟨q, hq⟩ := Option.isSome_iff_exists.mp hd
  rw [Journal.payloads, Journal.payloads, heq]
  simp only [List.filterMap_append, List.filterMap_cons_some hp, List.filterMap_cons_some hq,
    List.length_append, List.length_cons]
  omega

/-- A payload follows a refused one only where a failed write does not close its channel. -/
theorem spares_of_hole {config : Config} {encoder : Encoder} (h : start config encoder = .ok c)
    {ks : List Call} {xs ys zs : List Entry} {e d : Entry}
    (heq : (c.run ks).journal.entries = xs ++ e :: ys ++ d :: zs) (he : e.isRefused id = true)
    (hd : (d.payloadOf? id).isSome = true) : config.closeOnWriteFailure = false := by
  rw [← config_run h ks]
  refine (halting_run h ks).spared (xs ++ e :: ys) d zs heq id hd ?_
  exact List.any_eq_true.mpr ⟨e, List.mem_append_right xs List.mem_cons_self, he⟩

/-- Once a payload of a channel was refused, or its failure reported, nothing is sent for the
channel in any later call, nothing is parked, and every later write to it is refused.  Nothing
follows it in the same call either where a failed write closes the channel; elsewhere something does
only if the handshake of the channel was pending before the call, which has completed it and sent
what was parked. -/
theorem data_follows_hole_only_in_replay {config : Config} {encoder : Encoder} {c : Connection}
    (h : start config encoder = .ok c) (ks : List Call) :
    (∀ id, ∀ e ∈ (c.run ks).journal.entries, e.isRefused id = true → (c.run ks).Spent id) ∧
    (∀ write w f, (c.run ks).inflight.get? write = some w →
      ((c.run ks).after (.writeCompleted write (some f))).Spent w.channel ∧
        ((c.run ks).after (.writeCompleted write (some f))).journal.payloads w.channel =
          (c.run ks).journal.payloads w.channel) ∧
    (∀ id, (c.run ks).Spent id → ∀ ls,
      (c.run (ks ++ ls)).journal.payloads id = (c.run ks).journal.payloads id ∧
      (∀ k, (c.run (ks ++ ls)).accepted id k = []) ∧
      ∀ ch, (c.run (ks ++ ls)).channels.get? id = some ch → ch.parked.writes = []) ∧
    (∀ id xs e ys, (c.run ks).journal.entries = xs ++ e :: ys → e.isRefused id = true →
      config.closeOnWriteFailure = true → ∀ d ∈ ys, d.payloadOf? id = none) ∧
    (∀ k id xs e ys d zs, ((c.run ks).after k).journal.entries =
        (c.run ks).journal.entries ++ (xs ++ e :: ys ++ d :: zs) → e.isRefused id = true →
      (d.payloadOf? id).isSome = true → config.closeOnWriteFailure = false ∧
        ∃ ch, (c.run ks).channels.get? id = some ch ∧ ch.closed = false ∧
          ch.handshake.isPending = true) := by
  have hhalting := halting_run h ks
  refine ⟨hhalting.broken, fun write w f hw => spent_writeCompleted hhalting.sending hw f,
    fun id hs ls => ?_, ?_, ?_⟩
  · obtain ⟨hspent, hsame⟩ := hs.run h ls
    have hregular := (Regular.of_start h).run (ks ++ ls)
    exact ⟨hsame, hspent.accepted hregular, fun _ => hspent.parked hregular⟩
  · intro id xs e ys heq he hcloses d hd
    obtain ⟨ys, zs, rfl⟩ := List.append_of_mem hd
    rw [← Option.not_isSome_iff_eq_none]
    intro hsome
    have hholed : (c.run ks).journal.entries = xs ++ e :: ys ++ d :: zs := by rw [heq]; simp
    exact absurd (hcloses.symm.trans (spares_of_hole h hholed he hsome)) (by decide)
  · intro k id xs e ys d zs heq he hd
    have hholed : (c.run (ks ++ [k])).journal.entries =
        (c.run ks).journal.entries ++ xs ++ e :: ys ++ d :: zs := by
      rw [run_concat, heq]
      simp
    exact ⟨spares_of_hole h hholed he hd, pending_of_two_payloads h ks k
      (length_payloads_of_two heq (Entry.isSome_of_isRefused he) hd)⟩

/-- A refused write is the last that was sent, though the channel stays open. -/
theorem refused_write_is_last :
    ((fresh { closeOnWriteFailure := false } .full).run (Call.opening ++ [.write 1 [1]] ++
      [.write 1 [2]])).journal.payloads 1 =
        ((fresh { closeOnWriteFailure := false } .full).run
          (Call.opening ++ [.write 1 [1]])).journal.payloads 1 ∧
    ((fresh { closeOnWriteFailure := false } .full).run
      (Call.opening ++ [.write 1 [1]])).isOpen 1 = true := by
  have hlaw := data_follows_hole_only_in_replay
    (rfl : start { closeOnWriteFailure := false } .full =
      .ok (fresh { closeOnWriteFailure := false } .full)) (Call.opening ++ [.write 1 [1]])
  have hspent := hlaw.1 1 (.wire (some 1) ⟨.data 1 3 [1] false, some (.stated "full")⟩)
    (by decide) (by decide)
  exact ⟨(hlaw.2.2.1 1 hspent [.write 1 [2]]).1, by decide⟩

/-- An encoder that refuses the first write and nothing else. -/
def stumbling : Encoder :=
  { Encoder.willing with
    fault := fun _ call =>
      match call with
      | .data 1 .. => some (.stated "full")
      | _ => none }

/-- Two writes are parked.  When the handshake completes the first is refused, and the second is
sent all the same. -/
theorem parked_write_follows_refused :
    start { closeOnWriteFailure := false } stumbling =
      .ok (fresh { closeOnWriteFailure := false } stumbling) ∧
    ∃ xs ys, ((fresh { closeOnWriteFailure := false } stumbling).run hasty).journal.entries =
      xs ++ .wire (some 1) ⟨.data 1 3 [1] false, some (.stated "full")⟩ ::
        .wire (some 1) ⟨.data 2 3 [2] false, none⟩ :: ys :=
  ⟨rfl, ((fresh { closeOnWriteFailure := false } stumbling).run hasty).journal.entries.take 4,
    ((fresh { closeOnWriteFailure := false } stumbling).run hasty).journal.entries.drop 6,
    by decide⟩

end Connection

end ChannelMux
