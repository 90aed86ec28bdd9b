import ChannelMux.Proofs.Dispatch

/-!
# Endings: the last frame of a stream

A stream is ended by an empty DATA frame that carries END_STREAM or by a reset, and both are sent
only where a channel is closed.  So the course of a call is cut at the channels that it closes:
between two of them nothing is sent that ends a stream, and frames are sent only for channels that
are open.  What a channel has noticed of its peer stays noticed along the way, and a closed channel
stays closed; hence a channel is closed once, its stream is ended at most once, and after that
nothing is sent for it.
-/

namespace ChannelMux

namespace Entry

/-- A frame that ends the stream of the channel. -/
def isTerminal (id : ChannelId) : Entry → Bool
  | wire owner e =>
    match e.call with
    | .data _ _ _ endStream => endStream && owner = some id
    | .reset .. => owner = some id
    | _ => false
  | event _ | delivered .. | closed _ => false

theorem isTerminal_of_idle {e : Entry} (h : e.isIdle = true) (id : ChannelId) :
    e.isTerminal id = false := by
  cases e with
  | wire owner entry =>
    obtain ⟨call, fault⟩ := entry
    cases call with
    | data | reset => cases h
    | _ => rfl
  | event | delivered | closed => rfl

theorem eq_of_isFrameOf {id j : ChannelId} {e : WireEntry}
    (h : (wire (some id) e).isFrameOf j = true) : id = j := by
  simpa using (Bool.and_eq_true_iff.mp h).2

theorem isFrameOf_of_isTerminal {id : ChannelId} {e : Entry} (h : e.isTerminal id = true) :
    e.isFrameOf id = true := by
  cases e with
  | wire owner entry =>
    obtain ⟨call, fault⟩ := entry
    cases call with
    | data => exact (Bool.and_eq_true_iff.mp h).2
    | reset => exact h
    | _ => cases h
  | event | delivered | closed => cases h

end Entry

/-- What the channel has noticed stays noticed. -/
structure Channel.Lasting (ch ch' : Channel) : Prop where
  closed : ch.closed = true → ch'.closed = true
  inboundClosed : ch.inboundClosed = true → ch'.inboundClosed = true
  outboundClosed : ch.outboundClosed = true → ch'.outboundClosed = true
  remoteReset : ch.remoteReset = true → ch'.remoteReset = true

namespace Channel

variable {ch ch' ch'' : Channel}

theorem Lasting.refl (ch : Channel) : ch.Lasting ch := ⟨id, id, id, id⟩

theorem Lasting.trans (h : ch.Lasting ch') (h' : ch'.Lasting ch'') : ch.Lasting ch'' where
  closed := h'.closed ∘ h.closed
  inboundClosed := h'.inboundClosed ∘ h.inboundClosed
  outboundClosed := h'.outboundClosed ∘ h.outboundClosed
  remoteReset := h'.remoteReset ∘ h.remoteReset

theorem Constant.lasting (h : ch.Constant ch') : ch.Lasting ch' where
  closed := h.closed.trans
  inboundClosed := h.inboundClosed
  outboundClosed := h.outboundClosed.trans
  remoteReset := h.remoteReset

theorem Leaving.lasting (h : ch.Leaving ch') (ho : ch.closed = false) : ch.Lasting ch' where
  closed hclosed := absurd (ho.symm.trans hclosed) (by decide)
  inboundClosed := h.inboundClosed
  outboundClosed := h.outboundClosed.trans
  remoteReset := h.remoteReset

theorem lasting_shut (ch : Channel) (kind : CloseKind) : ch.Lasting (ch.shut kind) :=
  ⟨fun _ => rfl, id, fun _ => rfl, id⟩

end Channel

namespace Connection

variable {k : Cause} {c c' d : Connection} {id j : ChannelId} {ch ch' : Channel} {kind : CloseKind}
  {s t : Stage} {e : Entry}

/-! ## Closing in the course of a call -/

/-- An entry that ends no stream and closes no channel, and a frame only for a channel that is open
or still to come. -/
structure Ongoing (c : Connection) (e : Entry) : Prop where
  unending : ∀ id, e.isTerminal id = false
  unclosed : ∀ id, e ≠ .closed id
  frame : ∀ id, e.isFrameOf id = true → c.isOpen id = true ∨ c.nextChannel ≤ id

/-- Anything but the closing of a channel. -/
structure Goes (k : Cause) (c d : Connection) : Prop where
  encoder : d.encoder = c.encoder ∨ k.call = .setEncoder d.encoder
  nextChannel : c.nextChannel ≤ d.nextChannel
  channels : ∀ id ch', d.channels.get? id = some ch' →
    (∃ ch, c.channels.get? id = some ch ∧ ch.Lasting ch' ∧ ch'.closed = ch.closed) ∨
      c.nextChannel ≤ id ∧ id < d.nextChannel ∧ ch'.closed = false
  journal : c.journal.Extends c.Ongoing d.journal

/-- A part of a call: a channel is closed, or none is. -/
inductive EndingStep (k : Cause) : Connection → Connection → Prop
  | goes {c d : Connection} : Goes k c d → EndingStep k c d
  | closes (c : Connection) (id : ChannelId) (kind : CloseKind) : EndingStep k c (c.close id kind)

/-- Such parts one after another. -/
def EndingPath (k : Cause) : Connection → Connection → Prop := Relation.ReflTransGen (EndingStep k)

theorem Minor.ongoing (h : c.Minor e) : c.Ongoing e where
  unending := Entry.isTerminal_of_idle h.idle
  unclosed id heq := by
    have hidle := h.idle
    rw [heq] at hidle
    cases hidle
  frame := h.frame

theorem ongoing_wire {entry : WireEntry} (hid : c.isOpen id = true ∨ c.nextChannel ≤ id)
    (h : ∀ j, (Entry.wire (some id) entry).isTerminal j = false) :
    c.Ongoing (.wire (some id) entry) where
  unending := h
  unclosed _ := nofun
  frame _ hj := Entry.eq_of_isFrameOf hj ▸ hid

namespace Goes

theorem of_aloof (h : Aloof k c d) : Goes k c d where
  encoder := h.encoder
  nextChannel := h.nextChannel
  channels id ch' hch' := by
    obtain ⟨ch, hch, hconst⟩ := h.channels.back hch'
    exact .inl ⟨ch, hch, hconst.lasting, hconst.closed⟩
  journal := h.journal.mono fun _ => Minor.ongoing

theorem of_leaves (hch : c.channels.get? id = some ch) (ho : ch.closed = false)
    (h : Leaves k c id ch d) : Goes k c d where
  encoder := h.encoder
  nextChannel := h.nextChannel
  channels j ch' hch' := by
    by_cases hj : j = id
    · subst hj
      obtain ⟨e', he', hleaving⟩ := h.channel
      obtain rfl := Option.some.inj (hch'.symm.trans he')
      exact .inl ⟨ch, hch, hleaving.lasting ho, hleaving.closed.trans ho.symm⟩
    · obtain ⟨e, he, hconst⟩ := h.others j hj ch' hch'
      exact .inl ⟨e, he, hconst.lasting, hconst.closed⟩
  journal := h.journal.mono fun _ => Minor.ongoing

/-- One channel has changed. -/
theorem insert (hencoder : d.encoder = c.encoder) (hnext : d.nextChannel = c.nextChannel)
    (hchannels : d.channels = c.channels.insert id ch') (hch : c.channels.get? id = some ch)
    (hl : ch.Lasting ch') (hclosed : ch'.closed = ch.closed)
    (hj : c.journal.Extends c.Ongoing d.journal) : Goes k c d where
  encoder := .inl hencoder
  nextChannel := Nat.le_of_eq hnext.symm
  channels j e he := by
    rw [hchannels] at he
    rcases Table.get?_insert_cases he with ⟨rfl, rfl⟩ | he
    · exact .inl ⟨ch, hch, hl, hclosed⟩
    · exact .inl ⟨e, he, .refl e, rfl⟩
  journal := hj

/-- A channel has come. -/
theorem enter (hencoder : d.encoder = c.encoder) (hnext : d.nextChannel = c.nextChannel + 1)
    (hchannels : d.channels = c.channels.insert c.nextChannel ch') (ho : ch'.closed = false)
    (hj : c.journal.Extends c.Ongoing d.journal) : Goes k c d where
  encoder := .inl hencoder
  nextChannel := hnext ▸ Nat.le_succ _
  channels j e he := by
    rw [hchannels] at he
    rcases Table.get?_insert_cases he with ⟨rfl, rfl⟩ | he
    · exact .inr ⟨Nat.le_refl _, hnext ▸ Nat.lt_succ_self _, ho⟩
    · exact .inl ⟨e, he, .refl e, rfl⟩
  journal := hj

/-- Nothing has changed about the channels. -/
theorem of_channels (hencoder : d.encoder = c.encoder) (hnext : d.nextChannel = c.nextChannel)
    (hchannels : ∀ id ch, d.channels.get? id = some ch → c.channels.get? id = some ch)
    (hj : c.journal.Extends c.Ongoing d.journal) : Goes k c d where
  encoder := .inl hencoder
  nextChannel := Nat.le_of_eq hnext.symm
  channels id ch hch := .inl ⟨ch, hchannels id ch hch, .refl ch, rfl⟩
  journal := hj

end Goes

namespace EndingPath

theorem refl (c : Connection) : EndingPath k c c := Relation.ReflTransGen.refl

theorem goes (h : EndingPath k c c') (h' : Goes k c' d) : EndingPath k c d := h.tail (.goes h')

theorem closes (h : EndingPath k c c') (id : ChannelId) (kind : CloseKind) :
    EndingPath k c (c'.close id kind) := h.tail (.closes c' id kind)

theorem trans (h : EndingPath k c c') (h' : EndingPath k c' d) : EndingPath k c d :=
  Relation.ReflTransGen.trans h h'

theorem writeFailed (c : Connection) (id : ChannelId) : EndingPath k c (c.writeFailed id) := by
  rcases writeFailed_cases c id with ⟨-, heq⟩ | ⟨ch, hch, -, ⟨kind, heq⟩ | ⟨-, heq⟩⟩
  · rw [heq]
    exact refl c
  · rw [heq]
    exact (refl c).closes id kind
  · rw [heq]
    have hlasting : ch.Lasting { ch with outboundClosed := true } :=
      ⟨fun h => h, fun h => h, fun _ => rfl, fun h => h⟩
    exact (refl c).goes (.insert rfl rfl rfl hch hlasting rfl (.refl _))

/-- Every encoder step closes one channel at most. -/
theorem of_encoderStep (h : EncoderStep k s t) : EndingPath k s.conn t.conn := by
  cases h with
  | aloof ws ha | takenUp _ _ _ _ _ _ ha | dropped _ ha =>
    exact (refl _).goes (.of_aloof ha)
  | asked path subprotocol ws _ =>
    rw [addAsking_eq]
    exact (refl _).goes (.enter rfl rfl rfl rfl (.refl _))
  | requested block ws hch ho _ =>
    have hopen := isOpen_iff.mpr ⟨_, hch, ho⟩
    exact (refl _).goes (.insert rfl rfl rfl hch ⟨id, id, id, id⟩ rfl
      (((Journal.Extends.refl _).push (ongoing_wire (.inl hopen) fun _ => rfl)).push
        (ongoing_wire (.inl hopen) fun _ => rfl)))
  | enrolled path subprotocol compression block ws _ =>
    exact (refl _).goes (.enter rfl rfl rfl rfl
      (Journal.extends_push _ (ongoing_wire (.inr (Nat.le_refl _)) fun _ => rfl)))
  | parked hch _ _ _ | unparked _ _ hch _ _ =>
    exact (refl _).goes (.insert rfl rfl rfl hch ⟨id, id, id, id⟩ rfl (.refl _))
  | @sent c w ws ch hch ho _ =>
    have hopen := isOpen_iff.mpr ⟨_, hch, ho⟩
    exact (refl c).goes (.of_channels rfl rfl (fun _ _ he => he)
      (Journal.extends_push c.journal (ongoing_wire (.inl hopen) fun _ => rfl)))
  | @bounced c d w ws ch f hch ho _ ha =>
    have hopen := isOpen_iff.mpr ⟨_, hch, ho⟩
    have hnoted : Goes k c (c.note (.wire (some w.channel)
        ⟨.data c.nextWrite ch.stream w.payload false, some f⟩)) :=
      .of_channels rfl rfl (fun _ _ he => he)
        (Journal.extends_push c.journal (ongoing_wire (.inl hopen) fun _ => rfl))
    exact (((refl c).goes hnoted).goes (.of_aloof ha)).trans (writeFailed d w.channel)
  | failed c id ws => exact writeFailed c id
  | ended kind ws hch ho hl _ => exact ((refl _).goes (.of_leaves hch ho hl)).closes _ kind
  | requestRefused _ _ ws hch ho _ hl _ _ =>
    exact ((refl _).goes (.of_leaves hch ho hl)).closes _ .reset
  | tornDown tasks ws _ =>
    exact (refl _).goes (.of_channels rfl rfl (fun _ _ he => Table.get?_of_erase he) (.refl _))

end EndingPath

/-! ## What the closing of a channel sends -/

/-- The entry is the frame with which the closing of the channel ends its stream. -/
structure LastFrame (d : Connection) (id : ChannelId) (ch : Channel) (kind : CloseKind)
    (e : Entry) : Prop where
  channel : d.channels.get? id = some ch
  opened : ch.closed = false
  frame : ∃ fault, e = .wire (some id) ⟨.data d.nextWrite ch.stream [] true, fault⟩ ∨
    ch.inboundClosed = false ∧ e = .wire (some id) ⟨.reset ch.stream .cancel, fault⟩
  stream : ch.stream ≠ 0
  active : d.isActive = true
  remoteReset : ch.remoteReset = false
  kind : kind ≠ .remote
  half : (ch.inboundClosed && ch.outboundClosed) = false

namespace Closing

variable {es : List Entry}

theorem isTerminal_call (f : ClosingFrame) (write : WriteId) (stream : StreamId)
    (fault : Option WriteFault) :
    (Entry.wire (some id) ⟨f.call write stream, fault⟩).isTerminal j = decide (id = j) := by
  cases f <;> simp [ClosingFrame.call, Entry.isTerminal]

theorem countP_isTerminal (h : Closing c id ch kind es) (j : ChannelId) :
    es.countP (Entry.isTerminal j) ≤ 1 ∧ (j ≠ id → es.countP (Entry.isTerminal j) = 0) := by
  cases h with
  | silent => exact ⟨Nat.zero_le _, fun _ => rfl⟩
  | framed fault hf =>
    rw [List.countP_cons, isTerminal_call]
    have hflush : [Entry.wire none ⟨.flush, none⟩].countP (Entry.isTerminal j) = 0 := rfl
    rw [hflush, Nat.zero_add]
    refine ⟨by split <;> decide, fun hj => if_neg ?_⟩
    simpa using hj.symm

/-- The frame comes first, and it is the only one. -/
theorem lastFrame (h : Closing c id ch kind es) (hch : c.channels.get? id = some ch)
    (ho : ch.closed = false) {xs ys : List Entry} (heq : es ++ [.closed id] = xs ++ e :: ys)
    (hframe : e.isFrameOf j = true) : j = id ∧ xs = [] ∧ c.LastFrame id ch kind e := by
  have hrest {es : List Entry} {zs : List Entry} (heq : es = zs ++ e :: ys)
      (hes : ∀ x ∈ es, x.isFrameOf j = false) : False := by
    have he : e ∈ es := heq ▸ List.mem_append_right zs List.mem_cons_self
    exact absurd ((hes e he).symm.trans hframe) (by decide)
  cases h with
  | silent =>
    exact (hrest heq (by simp [Entry.isFrameOf])).elim
  | @framed f fault hf =>
    cases xs with
    | nil =>
      obtain ⟨rfl, -⟩ := List.cons.inj heq
      obtain ⟨hstream, hactive, hreset, hkind, hhalf, hcancel⟩ := Channel.closingFrame_eq_some hf
      refine ⟨(Entry.eq_of_isFrameOf hframe).symm, rfl,
        hch, ho, ⟨fault, ?_⟩, hstream, hactive, hreset, hkind, hhalf⟩
      cases f with
      | endStream => exact .inl rfl
      | cancel => exact .inr ⟨hcancel rfl, rfl⟩
    | cons x xs =>
      obtain ⟨-, heq⟩ := List.cons.inj heq
      exact (hrest heq (by simp [Entry.isFrameOf])).elim

theorem unclosed (h : Closing c id ch kind es) (j : ChannelId) : .closed j ∉ es := by
  cases h <;> simp

end Closing

theorem encoder_close (c : Connection) (id : ChannelId) (kind : CloseKind) :
    (c.close id kind).encoder = c.encoder := by
  rcases close_cases c id kind with ⟨-, heq⟩ | ⟨ch, hch, ho⟩
  · rw [heq]
  · obtain ⟨_, _, _, _, heq, -⟩ := close_eq hch ho kind
    rw [heq]

theorem lasting_close (h : (c.close j kind).channels.get? id = some ch') :
    ∃ ch, c.channels.get? id = some ch ∧ ch.Lasting ch' := by
  rcases close_cases c j kind with ⟨-, heq⟩ | ⟨e, he, ho⟩
  · exact ⟨ch', heq ▸ h, .refl ch'⟩
  · by_cases hj : id = j
    · subst hj
      rw [get?_close_self he ho] at h
      exact ⟨e, he, Option.some.inj h ▸ e.lasting_shut kind⟩
    · exact ⟨ch', get?_close_of_ne hj kind ▸ h, .refl ch'⟩

/-! ## At most one ending -/

/-- What has been sent for the channels agrees with which of them are closed. -/
structure Sealed (c : Connection) : Prop where
  numbered : ∀ id ch, c.channels.get? id = some ch → id < c.nextChannel
  marked : ∀ id, .closed id ∈ c.journal.entries →
    id < c.nextChannel ∧ ∀ ch, c.channels.get? id = some ch → ch.closed = true
  shut : ∀ id ch, c.channels.get? id = some ch → ch.closed = true →
    .closed id ∈ c.journal.entries
  once : ∀ id, c.journal.entries.countP (Entry.isTerminal id) ≤ 1
  ended : ∀ id, ∀ e ∈ c.journal.entries, e.isTerminal id = true →
    .closed id ∈ c.journal.entries
  silent : c.journal.Obeys fun xs e => ∀ id, e.isFrameOf id = true → .closed id ∉ xs

namespace Sealed

/-- No frame was sent for a channel that is open, or still to come, and has ended. -/
theorem unmarked (hc : c.Sealed) (h : c.isOpen id = true ∨ c.nextChannel ≤ id) :
    .closed id ∉ c.journal.entries := by
  intro hmem
  obtain ⟨hlt, hclosed⟩ := hc.marked id hmem
  rcases h with hopen | hle
  · obtain ⟨ch, hch, ho⟩ := isOpen_iff.mp hopen
    exact absurd (ho.symm.trans (hclosed ch hch)) (by decide)
  · exact Nat.not_lt.mpr hle hlt

theorem goes (hc : c.Sealed) (h : Goes k c d) : d.Sealed := by
  obtain ⟨es, hes, hall⟩ := h.journal
  have hmark : ∀ id, .closed id ∈ d.journal.entries ↔ .closed id ∈ c.journal.entries := by
    intro id
    rw [hes, List.mem_append]
    exact or_iff_left fun hnew => (hall _ hnew).unclosed id rfl
  have hcount : ∀ id, es.countP (Entry.isTerminal id) = 0 := fun id =>
    List.countP_eq_zero.mpr fun e he => by rw [(hall e he).unending id]; decide
  constructor
  case numbered =>
    intro id ch' hch'
    rcases h.channels id ch' hch' with ⟨ch, hch, -⟩ | ⟨-, hlt, -⟩
    · exact Nat.lt_of_lt_of_le (hc.numbered id ch hch) h.nextChannel
    · exact hlt
  case marked =>
    intro id hmem
    obtain ⟨hlt, hclosed⟩ := hc.marked id ((hmark id).mp hmem)
    refine ⟨Nat.lt_of_lt_of_le hlt h.nextChannel, fun ch' hch' => ?_⟩
    rcases h.channels id ch' hch' with ⟨ch, hch, -, heq⟩ | ⟨hle, -⟩
    · rw [heq, hclosed ch hch]
    · exact absurd hlt (Nat.not_lt.mpr hle)
  case shut =>
    intro id ch' hch' hclosed
    rcases h.channels id ch' hch' with ⟨ch, hch, -, heq⟩ | ⟨-, -, ho⟩
    · exact (hmark id).mpr (hc.shut id ch hch (heq.symm.trans hclosed))
    · exact absurd (ho.symm.trans hclosed) (by decide)
  case once =>
    intro id
    rw [hes, List.countP_append, hcount]
    exact hc.once id
  case ended =>
    intro id e he hterm
    rw [hmark]
    rw [hes, List.mem_append] at he
    rcases he with he | he
    · exact hc.ended id e he hterm
    · exact absurd ((hall e he).unending id) (by rw [hterm]; decide)
  case silent =>
    refine hc.silent.append hes fun xs e ys heq id hframe hmem => ?_
    have he := hall e (heq ▸ List.mem_append_right xs List.mem_cons_self)
    rcases List.mem_append.mp hmem with hmem | hmem
    · exact hc.unmarked (he.frame id hframe) hmem
    · exact (hall _ (heq ▸ List.mem_append_left _ hmem)).unclosed id rfl

theorem closes (hc : c.Sealed) (id : ChannelId) (kind : CloseKind) : (c.close id kind).Sealed := by
  rcases close_cases c id kind with ⟨-, heq⟩ | ⟨ch, hch, ho⟩
  · rw [heq]
    exact hc
  obtain ⟨es, hes, hclosing⟩ := closing_close hch ho kind
  have hfresh := hc.unmarked (.inl (isOpen_iff.mpr ⟨ch, hch, ho⟩))
  have hself := get?_close_self hch ho kind
  have hmark : ∀ j, .closed j ∈ (c.close id kind).journal.entries ↔
      j = id ∨ .closed j ∈ c.journal.entries := by
    intro j
    rw [hes, List.mem_append, List.mem_append, List.mem_singleton]
    have hnot := hclosing.unclosed j
    grind
  constructor
  case numbered =>
    intro j e he
    rw [nextChannel_close]
    by_cases hj : j = id
    · exact hj ▸ hc.numbered id ch hch
    · exact hc.numbered j e (get?_close_of_ne hj kind ▸ he)
  case marked =>
    intro j hmem
    rw [nextChannel_close]
    by_cases hj : j = id
    · subst hj
      refine ⟨hc.numbered j ch hch, fun e he => ?_⟩
      rw [← Option.some.inj (hself.symm.trans he)]
      rfl
    · obtain ⟨hlt, hclosed⟩ := hc.marked j (((hmark j).mp hmem).resolve_left hj)
      exact ⟨hlt, fun e he => hclosed e (get?_close_of_ne hj kind ▸ he)⟩
  case shut =>
    intro j e he hclosed
    rw [hmark]
    by_cases hj : j = id
    · exact .inl hj
    · exact .inr (hc.shut j e (get?_close_of_ne hj kind ▸ he) hclosed)
  case once =>
    intro j
    obtain ⟨hle, hnone⟩ := hclosing.countP_isTerminal j
    have hlast : [Entry.closed id].countP (Entry.isTerminal j) = 0 := rfl
    rw [hes, List.countP_append, List.countP_append, hlast, Nat.add_zero]
    by_cases hj : j = id
    · subst hj
      have hzero : c.journal.entries.countP (Entry.isTerminal j) = 0 :=
        List.countP_eq_zero.mpr fun e he hterm => hfresh (hc.ended j e he hterm)
      rw [hzero, Nat.zero_add]
      exact hle
    · rw [hnone hj]
      exact hc.once j
  case ended =>
    intro j e he hterm
    rw [hmark]
    rw [hes, List.mem_append] at he
    rcases he with he | he
    · exact .inr (hc.ended j e he hterm)
    · obtain ⟨xs, ys, heq⟩ := List.append_of_mem he
      exact .inl (hclosing.lastFrame hch ho heq (Entry.isFrameOf_of_isTerminal hterm)).1
  case silent =>
    refine hc.silent.append hes fun xs e ys heq j hframe hmem => ?_
    obtain ⟨rfl, rfl, -⟩ := hclosing.lastFrame hch ho heq hframe
    rw [List.append_nil] at hmem
    exact hfresh hmem

theorem endingPath (hc : c.Sealed) (h : EndingPath k c d) : d.Sealed := by
  induction h with
  | refl => exact hc
  | tail _ hstep ih =>
    cases hstep with
    | goes hg => exact ih.goes hg
    | closes id kind => exact ih.closes id kind

end Sealed

namespace EndingPath

variable {a b : Connection}

theorem encoder (h : EndingPath k a b) :
    b.encoder = a.encoder ∨ k.call = .setEncoder b.encoder := by
  induction h with
  | refl => exact .inl rfl
  | @tail c d _ hstep ih =>
    cases hstep with
    | goes hg =>
      rcases hg.encoder with heq | hset
      · rw [heq]
        exact ih
      · exact .inr hset
    | closes id kind =>
      rw [encoder_close]
      exact ih

/-- Channels come and entries are made. -/
theorem grows (h : EndingPath k a b) :
    a.nextChannel ≤ b.nextChannel ∧ a.journal.entries <+: b.journal.entries := by
  induction h with
  | refl => exact ⟨Nat.le_refl _, List.prefix_refl _⟩
  | @tail c d _ hstep ih =>
    cases hstep with
    | goes hg =>
      obtain ⟨es, hes, -⟩ := hg.journal
      exact ⟨Nat.le_trans ih.1 hg.nextChannel, ih.2.trans ⟨es, hes.symm⟩⟩
    | closes id kind =>
      rw [nextChannel_close]
      exact ⟨ih.1, ih.2.trans (prefix_close c id kind)⟩

/-- What a channel has noticed at the start stays noticed. -/
theorem lasting (h : EndingPath k a b) (hid : id < a.nextChannel)
    (hch' : b.channels.get? id = some ch') :
    ∃ ch, a.channels.get? id = some ch ∧ ch.Lasting ch' := by
  induction h generalizing ch' with
  | refl => exact ⟨ch', hch', .refl ch'⟩
  | @tail c d hac hstep ih =>
    cases hstep with
    | goes hg =>
      rcases hg.channels id ch' hch' with ⟨e, he, hlasting, -⟩ | ⟨hle, -⟩
      · obtain ⟨ch, hch, hl⟩ := ih he
        exact ⟨ch, hch, hl.trans hlasting⟩
      · exact absurd (Nat.lt_of_lt_of_le hid (grows hac).1) (Nat.not_lt.mpr hle)
    | closes j kind =>
      obtain ⟨e, he, hlasting⟩ := lasting_close hch'
      obtain ⟨ch, hch, hl⟩ := ih he
      exact ⟨ch, hch, hl.trans hlasting⟩

/-- A stream is ended where its channel is closed. -/
def EndsAtClose (k : Cause) (a b : Connection) (xs : List Entry) (e : Entry) : Prop :=
  ∀ id, e.isTerminal id = true → a.journal.entries <+: xs →
    ∃ d kind ch, EndingPath k a d ∧ EndingPath k (d.close id kind) b ∧ d.journal.entries = xs ∧
      d.LastFrame id ch kind e

theorem endsAtClose (h : EndingPath k a b) : b.journal.Obeys (EndsAtClose k a b) := by
  induction h with
  | refl =>
    intro xs e ys heq id _ hpre
    have hlen := hpre.length_le
    rw [heq, List.length_append, List.length_cons] at hlen
    omega
  | @tail c d hac hstep ih =>
    have hold : c.journal.Obeys (EndsAtClose k a d) := by
      intro xs e ys heq id hterm hpre
      obtain ⟨d', kind, ch, hd', hrest, hlast⟩ := ih xs e ys heq id hterm hpre
      exact ⟨d', kind, ch, hd', hrest.tail hstep, hlast⟩
    cases hstep with
    | goes hg =>
      refine hold.continued hg.journal fun xs e he id hterm => ?_
      rw [he.unending id] at hterm
      cases hterm
    | closes id kind =>
      rcases close_cases c id kind with ⟨-, heq⟩ | ⟨ch, hch, ho⟩
      · rw [heq] at hold ⊢
        exact hold
      · obtain ⟨es, hes, hclosing⟩ := closing_close hch ho kind
        refine hold.append hes fun xs e ys heq j hterm _ => ?_
        obtain ⟨rfl, rfl, hlast⟩ :=
          hclosing.lastFrame hch ho heq (Entry.isFrameOf_of_isTerminal hterm)
        exact ⟨c, kind, ch, hac, .refl _, (List.append_nil _).symm, hlast⟩

end EndingPath

/-! ## Runs -/

theorem sealed_run {config : Config} {encoder : Encoder} (h : start config encoder = .ok c)
    (ks : List Call) : (c.run ks).Sealed := by
  refine encoderPath_induction h (fun _ _ _ hs hc => hc.endingPath (.of_encoderStep hs)) ?_ ks
  obtain rfl := (start_eq h).1
  exact
    { numbered := fun _ _ hch => (nomatch hch)
      marked := fun _ hmem => absurd hmem (by simp [fresh])
      shut := fun _ _ hch => (nomatch hch)
      once := fun _ => Nat.zero_le _
      ended := fun _ _ hmem => absurd hmem (by simp [fresh])
      silent := fun _ _ _ heq => absurd heq (by simp [fresh]) }

theorem endingPath_after {config : Config} {encoder : Encoder} (h : start config encoder = .ok c)
    (ks : List Call) (k : Call) : EndingPath ⟨c.run ks, k⟩ (c.run ks) ((c.run ks).after k) :=
  (encoderPath_after h ks k).induction (P := fun s => EndingPath ⟨c.run ks, k⟩ (c.run ks) s.conn)
    (fun _ _ hs hc => hc.trans (.of_encoderStep hs)) (.refl _)

/-- What a call sends to end a stream is sent where the channel is closed, which happens in no
earlier call. -/
theorem terminal_in_closing_call {config : Config} {encoder : Encoder}
    (h : start config encoder = .ok c) (ks : List Call) (k : Call) {xs ys : List Entry}
    (heq : ((c.run ks).after k).journal.entries = (c.run ks).journal.entries ++ xs ++ e :: ys)
    (hterm : e.isTerminal id = true) :
    .closed id ∉ (c.run ks).journal.entries ∧ .closed id ∈ ys ∧
    ∃ d kind ch, EndingPath ⟨c.run ks, k⟩ (c.run ks) d ∧
      EndingPath ⟨c.run ks, k⟩ (d.close id kind) ((c.run ks).after k) ∧
      d.journal.entries = (c.run ks).journal.entries ++ xs ∧
      d.encoder = (c.run ks).encoder ∧ d.LastFrame id ch kind e := by
  have hsealed : ((c.run ks).after k).Sealed := by
    rw [← run_concat]
    exact sealed_run h _
  have hfresh := hsealed.silent _ e ys heq id (Entry.isFrameOf_of_isTerminal hterm)
  obtain ⟨d, kind, ch, hd, hrest, hentries, hlast⟩ :=
    (endingPath_after h ks k).endsAtClose _ e ys heq id hterm (List.prefix_append _ _)
  refine ⟨fun hmem => hfresh (List.mem_append_left xs hmem), ?_, d, kind, ch, hd, hrest, hentries,
    hd.encoder.resolve_right fun hset => ?_, hlast⟩
  · have hmem := hsealed.ended id e (heq ▸ List.mem_append_right _ List.mem_cons_self) hterm
    rw [heq, List.mem_append, List.mem_cons] at hmem
    obtain rfl | hmem := hmem.resolve_left hfresh
    · cases hterm
    · exact hmem
  · -- a change of the encoder sends nothing
    have hsame : ((c.run ks).after k).journal.entries = (c.run ks).journal.entries := by
      rw [show k = .setEncoder d.encoder from hset]
      rfl
    rw [hsame, List.append_assoc] at heq
    exact absurd (List.self_eq_append_right.mp heq) (by simp)

/-- The channel has noticed that the peer has ended its half of the stream, or it is gone. -/
def Heard (c : Connection) (id : ChannelId) : Prop :=
  id < c.nextChannel ∧ ∀ ch, c.channels.get? id = some ch → ch.inboundClosed = true

/-- Such a stream is not reset in the next call. -/
theorem Heard.after {config : Config} {encoder : Encoder} (h : start config encoder = .ok c)
    {ks : List Call} (hc : (c.run ks).Heard id) (k : Call) :
    ((c.run ks).after k).Heard id ∧
      ∃ es, ((c.run ks).after k).journal.entries = (c.run ks).journal.entries ++ es ∧
        ∀ stream reason fault, .wire (some id) ⟨.reset stream reason, fault⟩ ∉ es := by
  have hpath := endingPath_after h ks k
  have hheard {d : Connection} (hd : EndingPath ⟨c.run ks, k⟩ (c.run ks) d) {ch' : Channel}
      (hch' : d.channels.get? id = some ch') : ch'.inboundClosed = true := by
    obtain ⟨ch, hch, hlasting⟩ := hd.lasting hc.1 hch'
    exact hlasting.inboundClosed (hc.2 ch hch)
  obtain ⟨hnext, es, hes⟩ := hpath.grows
  refine ⟨⟨Nat.lt_of_lt_of_le hc.1 hnext, fun ch' hch' => hheard hpath hch'⟩, es, hes.symm, ?_⟩
  intro stream reason fault hmem
  obtain ⟨xs, ys, rfl⟩ := List.append_of_mem hmem
  have heq := hes.symm
  rw [← List.append_assoc] at heq
  obtain ⟨-, -, d, kind, ch, hd, -, -, -, hlast⟩ :=
    terminal_in_closing_call h ks k heq (by simp [Entry.isTerminal] : Entry.isTerminal id _ = true)
  obtain ⟨fault', hframe | ⟨hin, -⟩⟩ := hlast.frame
  · cases hframe
  · exact absurd (hin.symm.trans (hheard hd hlast.channel)) (by decide)

/-- Once the peer has ended its half of a stream, the stream is never reset. -/
theorem Heard.run {config : Config} {encoder : Encoder} (h : start config encoder = .ok c)
    {ks : List Call} (hc : (c.run ks).Heard id) (ls : List Call) :
    (c.run (ks ++ ls)).Heard id ∧
      ∃ es, (c.run (ks ++ ls)).journal.entries = (c.run ks).journal.entries ++ es ∧
        ∀ stream reason fault, .wire (some id) ⟨.reset stream reason, fault⟩ ∉ es := by
  induction ls using List.reverseRecOn with
  | nil =>
    rw [List.append_nil]
    exact ⟨hc, [], (List.append_nil _).symm, fun _ _ _ => List.not_mem_nil⟩
  | append_singleton ls l ih =>
    obtain ⟨hheard, es, hes, hall⟩ := ih
    obtain ⟨hheard', fs, hfs, hall'⟩ := hheard.after h l
    rw [← List.append_assoc, run_concat]
    refine ⟨hheard', es ++ fs, by rw [hfs, hes, List.append_assoc], ?_⟩
    intro stream reason fault hmem
    rcases List.mem_append.mp hmem with hmem | hmem
    · exact hall stream reason fault hmem
    · exact hall' stream reason fault hmem

/-- The stream of a channel is ended at most once, and nothing is sent for the channel after it was
closed.  A frame that ends the stream is sent in the call that closes the channel, and where it is
closed: the stream is not zero, the connection is active, the peer has not reset the stream, the
close is not a remote one, and not both directions were closed.  The frame is empty DATA with
END_STREAM, or, unless the peer has ended its half, a reset with CANCEL.  Whatever the state in
which a channel is closed, no other frame is sent there; and once the peer has ended its half of a
stream, the stream is never reset. -/
theorem stream_is_ended_once {config : Config} {encoder : Encoder} {c : Connection}
    (h : start config encoder = .ok c) (ks : List Call) :
    (∀ id, (c.run ks).journal.entries.countP (Entry.isTerminal id) ≤ 1) ∧
    (∀ id ch, (c.run ks).channels.get? id = some ch →
      (ch.closed = true ↔ .closed id ∈ (c.run ks).journal.entries)) ∧
    (∀ id xs ys, (c.run ks).journal.entries = xs ++ .closed id :: ys →
      ∀ e ∈ ys, e.isFrameOf id = false) ∧
    (∀ k xs e ys id, ((c.run ks).after k).journal.entries =
        (c.run ks).journal.entries ++ xs ++ e :: ys → e.isTerminal id = true →
      .closed id ∉ (c.run ks).journal.entries ∧ .closed id ∈ ys ∧
      ∃ d kind ch, EndingPath ⟨c.run ks, k⟩ (c.run ks) d ∧
        EndingPath ⟨c.run ks, k⟩ (d.close id kind) ((c.run ks).after k) ∧
        d.journal.entries = (c.run ks).journal.entries ++ xs ∧
        d.encoder = (c.run ks).encoder ∧ d.LastFrame id ch kind e) ∧
    (∀ (d : Connection) id ch kind, d.channels.get? id = some ch → ch.closed = false →
      ∃ es, (d.close id kind).journal.entries = d.journal.entries ++ es ∧
        ∀ xs e ys j, es = xs ++ e :: ys → e.isFrameOf j = true →
          j = id ∧ xs = [] ∧ d.LastFrame id ch kind e) ∧
    (∀ id ch, (c.run ks).channels.get? id = some ch → ch.inboundClosed = true → ∀ ls,
      ∃ es, (c.run (ks ++ ls)).journal.entries = (c.run ks).journal.entries ++ es ∧
        ∀ stream reason fault, .wire (some id) ⟨.reset stream reason, fault⟩ ∉ es) := by
  have hsealed := sealed_run h ks
  refine ⟨hsealed.once, fun id ch hch => ⟨hsealed.shut id ch hch, fun hmem => ?_⟩, ?_, ?_, ?_, ?_⟩
  · exact (hsealed.marked id hmem).2 ch hch
  · intro id xs ys heq e he
    obtain ⟨zs, ws, rfl⟩ := List.append_of_mem he
    refine Bool.eq_false_iff.mpr fun hframe => ?_
    refine hsealed.silent (xs ++ .closed id :: zs) e ws (by simp [heq]) id hframe ?_
    exact List.mem_append_right xs List.mem_cons_self
  · exact fun k _ _ _ _ heq hterm => terminal_in_closing_call h ks k heq hterm
  · intro d id ch kind hch ho
    obtain ⟨es, hes, hclosing⟩ := closing_close hch ho kind
    exact ⟨_, hes, fun xs e ys j heq hframe => hclosing.lastFrame hch ho heq hframe⟩
  · intro id ch hch hin ls
    have hheard : (c.run ks).Heard id := by
      refine ⟨hsealed.numbered id ch hch, fun ch' hch' => ?_⟩
      rwa [← Option.some.inj (hch.symm.trans hch')]
    exact (hheard.run h ls).2

/-- A channel that is closed in the middle of a conversation resets its stream. -/
theorem close_resets_stream :
    (((fresh {} .willing).run Call.opening).after (.close 1)).journal.entries =
      ((fresh {} .willing).run Call.opening).journal.entries ++ [] ++
        .wire (some 1) ⟨.reset 3 .cancel, none⟩ :: [.wire none ⟨.flush, none⟩, .closed 1] ∧
    ∃ (d : Connection) (kind : CloseKind) (ch : Channel),
      d.encoder = ((fresh {} .willing).run Call.opening).encoder ∧
        d.LastFrame 1 ch kind (.wire (some 1) ⟨.reset 3 .cancel, none⟩) := by
  have heq : (((fresh {} .willing).run Call.opening).after (.close 1)).journal.entries =
      ((fresh {} .willing).run Call.opening).journal.entries ++ [] ++
        .wire (some 1) ⟨.reset 3 .cancel, none⟩ :: [.wire none ⟨.flush, none⟩, .closed 1] := by
    decide
  obtain ⟨-, -, d, kind, ch, -, -, -, hencoder, hlast⟩ := (stream_is_ended_once
    (rfl : start {} .willing = .ok (fresh {} .willing)) Call.opening).2.2.2.1 _ _ _ _ 1 heq
      (by decide)
  exact ⟨heq, d, kind, ch, hencoder, hlast⟩

end Connection

end ChannelMux
