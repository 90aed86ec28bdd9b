import ChannelMux.Proofs.Dispatch
import ChannelMux.Proofs.Fates
import ChannelMux.Proofs.Weights

/-!
# The outbox: payloads are sent in the order in which they were written

While a channel is open, what was written to it is what was sent, followed by what is parked and by
what is about to be put down (`Queued.flows`); when it is closed, what was sent remains a prefix of
that.  Before the handshake of a channel is complete nothing is sent, so that the parked writes are
the first ones, and they are all taken out when it completes.

A write counts as accepted unless its ticket is worth `channelClosed` at once.  A call that makes
one takes it up first of all, and only once: a payload that has been counted cannot be taken up
again, as the law itself shows (`Queued.encoderStep_accepting`).
-/

namespace ChannelMux

/-- The payload of the write, if it is one to the channel. -/
def LooseWrite.payloadFor? (id : ChannelId) (w : LooseWrite) : Option Bytes :=
  if w.channel = id then some w.payload else none

theorem LooseWrite.payloadFor?_of_ne {id : ChannelId} {w : LooseWrite} (h : w.channel ≠ id) :
    w.payloadFor? id = none := if_neg h

/-- The second channel has the parked writes of the first, and its handshake is as far from
completion. -/
structure Channel.Holds (ch ch' : Channel) : Prop where
  closed : ch'.closed = ch.closed
  complete : ch'.handshake = .complete ↔ ch.handshake = .complete
  failed : ch'.handshake = .failed → ch.handshake = .failed
  parked : ch.closed = false → ch'.parked = ch.parked

theorem Channel.Constant.holds {ch ch' : Channel} (h : ch.Constant ch') : ch.Holds ch' where
  closed := h.closed
  complete := by rw [h.handshake]
  failed := h.handshake.symm.trans
  parked := h.parked

theorem Channel.Holds.refl (ch : Channel) : ch.Holds ch := (Channel.Constant.refl ch).holds

namespace Connection

variable {k : Cause} {c c' d : Connection} {id j : ChannelId} {ch ch' : Channel}
  {ws : List LooseWrite} {s t : Stage} {payload : Bytes} {ticket : Ticket}

/-! ## Accepted writes -/

/-- The payload of a write that the call makes to the channel, unless it is refused at once. -/
def accepted (c : Connection) (id : ChannelId) (k : Call) : List Bytes :=
  match k.write?, (c.call k).1 with
  | some (j, payload), .ticket t =>
    if j = id ∧ (c.after k).ledger.promise? t ≠ some (.kept (.failed .channelClosed)) then
      [payload]
    else []
  | _, _ => []

/-- The payloads of the writes that a run has made to the channel and that were not refused at
once, in their order. -/
def acceptances (id : ChannelId) : Connection → List Call → List Bytes
  | _, [] => []
  | c, k :: ks => c.accepted id k ++ acceptances id (c.after k) ks

theorem acceptances_concat (c : Connection) (id : ChannelId) (ks : List Call) (k : Call) :
    acceptances id c (ks ++ [k]) = acceptances id c ks ++ (c.run ks).accepted id k := by
  induction ks generalizing c with
  | nil => exact List.append_nil _
  | cons l ks ih =>
    rw [List.cons_append, acceptances, acceptances, ih, List.append_assoc]
    rfl

/-- A write that the encoder takes is not resolved yet, and one that it refuses fails for that
reason. -/
theorem promise?_sendData (hheld : c.ledger.isHeld ticket = true) (id : ChannelId)
    (stream : StreamId) (payload : Bytes) :
    (c.sendData id stream payload ticket).ledger.promise? ticket ≠
      some (.kept (.failed .channelClosed)) := by
  rcases hsub : (c.enterWrite id payload ticket).submit (some id)
    (.data c.nextWrite stream payload false) with ⟨fault, d⟩
  have hd := (Prod.mk.inj hsub).2
  cases fault with
  | none =>
    have hsame : (c.sendData id stream payload ticket).ledger = c.ledger := by
      rw [sendData_of_taken hsub, ← hd]
      rfl
    rw [hsame, of_decide_eq_true hheld]
    decide
  | some f =>
    have hw : d.inflight.get? c.nextWrite = some ⟨id, payload.length, ticket⟩ := by
      rw [← hd]
      exact Table.get?_insert_self ..
    have hkept := promise?_writeCompleted (w := ⟨id, payload.length, ticket⟩) hw
      (hd ▸ hheld : d.ledger.isHeld ticket = true) (some f)
    rw [sendData_of_refused hsub, ← writeCompleted_of_some hw, hkept]
    simp [Outcome.ofReport]

section

variable (hch : c.channels.get? id = some ch)
include hch

theorem write_closed (h : (ch.closed || ch.outboundClosed) = true) (payload : Bytes) :
    c.write id payload = c.issue (.kept (.failed .channelClosed)) := by
  rw [write, hch]
  dsimp only
  rw [if_pos h]

/-- A write to a channel that takes any is accepted. -/
theorem promise?_write (hr : c.Regular) (ho : ch.closed = false) (hout : ch.outboundClosed = false)
    (payload : Bytes) : (c.write id payload).2.ledger.promise? c.ledger.next ≠
      some (.kept (.failed .channelClosed)) := by
  have hissued : (c.ledger.issue .held).2.promise? c.ledger.next = some .held := by
    rw [Ledger.promise?_issue, if_pos rfl]
  obtain ⟨tasks, hcount, -⟩ := countBytes_eq (c.issue .held).2 id ch payload.length
  rw [issue_eq] at hcount
  rw [write, hch]
  simp only [ho, hout, Bool.or_self, Bool.false_eq_true, if_false, issue_eq, hcount]
  split
  next hp =>
    split
    · change (c.ledger.issue .held).2.promise? _ ≠ _
      rw [hissued]
      decide
    next hpush =>
      have hunsettled := (hr.balanced.parking id ch hch).pending hp
      exact absurd (hunsettled.symm.trans (push?_eq_none_iff.mp hpush)) (by decide)
  next =>
    exact promise?_sendData (decide_eq_true hissued) id ch.stream payload

end

theorem accepted_eq {k : Call} (hk : k = .write id payload ∨ k = .writeAndFlush id payload)
    (c : Connection) (j : ChannelId) : c.accepted j k =
      if c.channels.contains id = true ∧ id = j ∧
          (c.write id payload).2.ledger.promise? (c.write id payload).1 ≠
            some (.kept (.failed .channelClosed)) then
        [payload]
      else [] := by
  cases hthere : c.channels.contains id with
  | false =>
    rcases hk with rfl | rfl
    · simp [accepted, Call.write?, Followed.call_write, onChannel, hthere]
    · simp [accepted, Call.write?, Followed.call_writeAndFlush, onChannel, hthere]
  | true =>
    rcases hk with rfl | rfl
    · simp [accepted, after, Call.write?, Followed.call_write, onChannel, hthere]
    · have hflush : ((c.write id payload).2.flushChannel id).ledger =
          (c.write id payload).2.ledger := rfl
      simp [accepted, after, Call.write?, Followed.call_writeAndFlush, onChannel, hthere, hflush]

/-- The call makes a write to a channel that takes any. -/
structure Writes (c : Connection) (k : Call) (id : ChannelId) (ch : Channel) (payload : Bytes) :
    Prop where
  call : k = .write id payload ∨ k = .writeAndFlush id payload
  channel : c.channels.get? id = some ch
  opened : ch.closed = false
  sending : ch.outboundClosed = false

theorem Writes.accepted {k : Call} (h : c.Writes k id ch payload) (hr : c.Regular) :
    c.accepted id k = [payload] ∧ ∀ j ≠ id, c.accepted j k = [] := by
  have hkept := promise?_write h.channel hr h.opened h.sending payload
  have hthere : c.channels.contains id = true := by
    rw [Table.contains, h.channel]
    rfl
  rw [accepted_eq h.call, if_pos ⟨hthere, rfl, (Followed.next_lt_write hr id payload).1 ▸ hkept⟩]
  refine ⟨rfl, fun j hj => ?_⟩
  rw [accepted_eq h.call, if_neg fun hcond => hj hcond.2.1.symm]

/-- Nothing is accepted in any other call. -/
theorem accepted_cases (c : Connection) (k : Call) :
    (∀ id, c.accepted id k = []) ∨ ∃ id ch payload, c.Writes k id ch payload := by
  cases hw : k.write? with
  | none => exact .inl fun id => by rw [accepted, hw]
  | some w =>
    obtain ⟨id, payload⟩ := w
    have hk : k = .write id payload ∨ k = .writeAndFlush id payload := by
      unfold Call.write? at hw
      split at hw
      · obtain ⟨rfl, rfl⟩ := Prod.mk.inj (Option.some.inj hw)
        exact .inl rfl
      · obtain ⟨rfl, rfl⟩ := Prod.mk.inj (Option.some.inj hw)
        exact .inr rfl
      · cases hw
    cases hch : c.channels.get? id with
    | none =>
      refine .inl fun j => ?_
      rw [accepted_eq hk, if_neg]
      rintro ⟨hthere, -⟩
      rw [Table.contains, hch] at hthere
      cases hthere
    | some ch =>
      cases hclosed : ch.closed || ch.outboundClosed with
      | false =>
        obtain ⟨ho, hout⟩ := Bool.or_eq_false_iff.mp hclosed
        exact .inr ⟨id, ch, payload, hk, hch, ho, hout⟩
      | true =>
        refine .inl fun j => ?_
        rw [accepted_eq hk, if_neg]
        rintro ⟨-, -, hkept⟩
        refine hkept ?_
        rw [write_closed hch hclosed payload, issue_eq, Ledger.promise?_issue, if_pos rfl]

/-! ## The law -/

/-- What holds at any time of the channels, to which the given payloads were written so far. -/
structure Queued (A : ChannelId → List Bytes) (s : Stage) : Prop where
  numbered : ∀ id ch, s.conn.channels.get? id = some ch → id < s.conn.nextChannel
  loose : ∀ w ∈ s.loose, w.channel < s.conn.nextChannel
  flows : ∀ id ch, s.conn.channels.get? id = some ch → ch.closed = false →
    A id = s.conn.journal.payloads id ++ ch.parked.writes.map Prod.fst ++
      s.loose.filterMap (LooseWrite.payloadFor? id)
  bounded : ∀ id, s.conn.journal.payloads id <+: A id
  decided : ∀ id ch, s.conn.channels.get? id = some ch → ch.closed = false →
    ch.handshake ≠ .failed ∧ (ch.handshake = .complete → ch.parked.writes = [])
  early : ∀ id ch, s.conn.channels.get? id = some ch → ch.handshake ≠ .complete →
    s.conn.journal.payloads id = []
  unmade : ∀ id, s.conn.nextChannel ≤ id → A id = []

/-- The payload of an entry comes after those of the entries before. -/
theorem payloads_push (j : Journal) (e : Entry) (id : ChannelId) :
    (j.push e).payloads id = j.payloads id ++ (e.payloadOf? id).toList := by
  rw [Journal.payloads, Journal.push, List.filterMap_append, Journal.payloads]
  congr 1

theorem payloads_continued {P : Entry → Prop} {j j' : Journal} (h : j.Extends P j')
    (hP : ∀ e, P e → e.payloadOf? id = none) : j'.payloads id = j.payloads id :=
  h.filterMap_eq hP

namespace Queued

variable {A B : ChannelId → List Bytes}

/-- Channels have closed, or have what they had. -/
theorem of_back (h : Queued A ⟨c, ws⟩) (hnext : c.nextChannel ≤ c'.nextChannel)
    (hpayloads : ∀ id, c'.journal.payloads id = c.journal.payloads id)
    (hback : ∀ id ch', c'.channels.get? id = some ch' → ∃ ch, c.channels.get? id = some ch ∧
      (ch.Holds ch' ∨ ch'.closed = true ∧ (ch.handshake = .complete → ch'.handshake = .complete))) :
    Queued A ⟨c', ws⟩ where
  numbered id ch' hch' := by
    obtain ⟨ch, hch, -⟩ := hback id ch' hch'
    exact Nat.lt_of_lt_of_le (h.numbered id ch hch) hnext
  loose w hw := Nat.lt_of_lt_of_le (h.loose w hw) hnext
  flows id ch' hch' ho := by
    obtain ⟨ch, hch, hholds | ⟨hclosed, -⟩⟩ := hback id ch' hch'
    · have ho' := hholds.closed.symm.trans ho
      rw [hpayloads, hholds.parked ho']
      exact h.flows id ch hch ho'
    · exact absurd (ho.symm.trans hclosed) (by decide)
  bounded id := hpayloads id ▸ h.bounded id
  decided id ch' hch' ho := by
    obtain ⟨ch, hch, hholds | ⟨hclosed, -⟩⟩ := hback id ch' hch'
    · have ho' := hholds.closed.symm.trans ho
      rw [hholds.parked ho', hholds.complete]
      obtain ⟨hfailed, hcomplete⟩ := h.decided id ch hch ho'
      exact ⟨fun hf => hfailed (hholds.failed hf), hcomplete⟩
    · exact absurd (ho.symm.trans hclosed) (by decide)
  early id ch' hch' hs := by
    rw [hpayloads]
    obtain ⟨ch, hch, hholds | ⟨-, hcomplete⟩⟩ := hback id ch' hch'
    · exact h.early id ch hch fun hs' => hs (hholds.complete.mpr hs')
    · exact h.early id ch hch fun hs' => hs (hcomplete hs')
  unmade id hid := h.unmade id (Nat.le_trans hnext hid)

theorem aloof (h : Queued A ⟨c, ws⟩) (ha : Aloof k c c') : Queued A ⟨c', ws⟩ := by
  refine h.of_back ha.nextChannel
    (fun id => payloads_continued ha.journal fun e he => Entry.payloadOf?_of_idle he.idle id) ?_
  intro id ch' hch'
  obtain ⟨ch, hch, hconst⟩ := ha.channels.back hch'
  exact ⟨ch, hch, .inl hconst.holds⟩

/-- A channel was closed. -/
theorem shuts (h : Queued A ⟨c, ws⟩) (hch : c.channels.get? id = some ch)
    (hs : Shuts c id ch c') : Queued A ⟨c', ws⟩ := by
  refine h.of_back hs.nextChannel
    (fun j => payloads_continued hs.journal fun e he => he j) ?_
  intro j e he
  rcases hs.cases he with ⟨rfl, hshut⟩ | ⟨d, hd, hconst⟩
  · exact ⟨ch, hch, .inr hshut⟩
  · exact ⟨d, hd, .inl hconst.holds⟩

/-- One channel has got a new value, and has what it had. -/
theorem insert (h : Queued A ⟨c, ws⟩) (hnext : c'.nextChannel = c.nextChannel)
    (hchannels : c'.channels = c.channels.insert id ch')
    (hpayloads : ∀ id, c'.journal.payloads id = c.journal.payloads id)
    (hch : c.channels.get? id = some ch) (hholds : ch.Holds ch') : Queued A ⟨c', ws⟩ := by
  refine h.of_back (Nat.le_of_eq hnext.symm) hpayloads ?_
  intro j e he
  rcases Table.get?_insert_cases (hchannels ▸ he) with ⟨rfl, rfl⟩ | he
  · exact ⟨ch, hch, .inl hholds⟩
  · exact ⟨e, he, .inl (.refl e)⟩

theorem writeFailed (h : Queued A ⟨c, ws⟩) (id : ChannelId) :
    Queued A ⟨c.writeFailed id, ws⟩ := by
  rcases writeFailed_shuts c id with ⟨-, heq⟩ | ⟨ch, hch, -, hshuts | ⟨-, heq⟩⟩
  · rw [heq]
    exact h
  · exact h.shuts hch hshuts
  · rw [heq]
    exact h.insert rfl rfl (fun _ => rfl) hch ⟨rfl, .rfl, fun hf => hf, fun _ => rfl⟩

/-- A channel has come, to which nothing was written. -/
theorem made (h : Queued A ⟨c, ws⟩) (hnext : c'.nextChannel = c.nextChannel + 1)
    (hchannels : c'.channels = c.channels.insert c.nextChannel ch')
    (hpayloads : ∀ id, c'.journal.payloads id = c.journal.payloads id)
    (hhand : ch'.handshake ≠ .failed) (hparked : ch'.parked.writes = []) : Queued A ⟨c', ws⟩ := by
  have hcases {id : ChannelId} {e : Channel} (he : c'.channels.get? id = some e) :
      id = c.nextChannel ∧ e = ch' ∨ c.channels.get? id = some e :=
    Table.get?_insert_cases (hchannels ▸ he)
  have hnone : A c.nextChannel = [] := h.unmade _ (Nat.le_refl _)
  have hunsent : c.journal.payloads c.nextChannel = [] :=
    List.prefix_nil.mp (hnone ▸ h.bounded c.nextChannel)
  have hunwritten : ws.filterMap (LooseWrite.payloadFor? c.nextChannel) = [] :=
    List.filterMap_eq_nil_iff.mpr fun w hw =>
      LooseWrite.payloadFor?_of_ne (Nat.ne_of_lt (h.loose w hw))
  constructor
  case numbered =>
    intro id e he
    rw [hnext]
    rcases hcases he with ⟨rfl, -⟩ | he
    · exact Nat.lt_succ_self _
    · exact Nat.lt_succ_of_lt (h.numbered id e he)
  case loose =>
    intro w hw
    rw [hnext]
    exact Nat.lt_succ_of_lt (h.loose w hw)
  case flows =>
    intro id e he ho
    rw [hpayloads]
    rcases hcases he with ⟨rfl, rfl⟩ | he
    · rw [hnone, hunsent, hparked, hunwritten]
      rfl
    · exact h.flows id e he ho
  case bounded =>
    intro id
    exact hpayloads id ▸ h.bounded id
  case decided =>
    intro id e he ho
    rcases hcases he with ⟨-, rfl⟩ | he
    · exact ⟨hhand, fun _ => hparked⟩
    · exact h.decided id e he ho
  case early =>
    intro id e he hs
    rw [hpayloads]
    rcases hcases he with ⟨rfl, -⟩ | he
    · exact hunsent
    · exact h.early id e he hs
  case unmade =>
    intro id hid
    have hle : c.nextChannel ≤ c'.nextChannel := hnext ▸ Nat.le_succ _
    exact h.unmade id (Nat.le_trans hle hid)

/-- One channel has got a new value, and what is about to be put down has changed only for it. -/
theorem of_insert {ws' : List LooseWrite} (h : Queued A ⟨c, ws⟩)
    (hnext : c'.nextChannel = c.nextChannel)
    (hchannels : c'.channels = c.channels.insert id ch') (hch : c.channels.get? id = some ch)
    (hjournal : ∀ j, c'.journal.payloads j = c.journal.payloads j)
    (hloose : ∀ w ∈ ws', w ∈ ws ∨ w.channel = id)
    (hothers : ∀ j ≠ id, ws'.filterMap (LooseWrite.payloadFor? j) =
      ws.filterMap (LooseWrite.payloadFor? j))
    (hflows : ch'.parked.writes.map Prod.fst ++ ws'.filterMap (LooseWrite.payloadFor? id) =
      ch.parked.writes.map Prod.fst ++ ws.filterMap (LooseWrite.payloadFor? id))
    (hclosed : ch'.closed = ch.closed)
    (hdecided : ch'.handshake ≠ .failed ∧ (ch'.handshake = .complete → ch'.parked.writes = []))
    (hearly : ch'.handshake ≠ .complete → ch.handshake ≠ .complete) : Queued A ⟨c', ws'⟩ := by
  have hcases {i : ChannelId} {e : Channel} (he : c'.channels.get? i = some e) :
      i = id ∧ e = ch' ∨ i ≠ id ∧ c.channels.get? i = some e := by
    rw [hchannels, Table.get?_insert] at he
    split at he
    next hi => exact .inl ⟨hi, (Option.some.inj he).symm⟩
    next hi => exact .inr ⟨hi, he⟩
  constructor
  case numbered =>
    intro i e he
    rw [hnext]
    rcases hcases he with ⟨rfl, -⟩ | ⟨-, he⟩
    · exact h.numbered i ch hch
    · exact h.numbered i e he
  case loose =>
    intro w hw
    rw [hnext]
    rcases hloose w hw with hw | rfl
    · exact h.loose w hw
    · exact h.numbered _ ch hch
  case flows =>
    intro i e he ho
    rw [hjournal]
    rcases hcases he with ⟨rfl, rfl⟩ | ⟨hi, he⟩
    · have hflow := h.flows i ch hch (hclosed.symm.trans ho)
      rw [List.append_assoc] at hflow ⊢
      rw [hflow, hflows]
    · rw [hothers i hi]
      exact h.flows i e he ho
  case bounded =>
    intro i
    exact hjournal i ▸ h.bounded i
  case decided =>
    intro i e he ho
    rcases hcases he with ⟨-, rfl⟩ | ⟨-, he⟩
    · exact hdecided
    · exact h.decided i e he ho
  case early =>
    intro i e he hs
    rw [hjournal]
    rcases hcases he with ⟨rfl, rfl⟩ | ⟨-, he⟩
    · exact h.early i ch hch (hearly hs)
    · exact h.early i e he hs
  case unmade =>
    intro i hi
    have hi : c'.nextChannel ≤ i := hi
    exact h.unmade i (hnext ▸ hi)

theorem parked {w : LooseWrite} {parked : Parked} (h : Queued A ⟨c, w :: ws⟩)
    (hch : c.channels.get? w.channel = some ch) (ho : ch.closed = false)
    (hp : ch.handshake.isPending = true)
    (hpush : ch.parked.push? w.payload w.ticket = some parked) :
    Queued A ⟨{ c with channels := c.channels.insert w.channel { ch with parked := parked } },
      ws⟩ := by
  refine h.of_insert rfl rfl hch (fun _ => rfl) (fun v hv => .inl (List.mem_cons_of_mem w hv)) ?_ ?_
    rfl ⟨(h.decided _ ch hch ho).1, fun hs => ?_⟩ id
  · intro j hj
    rw [List.filterMap_cons_none (LooseWrite.payloadFor?_of_ne hj.symm)]
  · have hself : w.payloadFor? w.channel = some w.payload := if_pos rfl
    rw [List.filterMap_cons_some hself, (push?_eq_some hpush).1, List.map_append, List.append_assoc]
    rfl
  · have hs : ch.handshake = .complete := hs
    rw [hs] at hp
    cases hp

/-- The parked writes of a channel are taken out. -/
theorem unparked (h : Queued A ⟨c, []⟩) (hch : c.channels.get? id = some ch)
    (hnext : c'.nextChannel = c.nextChannel)
    (hchannels : c'.channels = c.channels.insert id ch') (hparked : ch'.parked = .done)
    (hclosed : ch'.closed = ch.closed) (hcomplete : ch'.handshake = .complete)
    (hjournal : c'.journal = c.journal) :
    Queued A ⟨c', ch.parked.writes.map fun w => ⟨id, w.1, w.2⟩⟩ := by
  refine h.of_insert hnext hchannels hch (fun _ => by rw [hjournal]) ?_ ?_ ?_ hclosed
    ⟨by rw [hcomplete]; decide, fun _ => by rw [hparked]; rfl⟩
    fun hne => absurd hcomplete hne
  · intro w hw
    obtain ⟨_, -, rfl⟩ := List.mem_map.mp hw
    exact .inr rfl
  · intro j hj
    rw [List.filterMap_eq_nil_iff.mpr]
    · rfl
    · intro w hw
      obtain ⟨_, -, rfl⟩ := List.mem_map.mp hw
      exact LooseWrite.payloadFor?_of_ne hj.symm
  · rw [hparked, List.filterMap_map]
    simp [Parked.done, LooseWrite.payloadFor?, Function.comp_def]

/-- A payload was handed to the encoder. -/
theorem handed {w : LooseWrite} (h : Queued A ⟨c, w :: ws⟩)
    (hch : c.channels.get? w.channel = some ch) (ho : ch.closed = false)
    (hp : ch.handshake.isPending = false) (write : WriteId) (fault : Option WriteFault) :
    Queued A ⟨c.note (.wire (some w.channel)
      ⟨.data write ch.stream w.payload false, fault⟩), ws⟩ := by
  obtain ⟨hfailed, hcomplete⟩ := h.decided _ ch hch ho
  have hdone : ch.handshake = .complete := by
    cases hs : ch.handshake with
    | complete => rfl
    | failed => exact absurd hs hfailed
    | awaitingSettings | requestSent => rw [hs] at hp; cases hp
  have hself : w.payloadFor? w.channel = some w.payload := if_pos rfl
  have hpayloads : (c.note (.wire (some w.channel)
      ⟨.data write ch.stream w.payload false, fault⟩)).journal.payloads w.channel =
        c.journal.payloads w.channel ++ [w.payload] := by
    refine (payloads_push ..).trans ?_
    rw [Entry.payloadOf?]
    simp
  have hothers : ∀ j ≠ w.channel, (c.note (.wire (some w.channel)
      ⟨.data write ch.stream w.payload false, fault⟩)).journal.payloads j =
        c.journal.payloads j := by
    intro j hj
    refine (payloads_push ..).trans ?_
    rw [Entry.payloadOf?]
    simp [hj.symm]
  have hflow : A w.channel = c.journal.payloads w.channel ++ [w.payload] ++
      ws.filterMap (LooseWrite.payloadFor? w.channel) := by
    rw [h.flows _ ch hch ho, hcomplete hdone, List.filterMap_cons_some hself]
    simp
  refine
    { numbered := h.numbered, loose := fun v hv => h.loose v (List.mem_cons_of_mem w hv),
      flows := ?flows, bounded := ?bounded, decided := h.decided, early := ?early,
      unmade := h.unmade }
  case flows =>
    intro j e he ho'
    by_cases hj : j = w.channel
    · subst hj
      obtain rfl := Option.some.inj (hch.symm.trans he)
      rw [hpayloads, hcomplete hdone, List.map_nil, List.append_nil]
      exact hflow
    · have hother := h.flows j e he ho'
      rw [List.filterMap_cons_none (LooseWrite.payloadFor?_of_ne (Ne.symm hj))] at hother
      rw [hothers j hj]
      exact hother
  case bounded =>
    intro j
    by_cases hj : j = w.channel
    · subst hj
      exact hpayloads ▸ ⟨_, hflow.symm⟩
    · rw [hothers j hj]
      exact h.bounded j
  case early =>
    intro j e he hs
    have hj : j ≠ w.channel := by
      rintro rfl
      obtain rfl := Option.some.inj (hch.symm.trans he)
      exact hs hdone
    rw [hothers j hj]
    exact h.early j e he hs

/-- A write that cannot be sent any more is forgotten. -/
theorem dropped {w : LooseWrite} (h : Queued A ⟨c, w :: ws⟩)
    (hclosed : c.isOpen w.channel = false) : Queued A ⟨c, ws⟩ := by
  refine
    { numbered := h.numbered, loose := fun v hv => h.loose v (List.mem_cons_of_mem w hv),
      flows := ?_, bounded := h.bounded, decided := h.decided, early := h.early,
      unmade := h.unmade }
  intro j e he ho
  have hj : w.channel ≠ j := by
    rintro rfl
    rw [isOpen_of_get? he, ho] at hclosed
    cases hclosed
  have hother := h.flows j e he ho
  rwa [List.filterMap_cons_none (LooseWrite.payloadFor?_of_ne hj)] at hother

/-- A write is taken up, which has been counted from then on. -/
theorem takenUp (h : Queued A ⟨c, []⟩) (hch : c.channels.get? id = some ch)
    (ticket : Ticket) (hB : B id = A id ++ [payload]) (hothers : ∀ j ≠ id, B j = A j) :
    Queued B ⟨c, [⟨id, payload, ticket⟩]⟩ := by
  have hid := h.numbered id ch hch
  have hself : (⟨id, payload, ticket⟩ : LooseWrite).payloadFor? id = some payload := if_pos rfl
  refine
    { numbered := h.numbered, loose := ?loose, flows := ?flows, bounded := ?bounded,
      decided := h.decided, early := h.early, unmade := ?unmade }
  case loose =>
    intro w hw
    rw [List.mem_singleton.mp hw]
    exact hid
  case flows =>
    intro j e he ho
    have hflow := h.flows j e he ho
    by_cases hj : j = id
    · subst hj
      rw [hB, hflow, List.filterMap_cons_some hself]
      simp
    · rw [hothers j hj, List.filterMap_cons_none (LooseWrite.payloadFor?_of_ne (Ne.symm hj))]
      exact hflow
  case bounded =>
    intro j
    by_cases hj : j = id
    · subst hj
      rw [hB]
      exact (h.bounded j).trans (List.prefix_append _ _)
    · rw [hothers j hj]
      exact h.bounded j
  case unmade =>
    intro j hj
    rw [hothers j (Nat.ne_of_gt (Nat.lt_of_lt_of_le hid hj))]
    exact h.unmade j hj

/-- A step keeps the law, or it takes up a write. -/
theorem step (h : Queued A s) (hs : EncoderStep k s t) : Queued A t ∨
    s = ⟨k.conn, []⟩ ∧ ∃ id ch payload, k.conn.Writes k.call id ch payload ∧
      ∀ B : ChannelId → List Bytes, B id = A id ++ [payload] → (∀ j ≠ id, B j = A j) →
        Queued B t := by
  cases hs with
  | aloof ws ha => exact .inl (h.aloof ha)
  | @asked c path subprotocol ws hrole =>
    rw [addAsking_eq]
    refine .inl (h.made rfl rfl (fun _ => rfl) ?_ rfl)
    change (if c.config.role = .client then Handshake.awaitingSettings else .complete) ≠ _
    rw [if_pos hrole]
    decide
  | requested block ws hch ho ha =>
    refine .inl (h.insert rfl rfl (fun j => ?_) hch ⟨rfl, by simp [ha], nofun, fun _ => rfl⟩)
    rw [payloads_push, payloads_push]
    simp [Entry.payloadOf?]
  | enrolled path subprotocol compression block ws hrole =>
    refine .inl (h.made rfl rfl (fun j => ?_) ?_ rfl)
    · refine (payloads_push ..).trans ?_
      simp [Entry.payloadOf?]
    · rw [handshake_enrolledChannel hrole]
      decide
  | takenUp ticket hk hc hch ho hout ha =>
    subst hc
    exact .inr ⟨rfl, _, _, _, ⟨hk, hch, ho, hout⟩,
      fun B hB hothers => (h.takenUp hch ticket hB hothers).aloof ha⟩
  | parked hch ho hp hpush => exact .inl (h.parked hch ho hp hpush)
  | unparked subprotocol compression hch ho hs =>
    exact .inl (h.unparked hch rfl rfl rfl rfl rfl rfl)
  | @sent c w ws ch hch ho hp =>
    exact .inl ((h.handed hch ho hp c.nextWrite none).of_back (Nat.le_refl _) (fun _ => rfl)
      fun _ e he => ⟨e, he, .inl (.refl e)⟩)
  | bounced f hch ho hp ha => exact .inl (((h.handed hch ho hp _ (some f)).aloof ha).writeFailed _)
  | dropped hclosed ha => exact .inl ((h.dropped hclosed).aloof ha)
  | failed c id ws => exact .inl (h.writeFailed id)
  | ended kind ws hch ho hl hs => exact .inl (h.shuts hch (hl.shuts kind))
  | requestRefused block f ws hch ho ha hl hs hd => exact .inl (h.shuts hch (hl.shuts .reset))
  | tornDown tasks ws =>
    exact .inl (h.of_back (Nat.le_refl _) (fun _ => rfl)
      fun _ e he => ⟨e, Table.get?_of_erase he, .inl (.refl e)⟩)

end Queued

/-! ## Calls -/

/-- What was written so far, and what the call writes. -/
def accepting (A : ChannelId → List Bytes) (k : Cause) : ChannelId → List Bytes :=
  fun id => A id ++ k.conn.accepted id k.call

namespace Queued

variable {A : ChannelId → List Bytes}

theorem accepting_of_writes (hr : k.conn.Regular) (hw : k.conn.Writes k.call id ch payload) :
    accepting A k id = A id ++ [payload] ∧ ∀ j ≠ id, accepting A k j = A j := by
  obtain ⟨hself, hothers⟩ := hw.accepted hr
  refine ⟨by rw [accepting, hself], fun j hj => ?_⟩
  rw [accepting, hothers j hj, List.append_nil]

/-- The write of the call is not taken up again. -/
theorem encoderStep_accepting (h₀ : Queued A ⟨k.conn, []⟩) (hr : k.conn.Regular)
    (h : Queued (accepting A k) s) (hs : EncoderStep k s t) : Queued (accepting A k) t := by
  rcases h.step hs with ht | ⟨rfl, id, ch, payload, hw, -⟩
  · exact ht
  · have hbefore := h₀.flows id ch hw.channel hw.opened
    have hafter := h.flows id ch hw.channel hw.opened
    rw [(accepting_of_writes hr hw).1, ← hbefore] at hafter
    exact absurd (List.append_right_eq_self.mp hafter) (by simp)

/-- At any moment of a call its write is counted, or it is not. -/
theorem encoderStep (h₀ : Queued A ⟨k.conn, []⟩) (hr : k.conn.Regular) (hs : EncoderStep k s t)
    (h : Queued A s ∨ Queued (accepting A k) s) : Queued A t ∨ Queued (accepting A k) t := by
  rcases h with h | h
  · refine (h.step hs).imp id fun ⟨_, id, ch, payload, hw, hall⟩ => ?_
    obtain ⟨hself, hothers⟩ := accepting_of_writes hr hw
    exact hall _ hself hothers
  · exact .inr (encoderStep_accepting h₀ hr h hs)

theorem encoderPath (h₀ : Queued A ⟨k.conn, []⟩) (hr : k.conn.Regular)
    (h : Queued (accepting A k) s) (hs : EncoderPath k s t) : Queued (accepting A k) t :=
  hs.induction (fun _ _ hstep h => encoderStep_accepting h₀ hr h hstep) h

/-- A call that writes takes up its write first of all. -/
theorem after_of_writes {l : Call} (h : Queued A ⟨c, []⟩) (hr : c.Regular) (he : c.Enlisted)
    (hw : c.Writes l id ch payload) : Queued (accepting A ⟨c, l⟩) ⟨c.after l, []⟩ := by
  have hkept := promise?_write hw.channel hr hw.opened hw.sending payload
  rcases write_cases False ⟨c, l⟩ c id payload with heq | ⟨ch', hch', -, -, -, hpath⟩
  · rw [heq, issue_eq, Ledger.promise?_issue, if_pos rfl] at hkept
    exact absurd rfl hkept
  obtain rfl := Option.some.inj (hw.channel.symm.trans hch')
  have htaken : CallStep False ⟨c, l⟩ ⟨c, []⟩ _ :=
    .takenUp hw.call rfl hw.channel hw.opened hw.sending
  have hheld : Aloof ⟨c, l⟩ c (c.issue .held).2 := { Aloof.refl c with }
  have hissued := hheld.trans (.countBytes (c := (c.issue .held).2) hw.channel payload.length)
  obtain ⟨hself, hothers⟩ := accepting_of_writes (k := ⟨c, l⟩) hr hw
  have hlaw := (h.takenUp hw.channel c.ledger.next hself hothers).aloof hissued
  have hwritten := encoderPath (k := ⟨c, l⟩) h hr hlaw
    (encoderPath_callPath (tidy_callStep hr.tidy htaken) (hr.balanced.callStep hr.tidy htaken)
      (he.registryPath hr.tidy (registryPath_callStep htaken)) hpath)
  have hthere : c.channels.contains id = true := by
    rw [Table.contains, hw.channel]
    rfl
  rcases hw.call with rfl | rfl
  · rw [Connection.after, Followed.call_write, onChannel, if_pos hthere]
    exact hwritten
  · rw [Connection.after, Followed.call_writeAndFlush, onChannel, if_pos hthere]
    exact hwritten.aloof (k := ⟨c, .writeAndFlush id payload⟩) (aloof_flushChannel _ id)

/-- After a call its write is counted. -/
theorem after {config : Config} {encoder : Encoder} (hstart : start config encoder = .ok c)
    {ks : List Call} (h : Queued A ⟨c.run ks, []⟩) (l : Call) :
    Queued (accepting A ⟨c.run ks, l⟩) ⟨(c.run ks).after l, []⟩ := by
  have hr := (Regular.of_start hstart).run ks
  rcases (c.run ks).accepted_cases l with hnone | ⟨id, ch, payload, hw⟩
  · have hsame : accepting A ⟨c.run ks, l⟩ = A := by
      funext id
      rw [accepting, hnone, List.append_nil]
    exact encoderPath (k := ⟨c.run ks, l⟩) h hr (hsame.symm ▸ h) (encoderPath_after hstart ks l)
  · exact after_of_writes h hr (enlisted_run hstart ks) hw

end Queued

/-! ## Runs -/

theorem acceptances_accepting (c : Connection) (ks : List Call) (k : Call) :
    (fun id => acceptances id c (ks ++ [k])) =
      accepting (fun id => acceptances id c ks) ⟨c.run ks, k⟩ :=
  funext fun id => acceptances_concat c id ks k

theorem queued_run {config : Config} {encoder : Encoder} (h : start config encoder = .ok c)
    (ks : List Call) : Queued (fun id => acceptances id c ks) ⟨c.run ks, []⟩ := by
  induction ks using List.reverseRecOn with
  | nil =>
    obtain rfl := (start_eq h).1
    exact
      { numbered := fun _ _ hch => (nomatch hch)
        loose := fun _ hw => absurd hw List.not_mem_nil
        flows := fun _ _ hch => (nomatch hch)
        bounded := fun _ => List.prefix_rfl
        decided := fun _ _ hch => (nomatch hch)
        early := fun _ _ hch => (nomatch hch)
        unmade := fun _ _ => rfl }
  | append_singleton ks k ih =>
    rw [acceptances_accepting, run_concat]
    exact ih.after h k

/-- The payloads sent for an open channel, followed by those that are parked, are those of the
writes that were accepted, in the order in which the application made them; those sent for a closed
channel are the first of them.  At any moment of a call what was sent is a prefix of what was
accepted, and nothing was sent for a channel whose handshake is not complete. -/
theorem writes_are_sent_in_order {config : Config} {encoder : Encoder} {c : Connection}
    (h : start config encoder = .ok c) (ks : List Call) :
    (∀ id ch, (c.run ks).channels.get? id = some ch → ch.closed = false →
      (c.run ks).journal.payloads id ++ ch.parked.writes.map Prod.fst = acceptances id c ks) ∧
    (∀ id, (c.run ks).journal.payloads id <+: acceptances id c ks) ∧
    (∀ k, EncoderPath ⟨c.run ks, k⟩ ⟨c.run ks, []⟩ ⟨(c.run ks).after k, []⟩ ∧
      ∀ s, EncoderPath ⟨c.run ks, k⟩ ⟨c.run ks, []⟩ s →
        (∀ id, s.conn.journal.payloads id <+: acceptances id c (ks ++ [k])) ∧
        ∀ id ch, s.conn.channels.get? id = some ch → ch.handshake ≠ .complete →
          s.conn.journal.payloads id = []) := by
  have hqueued := queued_run h ks
  refine ⟨fun id ch hch ho => ?_, hqueued.bounded,
    fun k => ⟨encoderPath_after h ks k, fun s hs => ?_⟩⟩
  · have hflow := hqueued.flows id ch hch ho
    rw [List.filterMap_nil, List.append_nil] at hflow
    exact hflow.symm
  · have hlaw := hs.induction (P := fun s => Queued (fun id => acceptances id c ks) s ∨
        Queued (accepting (fun id => acceptances id c ks) ⟨c.run ks, k⟩) s)
      (fun _ _ hstep hs => Queued.encoderStep (k := ⟨c.run ks, k⟩) hqueued
        ((Regular.of_start h).run ks) hstep hs) (.inl hqueued)
    rcases hlaw with hlaw | hlaw
    · refine ⟨fun id => ?_, hlaw.early⟩
      rw [acceptances_concat]
      exact (hlaw.bounded id).trans (List.prefix_append _ _)
    · refine ⟨fun id => ?_, hlaw.early⟩
      rw [acceptances_concat]
      exact hlaw.bounded id

/-- A client that writes before the server has accepted the conversation, and once after. -/
def hasty : List Call :=
  [.frame (.settings { extendedConnect := some true }), .openStream "/chat" none, .write 1 [1],
    .write 1 [2], .frame (.headers 3 (.ofStatus 200) false), .write 1 [3]]

/-- The parked writes of that client are sent before the last one. -/
theorem parked_writes_are_sent_first :
    ∃ ch, ((fresh {} .willing).run hasty).channels.get? 1 = some ch ∧ ch.closed = false ∧
      ((fresh {} .willing).run hasty).journal.payloads 1 ++ ch.parked.writes.map Prod.fst =
        [[1], [2], [3]] := by
  have hopen : ((fresh {} .willing).run hasty).isOpen 1 = true := by decide
  obtain ⟨ch, hch, ho⟩ := isOpen_iff.mp hopen
  have hall := (writes_are_sent_in_order (rfl : start {} .willing = .ok (fresh {} .willing))
    hasty).1 1 ch hch ho
  exact ⟨ch, hch, ho, hall.trans (by decide)⟩

end Connection

end ChannelMux
