import ChannelMux.Proofs.PromiseSteps

/-!
# Accounts: a promise is held for one write that waits

A write waits for its outcome while it is loose, parked or on its way.  `Stage.waiting` counts the
places at which the write of a ticket waits, and `Balanced` says that this is one place if the
promise of the ticket is held and none otherwise.  Promises are kept together with the removal of
what waits for them, so one lemma about the balance (`once_resolveAll`) serves every step.
-/

namespace ChannelMux

def Channel.parkedCount (t : Ticket) (ch : Channel) : Nat :=
  (ch.parked.writes.map Prod.snd).count t

def Inflight.ticketCount (t : Ticket) (w : Inflight) : Nat := if w.ticket = t then 1 else 0

/-- The number of places at which the write of a ticket waits. -/
def Stage.waiting (s : Stage) (t : Ticket) : Nat :=
  (s.loose.map (·.ticket)).count t + s.conn.channels.total (Channel.parkedCount t) +
    s.conn.inflight.total (Inflight.ticketCount t)

/-- A channel parks writes as long as its handshake is pending, which it is not after closing. -/
structure Channel.Parking (ch : Channel) : Prop where
  closed : ch.closed = true → ch.handshake.isPending = false
  pending : ch.handshake.isPending = true → ch.parked.settled = false
  decided : ch.handshake.isPending = false → ch.parked.writes = []

namespace Channel.Parking

variable {ch ch' : Channel} {t : Ticket}

theorem even (h : ch.Parking) (heven : ch.Even ch') : ch'.Parking where
  closed := by rw [heven.closed, heven.pending]; exact h.closed
  pending := by rw [heven.pending, heven.parked]; exact h.pending
  decided := by rw [heven.pending, heven.parked]; exact h.decided

theorem writes_of_settled (h : ch.Parking) (hs : ch.parked.settled = true) :
    ch.parked.writes = [] := by
  refine h.decided (Bool.eq_false_iff.mpr ?_)
  intro hp
  exact absurd (hs.symm.trans (h.pending hp)) (by decide)

theorem parkedCount_of_decided (h : ch.Parking) (hp : ch.handshake.isPending = false) :
    ch.parkedCount t = 0 := by
  rw [parkedCount, h.decided hp]
  rfl

theorem parkedTickets_eq (h : ch.Parking) : ch.parkedTickets = ch.parked.writes.map Prod.snd := by
  rw [parkedTickets, Parked.giveUp]
  split
  next hs => rw [h.writes_of_settled hs]; rfl
  next => rfl

theorem count_parkedTickets (h : ch.Parking) : ch.parkedTickets.count t = ch.parkedCount t := by
  rw [h.parkedTickets_eq, parkedCount]

theorem take_eq (h : ch.Parking) (hp : ch.handshake.isPending = true) :
    ch.parked.take = (some ch.parked.writes, .done) := by
  rw [Parked.take, h.pending hp]
  rfl

theorem writes_giveUp (h : ch.Parking) : ch.parked.giveUp.2.writes = [] := by
  rw [Parked.giveUp]
  split
  next hs => exact h.writes_of_settled hs
  next => rfl

theorem giveUpParked (h : ch.Parking) : ch.giveUpParked.Parking where
  closed _ := ch.isPending_giveUpParked
  pending hp := absurd (hp.symm.trans ch.isPending_giveUpParked) (by decide)
  decided _ := h.writes_giveUp

theorem shut (h : ch.Parking) (kind : CloseKind) : (ch.shut kind).Parking where
  closed _ := ch.isPending_shut kind
  pending hp := absurd (hp.symm.trans (ch.isPending_shut kind)) (by decide)
  decided _ := h.writes_giveUp

end Channel.Parking

namespace Connection

theorem push?_eq_some {p q : Parked} {payload : Bytes} {ticket : Ticket}
    (h : p.push? payload ticket = some q) :
    q.writes = p.writes ++ [(payload, ticket)] ∧ q.settled = p.settled ∧
      q.bytes = p.bytes + payload.length := by
  rw [Parked.push?] at h
  split at h
  · cases h
  · rw [← Option.some.inj h]
    exact ⟨rfl, rfl, rfl⟩

variable {strict : Prop} {k : Cause} {c c' d : Connection} {id : ChannelId} {ch ch' : Channel}
  {ws : List LooseWrite} {t : Ticket}

/-! ## Counting tickets -/

theorem count_tickets (es : List (Nat × Inflight)) (t : Ticket) :
    (es.map fun e => e.2.ticket).count t = (es.map fun e => e.2.ticketCount t).sum := by
  induction es with
  | nil => rfl
  | cons e es ih =>
    rw [List.map_cons, List.count_cons, ih, List.map_cons, List.sum_cons, Nat.add_comm]
    simp [Inflight.ticketCount]

/-- What is on its way is on its way for one channel or for the others. -/
theorem total_keep_add_count (c : Connection) (id : ChannelId) (t : Ticket) :
    (c.inflight.keep fun w => w.channel ≠ id).total (Inflight.ticketCount t) +
        (c.inflightTickets id).count t = c.inflight.total (Inflight.ticketCount t) := by
  rw [Table.total_keep, inflightTickets, Table.total, Table.total]
  induction c.inflight.entries with
  | nil => rfl
  | cons e es ih =>
    rw [List.map_cons, List.sum_cons, List.map_cons, List.sum_cons, List.filterMap_cons]
    by_cases he : e.2.channel = id
    · simp only [he, ne_eq, not_true_eq_false, decide_false, Bool.false_eq_true, if_false, if_true,
        List.count_cons, Inflight.ticketCount, beq_iff_eq]
      simp only [ne_eq, Inflight.ticketCount] at ih
      omega
    · simp only [he, ne_eq, not_false_eq_true, decide_true, if_true, if_false]
      simp only [ne_eq] at ih
      omega

/-- When promises are kept together with the removal of what waits for them, what was balanced
stays so. -/
theorem once_resolveAll {l : Ledger} {n m : Nat} (ts : List Ticket) (o : Outcome)
    (hn : n = if l.isHeld t then 1 else 0) (hm : m + ts.count t = n) :
    m = if (l.resolveAll ts o).isHeld t then 1 else 0 := by
  rw [Ledger.isHeld_resolveAll]
  by_cases ht : t ∈ ts
  · have hpos := List.count_pos_iff.mpr ht
    have hle : n ≤ 1 := by rw [hn]; split <;> omega
    simp only [ht, not_true_eq_false, decide_false, Bool.and_false, Bool.false_eq_true, if_false]
    omega
  · simp only [ht, not_false_eq_true, decide_true, Bool.and_true]
    rw [List.count_eq_zero.mpr ht] at hm
    exact hm.trans hn

/-! ## The balance -/

structure Balanced (s : Stage) : Prop where
  sound : s.conn.ledger.Sound
  once : ∀ t, s.waiting t = if s.conn.ledger.isHeld t then 1 else 0
  parking : ∀ id ch, s.conn.channels.get? id = some ch → ch.Parking
  owned : ∀ w e, s.conn.inflight.get? w = some e → s.conn.isOpen e.channel = true
  numbered : ∀ w e, s.conn.inflight.get? w = some e → w < s.conn.nextWrite

namespace Balanced

/-- The write of a ticket that is still to come waits nowhere. -/
theorem waiting_next {s : Stage} (h : Balanced s) : s.waiting s.conn.ledger.next = 0 := by
  have hnone := h.sound.unissued s.conn.ledger.next (Nat.le_refl _)
  have hnot : s.conn.ledger.isHeld s.conn.ledger.next = false := by
    rw [Ledger.isHeld, hnone]
    rfl
  rw [h.once, hnot]
  rfl

theorem isHeld_of_inflight {s : Stage} (h : Balanced s) {w : WriteId} {e : Inflight}
    (he : s.conn.inflight.get? w = some e) : s.conn.ledger.isHeld e.ticket = true := by
  have hle := Table.le_total (f := Inflight.ticketCount e.ticket) he
  have honce := h.once e.ticket
  rw [Inflight.ticketCount, if_pos rfl] at hle
  rw [Stage.waiting] at honce
  by_contra hnot
  rw [if_neg hnot] at honce
  omega

theorem get?_nextWrite {s : Stage} (h : Balanced s) :
    s.conn.inflight.get? s.conn.nextWrite = none :=
  Option.eq_none_iff_forall_ne_some.mpr fun _ he => Nat.lt_irrefl _ (h.numbered _ _ he)

theorem aside (h : Balanced ⟨c, ws⟩) (ha : Aside c c') : Balanced ⟨c', ws⟩ where
  sound := h.sound.congr ha.promises ha.issued
  once t := by
    have htotal := ha.channels.total_eq (f := Channel.parkedCount t) fun a b hab => by
      rw [Channel.parkedCount, Channel.parkedCount, hab.parked]
    have honce := h.once t
    rw [Stage.waiting] at honce ⊢
    rw [Ledger.isHeld_congr (ha.promises t)]
    simp only [ha.inflight, htotal]
    exact honce
  parking id ch' hch' := by
    obtain ⟨ch, hch, heven⟩ := ha.channels.back hch'
    exact (h.parking id ch hch).even heven
  owned w e he := by
    obtain ⟨ch, hch, ho⟩ := isOpen_iff.mp (h.owned w e (ha.inflight ▸ he))
    obtain ⟨ch', hch', heven⟩ := ha.channels.forth hch
    exact isOpen_iff.mpr ⟨ch', hch', heven.closed.trans ho⟩
  numbered w e he := Nat.lt_of_lt_of_le (h.numbered w e (ha.inflight ▸ he)) ha.nextWrite

/-! ### Promise steps -/

theorem made (h : Balanced ⟨c, ws⟩) (hnone : c.channels.get? c.nextChannel = none)
    (ho : ch.closed = false) (hparked : ch.parked = {}) :
    Balanced ⟨{ c with
      channels := c.channels.insert c.nextChannel ch
      nextChannel := c.nextChannel + 1 }, ws⟩ where
  sound := h.sound
  once t := by
    have htotal := Table.total_insert (Channel.parkedCount t) c.channels c.nextChannel ch
    have hcount : ch.parkedCount t = 0 := by rw [Channel.parkedCount, hparked]; rfl
    rw [Table.share_of_none _ hnone, hcount] at htotal
    have honce := h.once t
    rw [Stage.waiting] at honce ⊢
    simp only at honce ⊢
    omega
  parking j e hj := by
    rcases Table.get?_insert_cases hj with ⟨-, rfl⟩ | hj
    · refine ⟨?_, fun _ => by rw [hparked], fun _ => by rw [hparked]⟩
      intro hc
      exact absurd (ho.symm.trans hc) (by decide)
    · exact h.parking j e hj
  owned w e he := by
    obtain ⟨ch', hch', ho'⟩ := isOpen_iff.mp (h.owned w e he)
    refine isOpen_iff.mpr ⟨ch', ?_, ho'⟩
    rw [Table.get?_insert, if_neg fun heq => ?_, hch']
    rw [heq, hnone] at hch'
    cases hch'
  numbered := h.numbered

/-- A channel without parked writes takes the place of one whose writes are failed. -/
theorem once_insert (h : Balanced ⟨c, ws⟩) (hch : c.channels.get? id = some ch)
    (ch' : Channel) (hempty : ch'.parked.writes = []) (o : Outcome) (t : Ticket) :
    (Stage.mk { c with channels := c.channels.insert id ch' } ws).waiting t =
      if (c.ledger.resolveAll ch.parkedTickets o).isHeld t then 1 else 0 := by
  have htotal := Table.total_insert (Channel.parkedCount t) c.channels id ch'
  have hcount : ch'.parkedCount t = 0 := by rw [Channel.parkedCount, hempty]; rfl
  rw [Table.share_of_some _ hch, hcount] at htotal
  apply once_resolveAll _ o (h.once t)
  rw [(h.parking id ch hch).count_parkedTickets, Stage.waiting, Stage.waiting]
  simp only
  omega

theorem parking_insert (h : Balanced ⟨c, ws⟩) (hp : ch'.Parking) (j : ChannelId) (e : Channel)
    (hj : (c.channels.insert id ch').get? j = some e) : e.Parking := by
  rcases Table.get?_insert_cases hj with ⟨-, rfl⟩ | hj
  · exact hp
  · exact h.parking j e hj

theorem gaveUp (h : Balanced ⟨c, ws⟩) (id : ChannelId) (cause : Fault) :
    Balanced ⟨c.failParked id cause, ws⟩ := by
  cases hch : c.channels.get? id with
  | none => rw [failParked, hch]; exact h
  | some ch =>
    have hp := h.parking id ch hch
    rw [failParked_eq hch]
    exact
      { sound := h.sound.resolveAll _ _
        once := h.once_insert hch _ hp.writes_giveUp _
        parking := h.parking_insert hp.giveUpParked
        owned := fun w e he => (isOpen_insert hch (by rfl) e.channel).trans (h.owned w e he)
        numbered := h.numbered }

theorem close (h : Balanced ⟨c, ws⟩) (id : ChannelId) (kind : CloseKind) :
    Balanced ⟨c.close id kind, ws⟩ := by
  rcases close_cases c id kind with ⟨-, heq⟩ | ⟨ch, hch, ho⟩
  · rw [heq]; exact h
  · have hp := h.parking id ch hch
    obtain ⟨_, _, _, _, heq, hnext, -⟩ := close_eq hch ho kind
    rw [heq]
    refine
      { sound := (h.sound.resolveAll _ _).resolveAll _ _
        once := ?_
        parking := h.parking_insert (hp.shut kind)
        owned := ?_
        numbered := ?_ }
    · intro t
      refine once_resolveAll _ _ (h.once_insert hch (ch.shut kind) hp.writes_giveUp
        (.failed .channelClosed) t) ?_
      have hkeep := total_keep_add_count c id t
      rw [Stage.waiting, Stage.waiting]
      simp only
      omega
    · intro w e he
      rw [Table.get?_keep, Option.filter_eq_some_iff] at he
      have hne : e.channel ≠ id := of_decide_eq_true he.2
      have hopen := h.owned w e he.1
      rw [isOpen] at hopen ⊢
      rw [Table.get?_insert_of_ne hne]
      exact hopen
    · intro w e he
      rw [Table.get?_keep, Option.filter_eq_some_iff] at he
      exact Nat.lt_of_lt_of_le (h.numbered w e he.1) hnext

theorem tornDown (h : Balanced ⟨c, ws⟩)
    (hclosed : ∀ ch, c.channels.get? id = some ch → ch.closed = true) :
    Balanced ⟨{ c with channels := c.channels.erase id }, ws⟩ where
  sound := h.sound
  once t := by
    have htotal := Table.total_erase (Channel.parkedCount t) c.channels id
    have hshare : c.channels.share (Channel.parkedCount t) id = 0 := by
      cases hch : c.channels.get? id with
      | none => exact Table.share_of_none _ hch
      | some ch =>
        have hp := h.parking id ch hch
        rw [Table.share_of_some _ hch]
        exact hp.parkedCount_of_decided (hp.closed (hclosed ch hch))
    have honce := h.once t
    rw [Stage.waiting] at honce ⊢
    simp only at honce ⊢
    omega
  parking j e hj := by
    exact h.parking j e (Table.get?_of_erase hj)
  owned w e he := by
    obtain ⟨ch, hch, ho⟩ := isOpen_iff.mp (h.owned w e he)
    refine isOpen_iff.mpr ⟨ch, ?_, ho⟩
    rw [Table.get?_erase, if_neg fun heq => ?_, hch]
    exact absurd (ho.symm.trans (hclosed ch (heq ▸ hch))) (by decide)
  numbered := h.numbered

theorem issued (h : Balanced ⟨c, ws⟩) (o : Outcome) : Balanced ⟨(c.issue (.kept o)).2, ws⟩ where
  sound := h.sound.issue (.inr ⟨o, rfl⟩)
  once t := by
    change (Stage.mk c ws).waiting t = if (c.ledger.issue (.kept o)).2.isHeld t then 1 else 0
    rw [Ledger.isHeld, Ledger.promise?_issue]
    split
    next ht => rw [ht]; exact h.waiting_next
    next => exact h.once t
  parking := h.parking
  owned := h.owned
  numbered := h.numbered

/-- A write leaves what is on its way, and its promise is kept. -/
theorem reported (h : Balanced ⟨c, ws⟩) {write : WriteId} {w : Inflight}
    (hw : c.inflight.get? write = some w) (o : Outcome) :
    Balanced ⟨{ c with
      inflight := c.inflight.erase write
      ledger := c.ledger.resolve w.ticket o }, ws⟩ where
  sound := h.sound.resolve _ _
  once t := by
    have htotal := Table.total_erase (Inflight.ticketCount t) c.inflight write
    rw [Table.share_of_some _ hw, Inflight.ticketCount] at htotal
    apply once_resolveAll [w.ticket] o (h.once t)
    rw [Stage.waiting, Stage.waiting, List.count_singleton]
    simp only [beq_iff_eq]
    omega
  parking := h.parking
  owned v e he := by
    exact h.owned v e (Table.get?_of_erase he)
  numbered v e he := by
    exact h.numbered v e (Table.get?_of_erase he)

theorem lost (h : Balanced ⟨c, ws⟩) : Balanced ⟨c.loseInflight, ws⟩ where
  sound := h.sound.resolveAll _ _
  once t := by
    apply once_resolveAll (c.inflight.entries.map fun e => e.2.ticket) _ (h.once t)
    rw [count_tickets]
    exact Nat.add_right_comm _ _ _
  parking := h.parking
  owned _ _ he := nomatch he
  numbered _ _ he := nomatch he

theorem promiseStep (h : Balanced ⟨c, ws⟩) (hd : PromiseStep k c c') : Balanced ⟨c', ws⟩ := by
  cases hd with
  | aside ha => exact h.aside ha
  | made ch hnone ho hparked => exact h.made hnone ho hparked
  | gaveUp id cause => exact h.gaveUp id cause
  | closed id kind => exact h.close id kind
  | tornDown id hclosed => exact h.tornDown hclosed
  | issued o => exact h.issued o
  | reported fault _ hw => exact h.reported hw _
  | lost _ => exact h.lost

/-! ### Call steps -/

variable {w : LooseWrite}

theorem waiting_cons (c : Connection) (w : LooseWrite) (ws : List LooseWrite) (t : Ticket) :
    (Stage.mk c (w :: ws)).waiting t =
      (Stage.mk c ws).waiting t + if w.ticket = t then 1 else 0 := by
  rw [Stage.waiting, Stage.waiting]
  simp only [List.map_cons, List.count_cons, beq_iff_eq]
  omega

/-- A promise is made for a write that is taken up. -/
theorem takenUp (h : Balanced ⟨c, ws⟩) (id : ChannelId) (payload : Bytes) :
    Balanced ⟨(c.issue .held).2, ⟨id, payload, c.ledger.next⟩ :: ws⟩ where
  sound := h.sound.issue (.inl rfl)
  once t := by
    rw [waiting_cons]
    change (Stage.mk c ws).waiting t + (if c.ledger.next = t then 1 else 0) =
      if (c.ledger.issue .held).2.isHeld t then 1 else 0
    rw [Ledger.isHeld, Ledger.promise?_issue]
    by_cases ht : t = c.ledger.next
    · have hnext : (Stage.mk c ws).waiting c.ledger.next = 0 := h.waiting_next
      rw [if_pos ht.symm, if_pos ht, ht, hnext]
      rfl
    · rw [if_neg (Ne.symm ht), if_neg ht]
      exact h.once t
  parking := h.parking
  owned := h.owned
  numbered := h.numbered

theorem parked (h : Balanced ⟨c, w :: ws⟩) (hch : c.channels.get? w.channel = some ch)
    (hp : ch.handshake.isPending = true) {parked : Parked}
    (hpush : ch.parked.push? w.payload w.ticket = some parked) :
    Balanced ⟨c.updateChannel w.channel fun ch => { ch with parked := parked }, ws⟩ := by
  have hparking := h.parking _ _ hch
  obtain ⟨hwrites, hsettled, -⟩ := push?_eq_some hpush
  rw [updateChannel_eq hch]
  refine
    { sound := h.sound
      once := ?_
      parking := h.parking_insert ⟨hparking.closed, ?_, ?_⟩
      owned := fun v e he => (isOpen_insert hch (by rfl) e.channel).trans (h.owned v e he)
      numbered := h.numbered }
  · intro t
    have honce := h.once t
    rw [waiting_cons] at honce
    refine Eq.trans ?_ honce
    have htotal := Table.total_insert (Channel.parkedCount t) c.channels w.channel
      { ch with parked := parked }
    rw [Table.share_of_some _ hch, Channel.parkedCount, Channel.parkedCount, hwrites] at htotal
    simp only [List.map_append, List.count_append, List.map_cons, List.map_nil,
      List.count_singleton, beq_iff_eq] at htotal
    rw [Stage.waiting, Stage.waiting]
    simp only
    omega
  · intro _
    exact hsettled.trans (hparking.pending hp)
  · intro hnot
    exact absurd (hp.symm.trans hnot) (by decide)

theorem unparked (h : Balanced ⟨c, []⟩) (hch : c.channels.get? id = some ch)
    (hs : ch.handshake = .requestSent) (subprotocol : Option String)
    (compression : Option Deflate.Terms) :
    Balanced ⟨c.markComplete id subprotocol compression,
      (ch.parked.take.1.getD []).map fun w => ⟨id, w.1, w.2⟩⟩ := by
  have hparking := h.parking _ _ hch
  have htake := hparking.take_eq (by rw [hs]; rfl)
  rw [markComplete, Table.modify_eq_insert hch, htake]
  refine
    { sound := h.sound
      once := ?_
      parking := h.parking_insert
        ⟨fun _ => rfl, fun hp => absurd hp Bool.false_ne_true, fun _ => rfl⟩
      owned := fun v e he => (isOpen_insert hch (by rfl) e.channel).trans (h.owned v e he)
      numbered := h.numbered }
  intro t
  refine Eq.trans ?_ (h.once t)
  have htotal := Table.total_insert (Channel.parkedCount t) c.channels id { ch with
    handshake := .complete
    subprotocol := subprotocol
    compression := compression
    parked := .done }
  have hloose : (ch.parked.writes.map fun w => w.2).count t = ch.parkedCount t := rfl
  have hdone : ({ ch with
      handshake := .complete
      subprotocol := subprotocol
      compression := compression
      parked := .done } : Channel).parkedCount t = 0 := rfl
  rw [Table.share_of_some _ hch, hdone] at htotal
  rw [Stage.waiting, Stage.waiting]
  simp only [Option.getD_some, List.map_map, Function.comp_def, List.map_nil, List.count_nil]
  omega

/-- A loose write is put among those on their way. -/
theorem entered (h : Balanced ⟨c, w :: ws⟩) (ho : c.isOpen w.channel = true) :
    Balanced ⟨c.enterWrite w.channel w.payload w.ticket, ws⟩ where
  sound := h.sound
  once t := by
    have honce := h.once t
    rw [waiting_cons] at honce
    refine Eq.trans ?_ honce
    have htotal := Table.total_insert (Inflight.ticketCount t) c.inflight c.nextWrite
      ⟨w.channel, w.payload.length, w.ticket⟩
    rw [Table.share_of_none _ h.get?_nextWrite, Inflight.ticketCount] at htotal
    rw [Stage.waiting, Stage.waiting, enterWrite]
    simp only at htotal ⊢
    omega
  parking := h.parking
  owned v e he := by
    rw [enterWrite] at he
    rcases Table.get?_insert_cases he with ⟨-, rfl⟩ | he
    · exact ho
    · exact h.owned v e he
  numbered v e he := by
    rw [enterWrite] at he
    rcases Table.get?_insert_cases he with ⟨hv, rfl⟩ | he
    · rw [hv]
      exact Nat.lt_succ_self _
    · exact Nat.lt_succ_of_lt (h.numbered v e he)

theorem dropped (h : Balanced ⟨c, w :: ws⟩) (o : Outcome) :
    Balanced ⟨c.resolve w.ticket o, ws⟩ where
  sound := h.sound.resolve _ _
  once t := by
    apply once_resolveAll [w.ticket] o (h.once t)
    rw [waiting_cons, List.count_singleton]
    simp only [beq_iff_eq]
    rfl
  parking := h.parking
  owned := h.owned
  numbered := h.numbered

theorem promisePath (h : Balanced ⟨c, ws⟩) (hd : PromisePath k c c') : Balanced ⟨c', ws⟩ :=
  hd.induction (P := fun d => Balanced ⟨d, ws⟩) (fun _ _ hd hb => hb.promiseStep hd) h

/-- A refused write has been entered and its fate told. -/
theorem refused (h : Balanced ⟨c, w :: ws⟩) (ho : c.isOpen w.channel = true) {stream : StreamId}
    {f : WriteFault}
    (hsub : (c.enterWrite w.channel w.payload w.ticket).submit (some w.channel)
      (.data c.nextWrite stream w.payload false) = (some f, c')) :
    Balanced
      ⟨c'.settleWrite c.nextWrite ⟨w.channel, w.payload.length, w.ticket⟩ (some f), ws⟩ := by
  have hsent := (h.entered ho).aside (.of_submit hsub)
  have hw : c'.inflight.get? c.nextWrite = some ⟨w.channel, w.payload.length, w.ticket⟩ := by
    rw [← (Prod.mk.inj hsub).2]
    exact Table.get?_insert_self ..
  exact (hsent.reported hw _).aside (aside_settleWrite c' _ _ (some f))

theorem callStep {s s' : Stage} (h : Balanced s) (ht : s.conn.Tidy) (hm : CallStep strict k s s') :
    Balanced s' := by
  cases hm with
  | change ws hchange => exact h.promisePath (promisePath_change ht hchange)
  | @takenUp c id ch payload _ _ hch _ _ =>
    exact (h.takenUp id payload).aside (.countBytes (c := (c.issue .held).2) hch _)
  | parked hch _ hp hpush => exact h.parked hch hp hpush
  | unparked subprotocol compression hch hs => exact h.unparked hch hs subprotocol compression
  | sent hch ho _ _ hsub =>
    have hentered := h.entered (isOpen_iff.mpr ⟨_, hch, ho⟩)
    exact (hentered.aside (.of_submit hsub)).aside (.update _ _ fun _ _ => ⟨rfl, rfl, rfl⟩)
  | bounced hch ho _ _ hsub =>
    have hrefused := h.refused (isOpen_iff.mpr ⟨_, hch, ho⟩) hsub
    exact hrefused.promisePath (k := k) (promisePath_writeFailed ..)
  | dropped _ => exact h.dropped _

end Balanced

theorem tidy_callStep {s s' : Stage} (ht : s.conn.Tidy) (hm : CallStep strict k s s') :
    s'.conn.Tidy :=
  ht.registryPath (registryPath_callStep hm)

theorem balanced_callPath {s s' : Stage} (h : CallPath strict k s s') (ht : s.conn.Tidy)
    (hb : Balanced s) : s'.conn.Tidy ∧ Balanced s' :=
  CallPath.induction (P := fun u => u.conn.Tidy ∧ Balanced u)
    (fun _ _ hm hu => ⟨tidy_callStep hu.1 hm, hu.2.callStep hu.1 hm⟩) h ⟨ht, hb⟩

theorem balanced_start {config : Config} {encoder : Encoder} (h : start config encoder = .ok c) :
    Balanced ⟨c, []⟩ := by
  rw [(start_eq h).1]
  exact
    { sound := ⟨fun _ _ => rfl, fun _ ht => absurd ht (Nat.not_lt_zero _)⟩
      once := fun _ => rfl
      parking := fun _ _ hch => nomatch hch
      owned := fun _ _ he => nomatch he
      numbered := fun _ _ he => nomatch he }

/-- What holds of a connection between two calls of a run. -/
structure Regular (c : Connection) : Prop where
  tidy : c.Tidy
  balanced : Balanced ⟨c, []⟩

namespace Regular

theorem of_start {config : Config} {encoder : Encoder} (h : start config encoder = .ok c) :
    c.Regular := ⟨tidy_start h, balanced_start h⟩

theorem after (hc : c.Regular) (k : Call) : (c.after k).Regular :=
  have hall := balanced_callPath (callPath_after c k (False.elim : False → _)) hc.tidy hc.balanced
  ⟨hall.1, hall.2⟩

theorem run (hc : c.Regular) (ks : List Call) : (c.run ks).Regular := by
  induction ks generalizing c with
  | nil => exact hc
  | cons k ks ih => exact ih (hc.after k)

end Regular

end Connection

end ChannelMux
