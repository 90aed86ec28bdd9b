import ChannelMux.Proofs.Accounts

/-!
# Fates: how a write ends

The application sees of a write the promise behind its ticket.  What it may rely on follows from
three things: the balance of places and promises (`Balanced`), that a write stays with its channel
(`Belongs`), and that what has ended has ended (`Onward`).
-/

namespace ChannelMux

/-! ## Places -/

/-- Where a write waits for its outcome. -/
inductive Place where
  | parked (channel : ChannelId)
  | onItsWay (write : WriteId) (channel : ChannelId)
deriving DecidableEq, Repr

def Place.channel : Place → ChannelId
  | parked id | onItsWay _ id => id

namespace Connection

variable {strict : Prop} {k : Cause} {c c' d : Connection} {id : ChannelId} {ch ch' : Channel}
  {ws : List LooseWrite} {t : Ticket}

/-- The places at which the write of a ticket waits: with the parked writes of an open channel whose
handshake is pending, and among the writes that are on their way for an open channel. -/
def places (c : Connection) (t : Ticket) : List Place :=
  (c.channels.entries.flatMap fun e =>
    if e.2.closed = false ∧ e.2.handshake.isPending = true then
      (e.2.parked.writes.filter fun w => w.2 = t).map fun _ => .parked e.1
    else []) ++
  c.inflight.entries.filterMap fun e =>
    if e.2.ticket = t ∧ c.isOpen e.2.channel = true then some (.onItsWay e.1 e.2.channel) else none

theorem length_filter_ticket (writes : List (Bytes × Ticket)) (t : Ticket) :
    (writes.filter fun w => w.2 = t).length = (writes.map Prod.snd).count t := by
  induction writes with
  | nil => rfl
  | cons w writes ih =>
    rw [List.map_cons, List.count_cons, ← ih, List.filter_cons]
    by_cases hw : w.2 = t <;> simp [hw]

theorem length_places (h : Balanced ⟨c, []⟩) (t : Ticket) :
    (c.places t).length = if c.ledger.isHeld t then 1 else 0 := by
  have hparked : ∀ e ∈ c.channels.entries,
      (if e.2.closed = false ∧ e.2.handshake.isPending = true then
        (e.2.parked.writes.filter fun w => w.2 = t).map fun _ => Place.parked e.1
      else []).length = e.2.parkedCount t := by
    intro e he
    have hp := h.parking e.1 e.2 ((Table.mem_entries_iff ..).mp he)
    split
    next => rw [List.length_map, length_filter_ticket, Channel.parkedCount]
    next hnot =>
      refine (hp.parkedCount_of_decided (Bool.eq_false_iff.mpr fun hpend => hnot ⟨?_, hpend⟩)).symm
      apply Bool.eq_false_iff.mpr
      intro hc
      exact absurd (hpend.symm.trans (hp.closed hc)) (by decide)
  have hinflight : ∀ es : List (WriteId × Inflight),
      (∀ e ∈ es, c.isOpen e.2.channel = true) →
      (es.filterMap fun e => if e.2.ticket = t ∧ c.isOpen e.2.channel = true then
        some (Place.onItsWay e.1 e.2.channel) else none).length =
          (es.map fun e => e.2.ticketCount t).sum := by
    intro es hes
    induction es with
    | nil => rfl
    | cons e es ih =>
      have ho := hes e List.mem_cons_self
      rw [List.filterMap_cons, List.map_cons, List.sum_cons, Inflight.ticketCount,
        ← ih fun d hd => hes d (List.mem_cons_of_mem _ hd)]
      by_cases ht : e.2.ticket = t
      · simp only [ht, ho, and_self, if_true, List.length_cons]
        omega
      · simp [ht]
  refine Eq.trans ?_ (h.once t)
  rw [places, List.length_append, List.length_flatMap, List.map_congr_left hparked,
    hinflight _ fun e he => h.owned e.1 e.2 ((Table.mem_entries_iff ..).mp he), Stage.waiting]
  simp only [List.map_nil, List.count_nil, Nat.zero_add]
  rfl

theorem isOpen_of_mem_places {p : Place} (h : p ∈ c.places t) : c.isOpen p.channel = true := by
  rcases List.mem_append.mp h with h | h
  · obtain ⟨e, he, hp⟩ := List.mem_flatMap.mp h
    split at hp
    next hopen =>
      obtain ⟨_, _, rfl⟩ := List.mem_map.mp hp
      exact isOpen_iff.mpr ⟨e.2, (Table.mem_entries_iff ..).mp he, hopen.1⟩
    next => exact absurd hp List.not_mem_nil
  · obtain ⟨e, _, hp⟩ := List.mem_filterMap.mp h
    split at hp
    next hopen => rw [← Option.some.inj hp]; exact hopen.2
    next => cases hp

/-! ## A write stays with its channel -/

/-- The write of a ticket waits with the given channel, if it waits at all. -/
structure Belongs (t : Ticket) (id : ChannelId) (s : Stage) : Prop where
  loose : ∀ w ∈ s.loose, w.ticket = t → w.channel = id
  parked : ∀ j ch, s.conn.channels.get? j = some ch → t ∈ ch.parked.writes.map Prod.snd → j = id
  inflight : ∀ w e, s.conn.inflight.get? w = some e → e.ticket = t → e.channel = id

namespace Belongs

theorem channel_eq {p : Place} (h : Belongs t id ⟨c, ws⟩) (hp : p ∈ c.places t) :
    p.channel = id := by
  rcases List.mem_append.mp hp with hp | hp
  · obtain ⟨e, he, hp⟩ := List.mem_flatMap.mp hp
    split at hp
    next =>
      obtain ⟨w, hw, rfl⟩ := List.mem_map.mp hp
      obtain ⟨hw, ht⟩ := List.mem_filter.mp hw
      refine h.parked e.1 e.2 ((Table.mem_entries_iff ..).mp he) (List.mem_map.mpr ⟨w, hw, ?_⟩)
      exact of_decide_eq_true ht
    next => exact absurd hp List.not_mem_nil
  · obtain ⟨e, he, hp⟩ := List.mem_filterMap.mp hp
    split at hp
    next hopen =>
      rw [← Option.some.inj hp]
      exact h.inflight e.1 e.2 ((Table.mem_entries_iff ..).mp he) hopen.1
    next => cases hp

theorem writes_giveUp (p : Parked) : p.giveUp.2.writes = [] ∨ p.giveUp.2.writes = p.writes := by
  rw [Parked.giveUp]
  split
  · exact .inr rfl
  · exact .inl rfl

/-- No write has come to wait anywhere. -/
theorem of_back (h : Belongs t id ⟨c, ws⟩)
    (hparked : ∀ j ch', c'.channels.get? j = some ch' → ch'.parked.writes = [] ∨
      ∃ ch, c.channels.get? j = some ch ∧ ch'.parked.writes = ch.parked.writes)
    (hinflight : ∀ w e, c'.inflight.get? w = some e → c.inflight.get? w = some e) :
    Belongs t id ⟨c', ws⟩ where
  loose := h.loose
  parked j ch' hj ht := by
    rcases hparked j ch' hj with hnil | ⟨ch, hch, heq⟩
    · rw [hnil] at ht
      exact absurd ht List.not_mem_nil
    · exact h.parked j ch hch (heq ▸ ht)
  inflight w e he := h.inflight w e (hinflight w e he)

theorem parked_insert {j : ChannelId} (hch : c.channels.get? j = some ch)
    (hwrites : ch'.parked.writes = [] ∨ ch'.parked.writes = ch.parked.writes) (i : ChannelId)
    (e : Channel) (he : (c.channels.insert j ch').get? i = some e) :
    e.parked.writes = [] ∨ ∃ ch, c.channels.get? i = some ch ∧
      e.parked.writes = ch.parked.writes := by
  rcases Table.get?_insert_cases he with ⟨hij, rfl⟩ | he
  · exact hwrites.imp_right fun heq => ⟨ch, hij ▸ hch, heq⟩
  · exact .inr ⟨e, he, rfl⟩

theorem aside (h : Belongs t id ⟨c, ws⟩) (ha : Aside c c') : Belongs t id ⟨c', ws⟩ := by
  refine h.of_back (fun j ch' hj => .inr ?_) fun w e he => ha.inflight ▸ he
  obtain ⟨ch, hch, heven⟩ := ha.channels.back hj
  exact ⟨ch, hch, congrArg Parked.writes heven.parked⟩

theorem close (h : Belongs t id ⟨c, ws⟩) (j : ChannelId) (kind : CloseKind) :
    Belongs t id ⟨c.close j kind, ws⟩ := by
  rcases close_cases c j kind with ⟨-, heq⟩ | ⟨ch, hch, ho⟩
  · rw [heq]; exact h
  · obtain ⟨_, _, _, _, heq, -⟩ := close_eq hch ho kind
    rw [heq]
    apply h.of_back (parked_insert hch (writes_giveUp ch.parked))
    intro w e he
    rw [Table.get?_keep, Option.filter_eq_some_iff] at he
    exact he.1

theorem promiseStep (h : Belongs t id ⟨c, ws⟩) (hd : PromiseStep k c c') :
    Belongs t id ⟨c', ws⟩ := by
  cases hd with
  | aside ha => exact h.aside ha
  | made ch _ _ hparked =>
    refine h.of_back ?_ fun _ _ he => he
    intro j e hj
    rcases Table.get?_insert_cases hj with ⟨-, rfl⟩ | hj
    · exact .inl (by rw [hparked])
    · exact .inr ⟨e, hj, rfl⟩
  | gaveUp j cause =>
    cases hch : c.channels.get? j with
    | none => rw [failParked, hch]; exact h
    | some ch =>
      rw [failParked_eq hch]
      exact h.of_back (parked_insert hch (writes_giveUp ch.parked)) fun _ _ he => he
  | closed j kind => exact h.close j kind
  | tornDown j _ =>
    refine h.of_back ?_ fun _ _ he => he
    intro i e he
    exact .inr ⟨e, Table.get?_of_erase he, rfl⟩
  | issued o => exact ⟨h.loose, h.parked, h.inflight⟩
  | reported fault _ _ =>
    refine h.of_back (fun _ e he => .inr ⟨e, he, rfl⟩) ?_
    intro _ _ he
    exact Table.get?_of_erase he
  | lost _ => exact ⟨h.loose, h.parked, fun _ _ he => (Option.some_ne_none _ he.symm).elim⟩

theorem promisePath (h : Belongs t id ⟨c, ws⟩) (hd : PromisePath k c c') : Belongs t id ⟨c', ws⟩ :=
  hd.induction (P := fun d => Belongs t id ⟨d, ws⟩) (fun _ _ hd hb => hb.promiseStep hd) h

theorem entered {w : LooseWrite} (h : Belongs t id ⟨c, w :: ws⟩) :
    Belongs t id ⟨c.enterWrite w.channel w.payload w.ticket, ws⟩ where
  loose v hv := h.loose v (List.mem_cons_of_mem _ hv)
  parked := h.parked
  inflight v e he ht := by
    rw [enterWrite] at he
    rcases Table.get?_insert_cases he with ⟨-, rfl⟩ | he
    · exact h.loose w List.mem_cons_self ht
    · exact h.inflight v e he ht

/-- Other writes than that of the ticket may be taken up, and it only by its channel. -/
theorem callStep {s s' : Stage} (h : Belongs t id s) (ht : s.conn.Tidy)
    (hnew : ∀ j payload, k.call = .write j payload ∨ k.call = .writeAndFlush j payload →
      j = id ∨ t < s.conn.ledger.next) (hm : CallStep strict k s s') : Belongs t id s' := by
  cases hm with
  | change ws hchange => exact h.promisePath (promisePath_change ht hchange)
  | @takenUp c j ch payload hk _ hch _ _ =>
    have hissued : Belongs t id ⟨(c.issue .held).2, [⟨j, payload, c.ledger.next⟩]⟩ := by
      refine ⟨?_, h.parked, h.inflight⟩
      intro w hw hwt
      rw [List.mem_singleton.mp hw] at hwt ⊢
      exact (hnew j payload hk).resolve_right fun hlt => Nat.ne_of_gt hlt hwt
    exact hissued.aside (.countBytes (c := (c.issue .held).2) hch _)
  | @parked c w ws ch p hch _ _ hpush =>
    rw [updateChannel_eq hch]
    refine ⟨fun v hv => h.loose v (List.mem_cons_of_mem _ hv), ?_, h.inflight⟩
    intro j e hj hmem
    rcases Table.get?_insert_cases hj with ⟨hjw, rfl⟩ | hj
    · rw [show ({ ch with parked := p } : Channel).parked.writes = _ from (push?_eq_some hpush).1,
        List.map_append, List.mem_append] at hmem
      rcases hmem with hmem | hmem
      · exact h.parked j ch (hjw ▸ hch) hmem
      · exact hjw.trans (h.loose w List.mem_cons_self (List.mem_singleton.mp hmem).symm)
    · exact h.parked j e hj hmem
  | @unparked c j ch subprotocol compression hch _ =>
    have htake : ∀ w ∈ ch.parked.take.1.getD [], w ∈ ch.parked.writes := by
      intro w hw
      rw [Parked.take] at hw
      split at hw
      · exact absurd hw List.not_mem_nil
      · exact hw
    have hparked : ch.parked.take.2.writes = [] ∨ ch.parked.take.2.writes = ch.parked.writes := by
      rw [Parked.take]
      split
      · exact .inr rfl
      · exact .inl rfl
    rw [markComplete, Table.modify_eq_insert hch]
    have hrest : Belongs t id ⟨{ c with
        channels := c.channels.insert j { ch with
          handshake := .complete
          subprotocol := subprotocol
          compression := compression
          parked := ch.parked.take.2 }
        timers := c.timers.cancel (.handshakeTimeout j) }, []⟩ :=
      h.of_back (parked_insert hch hparked) fun _ _ he => he
    refine ⟨?_, hrest.parked, hrest.inflight⟩
    intro v hv hvt
    obtain ⟨w, hw, rfl⟩ := List.mem_map.mp hv
    exact h.parked j ch hch (List.mem_map.mpr ⟨w, htake w hw, hvt⟩)
  | sent _ _ _ _ hsub =>
    exact (h.entered.aside (.of_submit hsub)).aside (.update _ _ fun _ _ => ⟨rfl, rfl, rfl⟩)
  | @bounced c c' w ws _ _ f _ _ _ _ hsub =>
    have hsent := h.entered.aside (.of_submit hsub)
    have herased : Belongs t id ⟨{ c' with
        inflight := c'.inflight.erase c.nextWrite
        ledger := c'.ledger.resolve w.ticket (.ofReport (some f)) }, ws⟩ := by
      refine hsent.of_back (fun _ e he => .inr ⟨e, he, rfl⟩) ?_
      intro _ _ he
      exact Table.get?_of_erase he
    have hsettled := herased.aside
      (aside_settleWrite c' c.nextWrite ⟨w.channel, w.payload.length, w.ticket⟩ (some f))
    exact hsettled.promisePath (k := k) (promisePath_writeFailed ..)
  | dropped _ => exact ⟨fun v hv => h.loose v (List.mem_cons_of_mem _ hv), h.parked, h.inflight⟩

end Belongs

/-! ## What has ended has ended -/

/-- Kept promises stay kept, writes that have ended do not go on their way again, and closed
channels do not open again. -/
structure Onward (c c' : Connection) : Prop where
  keeps : c.ledger.Keeps c'.ledger
  nextWrite : c.nextWrite ≤ c'.nextWrite
  nextChannel : c.nextChannel ≤ c'.nextChannel
  inflight : ∀ w e, w < c.nextWrite → c'.inflight.get? w = some e → c.inflight.get? w = some e
  opened : ∀ id, id < c.nextChannel → c'.isOpen id = true → c.isOpen id = true

namespace Onward

theorem refl (c : Connection) : Onward c c :=
  ⟨.refl _, Nat.le_refl _, Nat.le_refl _, fun _ _ _ he => he, fun _ _ ho => ho⟩

theorem trans (h : Onward c c') (h' : Onward c' d) : Onward c d where
  keeps := h.keeps.trans h'.keeps
  nextWrite := Nat.le_trans h.nextWrite h'.nextWrite
  nextChannel := Nat.le_trans h.nextChannel h'.nextChannel
  inflight w e hw he :=
    h.inflight w e hw (h'.inflight w e (Nat.lt_of_lt_of_le hw h.nextWrite) he)
  opened id hid ho :=
    h.opened id hid (h'.opened id (Nat.lt_of_lt_of_le hid h.nextChannel) ho)

theorem aside (ha : Aside c c') : Onward c c' where
  keeps := ⟨Nat.le_of_eq ha.issued.symm, fun t _ ht => (ha.promises t).trans ht⟩
  nextWrite := ha.nextWrite
  nextChannel := ha.nextChannel
  inflight _ _ _ he := ha.inflight ▸ he
  opened id _ ho := by
    obtain ⟨ch', hch', ho'⟩ := isOpen_iff.mp ho
    obtain ⟨ch, hch, heven⟩ := ha.channels.back hch'
    exact isOpen_iff.mpr ⟨ch, hch, heven.closed.symm.trans ho'⟩

theorem close (c : Connection) (id : ChannelId) (kind : CloseKind) :
    Onward c (c.close id kind) := by
  rcases close_cases c id kind with ⟨-, heq⟩ | ⟨ch, hch, ho⟩
  · rw [heq]; exact refl c
  · have hopened : ∀ j, (c.close id kind).isOpen j = true → c.isOpen j = true := by
      intro j hj
      obtain ⟨e, he, hopen⟩ := isOpen_iff.mp hj
      exact isOpen_iff.mpr ⟨e, get?_of_open_close he hopen, hopen⟩
    obtain ⟨_, _, _, _, heq, hnext, -⟩ := close_eq hch ho kind
    rw [heq] at hopened ⊢
    refine
      { keeps := (Ledger.keeps_resolveAll ..).trans (Ledger.keeps_resolveAll ..)
        nextWrite := hnext
        nextChannel := Nat.le_refl _
        inflight := ?_
        opened := fun j _ => hopened j }
    intro w e _ he
    rw [Table.get?_keep, Option.filter_eq_some_iff] at he
    exact he.1

theorem writeFailed (c : Connection) (id : ChannelId) : Onward c (c.writeFailed id) := by
  rw [Connection.writeFailed]
  split
  · exact refl c
  next ch hch =>
    split
    · exact refl c
    · split
      · exact close c id .reset
      · have hended : Onward c
            { c with channels := c.channels.insert id { ch with outboundClosed := true } } :=
          aside (.insert hch ⟨rfl, rfl, rfl⟩)
        dsimp only
        split
        · exact hended.trans (close _ id .remote)
        · exact hended

/-- The promise of a write is kept. -/
theorem resolve (c : Connection) (t : Ticket) (o : Outcome) : Onward c (c.resolve t o) :=
  { refl c with keeps := Ledger.keeps_resolve c.ledger t o }

theorem reported (c : Connection) (write : WriteId) (t : Ticket) (o : Outcome) :
    Onward c { c with
      inflight := c.inflight.erase write
      ledger := c.ledger.resolve t o } := by
  refine { refl c with keeps := Ledger.keeps_resolve c.ledger t o, inflight := ?_ }
  intro w e _ he
  exact Table.get?_of_erase he

theorem promiseStep (hs : c.ledger.Sound) (hd : PromiseStep k c c') : Onward c c' := by
  cases hd with
  | aside ha => exact aside ha
  | made ch hnone _ _ =>
    refine { refl c with nextChannel := Nat.le_succ _, opened := ?_ }
    intro id hid ho
    rw [isOpen, Table.get?_insert_of_ne (Nat.ne_of_lt hid)] at ho
    exact ho
  | gaveUp id cause =>
    cases hch : c.channels.get? id with
    | none => rw [failParked, hch]; exact refl c
    | some ch =>
      rw [failParked_eq hch]
      exact { refl c with
        keeps := Ledger.keeps_resolveAll ..
        opened := fun j _ ho => (isOpen_insert hch (by rfl) j).symm.trans ho }
  | closed id kind => exact close c id kind
  | tornDown id _ =>
    refine { refl c with opened := ?_ }
    intro j _ ho
    obtain ⟨ch, hch, hopen⟩ := isOpen_iff.mp ho
    exact isOpen_iff.mpr ⟨ch, Table.get?_of_erase hch, hopen⟩
  | issued o => exact { refl c with keeps := hs.keeps_issue _ }
  | reported fault _ _ => exact reported c _ _ _
  | lost _ =>
    exact { refl c with
      keeps := Ledger.keeps_resolveAll ..
      inflight := fun _ _ _ he => (Option.some_ne_none _ he.symm).elim }

theorem entered (c : Connection) (id : ChannelId) (payload : Bytes) (ticket : Ticket) :
    Onward c (c.enterWrite id payload ticket) := by
  refine { refl c with nextWrite := Nat.le_succ _, inflight := ?_ }
  intro w e hw he
  rw [enterWrite, Table.get?_insert_of_ne (Nat.ne_of_lt hw)] at he
  exact he

/-- A refused write has been entered and its fate told. -/
theorem refused {payload : Bytes} {ticket : Ticket} {stream : StreamId} {f : WriteFault}
    (hsub : (c.enterWrite id payload ticket).submit (some id)
      (.data c.nextWrite stream payload false) = (some f, c')) :
    Onward c (c'.settleWrite c.nextWrite ⟨id, payload.length, ticket⟩ (some f)) :=
  (((entered ..).trans (aside (.of_submit hsub))).trans (reported ..)).trans
    (aside (aside_settleWrite ..))

theorem callStep {s s' : Stage} (hb : Balanced s) (ht : s.conn.Tidy) (hm : CallStep strict k s s') :
    Onward s.conn s'.conn := by
  cases hm with
  | @change c c' ws hchange =>
    have hboth : Balanced ⟨c', ws⟩ ∧ Onward c c' :=
      (promisePath_change ht hchange).induction (P := fun d => Balanced ⟨d, ws⟩ ∧ Onward c d)
        (fun _ _ hd h => ⟨h.1.promiseStep hd, h.2.trans (promiseStep h.1.sound hd)⟩) ⟨hb, refl c⟩
    exact hboth.2
  | @takenUp c _ _ _ _ _ hch _ _ =>
    have hissued : Onward c (c.issue .held).2 :=
      { refl c with keeps := hb.sound.keeps_issue _ }
    exact hissued.trans (aside (.countBytes (c := (c.issue .held).2) hch _))
  | parked hch _ _ _ =>
    rw [updateChannel_eq hch]
    exact { refl _ with opened := fun j _ ho => (isOpen_insert hch (by rfl) j).symm.trans ho }
  | unparked subprotocol compression hch _ =>
    rw [markComplete, Table.modify_eq_insert hch]
    exact { refl _ with opened := fun j _ ho => (isOpen_insert hch (by rfl) j).symm.trans ho }
  | sent _ _ _ _ hsub =>
    exact ((entered ..).trans (aside (.of_submit hsub))).trans
      (aside (.update _ _ fun _ _ => ⟨rfl, rfl, rfl⟩))
  | bounced _ _ _ _ hsub => exact (refused hsub).trans (writeFailed ..)
  | dropped _ => exact resolve ..

/-- What every step of a path keeps, the path keeps.  A step may rely on the balance at its start,
and on what has ended since the path began. -/
theorem induction {P : Stage → Prop} {s s' : Stage} (hb : Balanced s) (ht : s.conn.Tidy)
    (step : ∀ u u', u.conn.Tidy → Balanced u → Onward s.conn u.conn → CallStep strict k u u' →
      P u → P u')
    (h : CallPath strict k s s') (hs : P s) : Onward s.conn s'.conn ∧ P s' := by
  have hall : ((s'.conn.Tidy ∧ Balanced s') ∧ Onward s.conn s'.conn) ∧ P s' := by
    refine CallPath.induction
      (P := fun u => ((u.conn.Tidy ∧ Balanced u) ∧ Onward s.conn u.conn) ∧ P u) ?_ h
      ⟨⟨⟨ht, hb⟩, refl _⟩, hs⟩
    rintro u u' hm ⟨⟨⟨hut, hub⟩, huo⟩, hu⟩
    exact ⟨⟨⟨tidy_callStep hut hm, hub.callStep hut hm⟩, huo.trans (callStep hub hut hm)⟩,
      step u u' hut hub huo hm hu⟩
  exact ⟨hall.1.2, hall.2⟩

theorem path {s s' : Stage} (hb : Balanced s) (ht : s.conn.Tidy) (h : CallPath strict k s s') :
    Onward s.conn s'.conn :=
  (induction (P := fun _ => True) hb ht (fun _ _ _ _ _ _ _ => trivial) h trivial).1

end Onward

namespace Regular

theorem onward_after (hc : c.Regular) (k : Call) : Onward c (c.after k) :=
  .path hc.balanced hc.tidy (callPath_after c k (False.elim : False → _))

theorem onward_run (hc : c.Regular) (ks : List Call) : Onward c (c.run ks) := by
  induction ks generalizing c with
  | nil => exact .refl c
  | cons k ks ih => exact (hc.onward_after k).trans (ih (hc.after k))

end Regular

/-! ## One write followed through a run -/

/-- The write of a ticket was accepted for a channel. -/
structure Followed (t : Ticket) (id : ChannelId) (c : Connection) : Prop where
  regular : c.Regular
  belongs : Belongs t id ⟨c, []⟩
  issued : t < c.ledger.next

theorem belongs_callPath {s s' : Stage} (hb : Balanced s) (ht : s.conn.Tidy) (h : Belongs t id s)
    (hnew : ∀ j payload, k.call = .write j payload ∨ k.call = .writeAndFlush j payload →
      j = id ∨ t < s.conn.ledger.next) (hpath : CallPath strict k s s') : Belongs t id s' := by
  refine (Onward.induction (P := Belongs t id) hb ht ?_ hpath h).2
  intro u u' hut hub huo hm hbelongs
  refine hbelongs.callStep hut ?_ hm
  intro j payload hk
  exact (hnew j payload hk).imp_right fun hlt => Nat.lt_of_lt_of_le hlt huo.keeps.1

namespace Followed

theorem after (h : Followed t id c) (k : Call) : Followed t id (c.after k) where
  regular := h.regular.after k
  belongs := belongs_callPath h.regular.balanced h.regular.tidy h.belongs
    (fun _ _ _ => .inr h.issued)
    (callPath_after c k (False.elim : False → _))
  issued := Nat.lt_of_lt_of_le h.issued (h.regular.onward_after k).keeps.1

theorem run (h : Followed t id c) (ks : List Call) : Followed t id (c.run ks) := by
  induction ks generalizing c with
  | nil => exact h
  | cons k ks ih => exact ih (h.after k)

/-- A ticket that is still to come belongs to whatever channel it will be issued for. -/
theorem belongs_next (hb : Balanced ⟨c, []⟩) (id : ChannelId) :
    Belongs c.ledger.next id ⟨c, []⟩ := by
  have hwaiting : (Stage.mk c []).waiting c.ledger.next = 0 := hb.waiting_next
  rw [Stage.waiting] at hwaiting
  refine ⟨fun _ hw => absurd hw List.not_mem_nil, ?_, ?_⟩
  · intro j ch hj ht
    have hle := Table.le_total (f := Channel.parkedCount c.ledger.next) hj
    have hpos := List.count_pos_iff.mpr ht
    rw [Channel.parkedCount] at hle
    omega
  · intro w e he ht
    have hle := Table.le_total (f := Inflight.ticketCount c.ledger.next) he
    rw [Inflight.ticketCount, if_pos ht] at hle
    omega

theorem next_lt_write (hc : c.Regular) (id : ChannelId) (payload : Bytes) :
    (c.write id payload).1 = c.ledger.next ∧
      c.ledger.next < (c.write id payload).2.ledger.next := by
  have hlt : c.ledger.next < c.ledger.next + 1 := Nat.lt_succ_self _
  rcases write_cases False ⟨c, .write id payload⟩ c id payload with
    heq | ⟨ch, hch, ho, hout, hfst, hpath⟩
  · rw [heq]
    exact ⟨rfl, hlt⟩
  · have htaken : CallStep False ⟨c, .write id payload⟩ ⟨c, []⟩ _ :=
      .takenUp (.inl rfl) rfl hch ho hout
    have honward := Onward.path (hc.balanced.callStep hc.tidy htaken)
      (tidy_callStep hc.tidy htaken) hpath
    obtain ⟨_, heq, -⟩ := countBytes_eq (c.issue .held).2 id ch payload.length
    have hnext := honward.keeps.1
    rw [heq] at hnext
    exact ⟨hfst, Nat.lt_of_lt_of_le hlt hnext⟩

theorem call_write (c : Connection) (id : ChannelId) (payload : Bytes) :
    c.call (.write id payload) =
      c.onChannel id (.ticket (c.write id payload).1, (c.write id payload).2) := rfl

theorem call_writeAndFlush (c : Connection) (id : ChannelId) (payload : Bytes) :
    c.call (.writeAndFlush id payload) = c.onChannel id
      (.ticket (c.write id payload).1, (c.write id payload).2.flushChannel id) := rfl

theorem onChannel_of_ticket {u : Ticket}
    (h : (c.onChannel id (.ticket u, d)).1 = .ticket t) :
    t = u ∧ (c.onChannel id (.ticket u, d)).2 = d := by
  rw [onChannel] at h ⊢
  split at h
  next hid => rw [if_pos hid]; exact ⟨(Reply.ticket.inj h).symm, rfl⟩
  next => cases h

/-- A write that was accepted is followed from then on. -/
theorem of_write (hc : c.Regular) {k : Call} {payload : Bytes}
    (hk : k = .write id payload ∨ k = .writeAndFlush id payload)
    (ht : (c.call k).1 = .ticket t) : Followed t id (c.after k) := by
  obtain ⟨hfst, hlt⟩ := next_lt_write hc id payload
  have hreply : t = c.ledger.next ∧ c.ledger.next < (c.after k).ledger.next := by
    rcases hk with rfl | rfl
    · rw [call_write] at ht
      obtain ⟨heq, hafter⟩ := onChannel_of_ticket ht
      rw [Connection.after, call_write, hafter]
      exact ⟨heq.trans hfst, hlt⟩
    · rw [call_writeAndFlush] at ht
      obtain ⟨heq, hafter⟩ := onChannel_of_ticket ht
      rw [Connection.after, call_writeAndFlush, hafter]
      exact ⟨heq.trans hfst, hlt⟩
  obtain ⟨rfl, hissued⟩ := hreply
  refine ⟨hc.after k, ?_, hissued⟩
  refine belongs_callPath hc.balanced hc.tidy (belongs_next hc.balanced id) (fun j p hj => .inl ?_)
    (callPath_after c k (False.elim : False → _))
  rcases hk with rfl | rfl
  · rcases hj with hj | hj
    · exact (Call.write.inj hj).1.symm
    · cases hj
  · rcases hj with hj | hj
    · cases hj
    · exact (Call.writeAndFlush.inj hj).1.symm

variable (h : Followed t id c)
include h

theorem held_or_kept :
    c.ledger.promise? t = some .held ∨ ∃ o, c.ledger.promise? t = some (.kept o) :=
  h.regular.balanced.sound.issued t h.issued

theorem held_iff : c.ledger.promise? t = some .held ↔ ∃ p, c.places t = [p] := by
  have hlen := length_places h.regular.balanced t
  rw [← Ledger.isHeld_iff]
  constructor
  · intro hheld
    rw [hheld] at hlen
    exact List.length_eq_one_iff.mp hlen
  · rintro ⟨p, hp⟩
    by_contra hnot
    rw [hp, if_neg hnot] at hlen
    cases hlen

theorem places_of_kept {o : Outcome} (ho : c.ledger.promise? t = some (.kept o)) :
    c.places t = [] := by
  have hlen := length_places h.regular.balanced t
  rw [if_neg fun hheld => ?_] at hlen
  · exact List.length_eq_zero_iff.mp hlen
  · rw [Ledger.isHeld_iff, ho] at hheld
    cases hheld

theorem kept_of_closed (hclosed : c.isOpen id = false) :
    ∃ o, c.ledger.promise? t = some (.kept o) := by
  apply h.held_or_kept.resolve_left
  intro hheld
  obtain ⟨p, hp⟩ := h.held_iff.mp hheld
  have hmem : p ∈ c.places t := hp ▸ List.mem_singleton_self p
  have hopen := isOpen_of_mem_places hmem
  rw [h.belongs.channel_eq hmem, hclosed] at hopen
  cases hopen

end Followed

/-! ## Fates of writes on their way -/

section

variable {write : WriteId} {w : Inflight}

/-- A channel that closes fails the writes that are on their way for it. -/
theorem promise?_close (hw : c.inflight.get? write = some w)
    (hheld : c.ledger.isHeld w.ticket = true) (ho : c.isOpen w.channel = true)
    (kind : CloseKind) : (c.close w.channel kind).ledger.promise? w.ticket =
      some (.kept (.failed .channelClosed)) := by
  obtain ⟨ch, hch, ho⟩ := isOpen_iff.mp ho
  obtain ⟨_, _, _, _, heq, -⟩ := close_eq hch ho kind
  have hmem : w.ticket ∈ c.inflightTickets w.channel :=
    List.mem_filterMap.mpr ⟨(write, w), (Table.mem_entries_iff ..).mpr hw, if_pos rfl⟩
  rw [heq]
  change ((c.ledger.resolveAll ch.parkedTickets _).resolveAll _ _).promise? _ = _
  rw [Ledger.promise?_resolveAll, Ledger.isHeld_resolveAll, Ledger.promise?_resolveAll, hheld]
  by_cases hparked : w.ticket ∈ ch.parkedTickets <;> simp [hmem, hparked]

theorem onward_settleWrite (hw : c.inflight.get? write = some w) (fault : Option WriteFault) :
    Onward (c.settleWrite write w fault) (c.writeCompleted write fault) := by
  cases fault with
  | none => rw [writeCompleted_of_done hw]; exact .refl _
  | some f => rw [writeCompleted_of_some hw]; exact .writeFailed _ w.channel

/-- A report keeps the promise of the write it is about. -/
theorem promise?_writeCompleted (hw : c.inflight.get? write = some w)
    (hheld : c.ledger.isHeld w.ticket = true) (fault : Option WriteFault) :
    (c.writeCompleted write fault).ledger.promise? w.ticket = some (.kept (.ofReport fault)) := by
  apply (onward_settleWrite hw fault).keeps.2 _ _
  rw [(aside_settleWrite c write w fault).promises]
  change (c.ledger.resolve _ _).promise? _ = _
  rw [Ledger.promise?_resolve, if_pos ⟨rfl, hheld⟩]

/-- A write that was reported is not on its way any more. -/
theorem get?_writeCompleted (hw : c.inflight.get? write = some w) (hlt : write < c.nextWrite)
    (fault : Option WriteFault) : (c.writeCompleted write fault).inflight.get? write = none := by
  have hsettled := aside_settleWrite c write w fault
  apply Option.eq_none_iff_forall_ne_some.mpr
  intro e he
  have hback := (onward_settleWrite hw fault).inflight write e
    (Nat.lt_of_lt_of_le hlt hsettled.nextWrite) he
  rw [hsettled.inflight, Table.get?_erase, if_pos rfl] at hback
  cases hback

/-- A write is on its way, or the closing of its channel has failed it. -/
def OnWayOrClosed (c : Connection) (write : WriteId) (w : Inflight) : Prop :=
  c.inflight.get? write = some w ∨
    c.isOpen w.channel = false ∧
      c.ledger.promise? w.ticket = some (.kept (.failed .channelClosed))

namespace OnWayOrClosed

theorem onward (h : c.OnWayOrClosed write w) (hid : w.channel < c.nextChannel)
    (ho : Onward c c') (hw : c.inflight.get? write = some w → c'.inflight.get? write = some w) :
    c'.OnWayOrClosed write w := by
  rcases h with h | ⟨hclosed, hkept⟩
  · exact .inl (hw h)
  · refine .inr ⟨Bool.eq_false_iff.mpr ?_, ho.keeps.2 _ _ hkept⟩
    intro hopen
    rw [ho.opened _ hid hopen] at hclosed
    cases hclosed

theorem close (h : c.OnWayOrClosed write w) (hb : Balanced ⟨c, ws⟩)
    (hid : w.channel < c.nextChannel) (id : ChannelId) (kind : CloseKind) :
    (c.close id kind).OnWayOrClosed write w := by
  by_cases heq : c.inflight.get? write = some w ∧ w.channel = id
  · obtain ⟨hw, rfl⟩ := heq
    exact .inr ⟨isOpen_close_self .., promise?_close hw (hb.isHeld_of_inflight hw)
      (hb.owned write w hw) kind⟩
  · apply h.onward hid (.close c id kind)
    intro hw
    have hne : w.channel ≠ id := fun hc => heq ⟨hw, hc⟩
    rcases close_cases c id kind with ⟨-, heq⟩ | ⟨ch, hch, ho⟩
    · rw [heq]; exact hw
    · obtain ⟨_, _, _, _, heq, -⟩ := close_eq hch ho kind
      rw [heq]
      exact (Table.get?_keep ..).trans (Option.filter_eq_some_iff.mpr ⟨hw, decide_eq_true hne⟩)

variable (hk : k.call ≠ .connectionLost) (hk' : ∀ fault, k.call ≠ .writeCompleted write fault)
include hk hk'

/-- Nothing but a report, the loss of the connection and the closing of its channel ends a write
that is on its way. -/
theorem promiseStep (h : c.OnWayOrClosed write w) (hb : Balanced ⟨c, ws⟩)
    (hid : w.channel < c.nextChannel) (hd : PromiseStep k c c') : c'.OnWayOrClosed write w := by
  have honward := Onward.promiseStep hb.sound hd
  cases hd with
  | aside ha => exact h.onward hid honward fun hw => ha.inflight ▸ hw
  | made | tornDown | issued => exact h.onward hid honward fun hw => hw
  | gaveUp id cause =>
    apply h.onward hid honward
    intro hw
    rw [failParked]
    split
    · exact hw
    · exact hw
  | closed id kind => exact h.close hb hid id kind
  | @reported other e fault heq _ =>
    apply h.onward hid honward
    intro hw
    have hne : write ≠ other := fun hsame => hk' fault (hsame ▸ heq)
    exact (Table.get?_erase ..).trans ((if_neg hne).trans hw)
  | lost heq => exact absurd heq hk

theorem promisePath (h : c.OnWayOrClosed write w) (hb : Balanced ⟨c, ws⟩)
    (hid : w.channel < c.nextChannel) (hd : PromisePath k c c') : c'.OnWayOrClosed write w := by
  have hall : (Balanced ⟨c', ws⟩ ∧ w.channel < c'.nextChannel) ∧ c'.OnWayOrClosed write w := by
    refine hd.induction (P := fun d => (Balanced ⟨d, ws⟩ ∧ w.channel < d.nextChannel) ∧
      d.OnWayOrClosed write w) ?_ ⟨⟨hb, hid⟩, h⟩
    rintro u u' hd ⟨⟨hub, huid⟩, hu⟩
    have honward := Onward.promiseStep hub.sound hd
    exact ⟨⟨hub.promiseStep hd, Nat.lt_of_lt_of_le huid honward.nextChannel⟩,
      hu.promiseStep hk hk' hub huid hd⟩
  exact hall.2

theorem callStep {s s' : Stage} (h : s.conn.OnWayOrClosed write w) (hb : Balanced s)
    (ht : s.conn.Tidy) (hid : w.channel < s.conn.nextChannel) (hwrite : write < s.conn.nextWrite)
    (hm : CallStep strict k s s') : s'.conn.OnWayOrClosed write w := by
  have honward := Onward.callStep hb ht hm
  cases hm with
  | change ws hchange => exact h.promisePath hk hk' hb hid (promisePath_change ht hchange)
  | @takenUp c _ _ _ _ _ hch _ _ =>
    apply h.onward hid honward
    intro hw
    exact (Aside.countBytes (c := (c.issue .held).2) hch _).inflight ▸ hw
  | parked | unparked | dropped => exact h.onward hid honward fun hw => hw
  | sent _ _ _ _ hsub =>
    apply h.onward hid honward
    intro hw
    rw [← (Prod.mk.inj hsub).2]
    exact (Table.get?_insert ..).trans ((if_neg (Nat.ne_of_lt hwrite)).trans hw)
  | bounced hch ho _ _ hsub =>
    have hrefused := Onward.refused hsub
    refine (h.onward hid hrefused fun hw => ?_).promisePath (k := k) hk hk'
      (hb.refused (isOpen_iff.mpr ⟨_, hch, ho⟩) hsub)
      (Nat.lt_of_lt_of_le hid hrefused.nextChannel) (promisePath_writeFailed ..)
    have hne := Nat.ne_of_lt hwrite
    rw [(aside_settleWrite ..).inflight, Table.get?_erase, if_neg hne, ← (Prod.mk.inj hsub).2]
    exact (Table.get?_insert ..).trans ((if_neg hne).trans hw)

end OnWayOrClosed

namespace Regular

/-- The loss of the connection fails what is on its way before it closes the channels. -/
theorem connectionLost (hc : c.Regular) (hw : c.inflight.get? write = some w) :
    (c.after .connectionLost).ledger.promise? w.ticket =
      some (.kept (.failed .connectionClosed)) := by
  have hlost : CallStep False ⟨c, .connectionLost⟩ ⟨c, []⟩ ⟨c.loseInflight, []⟩ :=
    .change [] (.inflightLost c rfl)
  have hpath : CallPath False ⟨c, .connectionLost⟩ ⟨c.loseInflight, []⟩
      ⟨c.after .connectionLost, []⟩ :=
    callPath_loseChannels rfl
  have honward : Onward c.loseInflight (c.after .connectionLost) :=
    .path (hc.balanced.callStep hc.tidy hlost) (tidy_callStep hc.tidy hlost) hpath
  apply honward.keeps.2 _ _
  change (c.ledger.resolveAll (c.inflight.entries.map fun e => e.2.ticket) _).promise? _ = _
  have hmem : w.ticket ∈ c.inflight.entries.map fun e => e.2.ticket :=
    List.mem_map.mpr ⟨(write, w), (Table.mem_entries_iff ..).mpr hw, rfl⟩
  rw [Ledger.promise?_resolveAll, if_pos ⟨hmem, hc.balanced.isHeld_of_inflight hw⟩]

/-- Any other call leaves a write on its way or closes its channel. -/
theorem onWayOrClosed_after (hc : c.Regular) (hw : c.inflight.get? write = some w) {k : Call}
    (hk : k ≠ .connectionLost) (hk' : ∀ fault, k ≠ .writeCompleted write fault) :
    (c.after k).OnWayOrClosed write w := by
  obtain ⟨ch, hch, -⟩ := isOpen_iff.mp (hc.balanced.owned write w hw)
  refine (Onward.induction (P := fun u => u.conn.OnWayOrClosed write w) hc.balanced hc.tidy ?_
    (callPath_after c k (False.elim : False → _)) (.inl hw)).2
  intro u u' hut hub huo hm hu
  have hid := Nat.lt_of_lt_of_le (hc.tidy.numbered hch) huo.nextChannel
  have hwrite := Nat.lt_of_lt_of_le (hc.balanced.numbered write w hw) huo.nextWrite
  exact hu.callStep hk hk' hub hut hid hwrite hm

end Regular

end

/-! ## What the application may rely on -/

/-- The account of a write that was accepted for a channel, in a state between two calls. -/
structure Accounted (t : Ticket) (id : ChannelId) (c : Connection) : Prop where
  /-- The promise is held if and only if the write waits in exactly one place. -/
  held_iff : c.ledger.promise? t = some .held ↔ ∃ p, c.places t = [p]
  /-- Otherwise the promise is kept, and the write waits nowhere. -/
  held_or_kept : c.ledger.promise? t = some .held ∨
    c.places t = [] ∧ ∃ o, c.ledger.promise? t = some (.kept o)
  channel_eq : ∀ p ∈ c.places t, p.channel = id
  /-- A promise is kept once and for all. -/
  kept_forever : ∀ o ks, c.ledger.promise? t = some (.kept o) →
    (c.run ks).ledger.promise? t = some (.kept o)
  kept_of_closed : c.isOpen id = false → ∃ o, c.ledger.promise? t = some (.kept o)
  kept_of_lost : ∃ o, (c.after .connectionLost).ledger.promise? t = some (.kept o)
  /-- The loss of the connection fails a write that is on its way. -/
  lost : ∀ write w, c.inflight.get? write = some w → w.ticket = t →
    (c.after .connectionLost).ledger.promise? t = some (.kept (.failed .connectionClosed))
  /-- A report tells how a write has ended. -/
  reported : ∀ write w fault, c.inflight.get? write = some w → w.ticket = t →
    (c.after (.writeCompleted write fault)).ledger.promise? t = some (.kept (.ofReport fault))
  /-- Any other call that ends a write which is on its way has closed its channel. -/
  closed : ∀ write w k, c.inflight.get? write = some w → w.ticket = t → k ≠ .connectionLost →
    (∀ fault, k ≠ .writeCompleted write fault) →
    (c.after k).inflight.get? write = some w ∨ (c.after k).isOpen id = false ∧
      (c.after k).ledger.promise? t = some (.kept (.failed .channelClosed))
  /-- A report about a write that is not on its way changes nothing. -/
  unknown : ∀ write fault, c.inflight.get? write = none →
    c.after (.writeCompleted write fault) = c
  /-- A write that was reported is on its way no more. -/
  repeated : ∀ write w fault, c.inflight.get? write = some w →
    (c.after (.writeCompleted write fault)).inflight.get? write = none
  /-- No write comes to be on its way again. -/
  never_again : ∀ write ks, write < c.nextWrite → c.inflight.get? write = none →
    (c.run ks).inflight.get? write = none

theorem Followed.accounted (h : Followed t id c) : Accounted t id c where
  held_iff := h.held_iff
  held_or_kept := h.held_or_kept.imp_right fun ⟨o, ho⟩ => ⟨h.places_of_kept ho, o, ho⟩
  channel_eq _ hp := h.belongs.channel_eq hp
  kept_forever o ks ho := (h.regular.onward_run ks).keeps.2 t o ho
  kept_of_closed := h.kept_of_closed
  kept_of_lost := (h.after .connectionLost).kept_of_closed (isOpen_connectionLost c id)
  lost write w hw hwt := hwt ▸ h.regular.connectionLost hw
  reported write w fault hw hwt :=
    hwt ▸ promise?_writeCompleted hw (h.regular.balanced.isHeld_of_inflight hw) fault
  closed write w k hw hwt hk hk' := by
    have hid : w.channel = id := h.belongs.inflight write w hw hwt
    rw [← hid, ← hwt]
    exact h.regular.onWayOrClosed_after hw hk hk'
  unknown _ fault hw := writeCompleted_of_none hw fault
  repeated write w fault hw :=
    get?_writeCompleted hw (h.regular.balanced.numbered write w hw) fault
  never_again write ks hlt hnone := by
    apply Option.eq_none_iff_forall_ne_some.mpr
    intro w hw
    rw [(h.regular.onward_run ks).inflight write w hlt hw] at hnone
    cases hnone

/-- A write that a run has accepted is accounted for in every state between two later calls: it
waits in one place until it is resolved, it is resolved once, and no later than its channel is
closed.  A write that is on its way is failed by whatever closes its channel, at any moment of a
call, and resolved by a report, at any moment of a call. -/
theorem accepted_write_is_resolved_once {config : Config} {encoder : Encoder} {c : Connection}
    (h : start config encoder = .ok c) (ks : List Call) {k : Call} {id : ChannelId}
    {payload : Bytes} {t : Ticket} (hk : k = .write id payload ∨ k = .writeAndFlush id payload)
    (ht : ((c.run ks).call k).1 = .ticket t) (ls : List Call) :
    Accounted t id (c.run (ks ++ k :: ls)) ∧
    (∀ (d : Connection) (write : WriteId) (w : Inflight), d.inflight.get? write = some w →
      d.ledger.isHeld w.ticket = true → d.isOpen w.channel = true →
      (∀ kind, (d.close w.channel kind).ledger.promise? w.ticket =
        some (.kept (.failed .channelClosed))) ∧
      (∀ fault, (d.writeCompleted write fault).ledger.promise? w.ticket =
        some (.kept (.ofReport fault)))) := by
  have hregular := (Regular.of_start h).run ks
  refine ⟨?_, fun d write w hw hheld ho => ⟨promise?_close hw hheld ho,
    promise?_writeCompleted hw hheld⟩⟩
  rw [run_append]
  exact ((Followed.of_write hregular hk ht).run ls).accounted

/-- A write of the conversation that was opened is on its way until it is reported. -/
theorem opened_write_is_on_its_way :
    ∃ p, ((fresh {} .willing).run (Call.opening ++ .write 1 [7] :: [.readCycleEnded])).places 0 =
      [p] := by
  have haccounted := (accepted_write_is_resolved_once
    (rfl : start {} .willing = .ok (fresh {} .willing)) Call.opening
    (.inl rfl : Call.write 1 [7] = .write 1 [7] ∨ Call.write 1 [7] = .writeAndFlush 1 [7])
    (t := 0) (by rfl) [.readCycleEnded]).1
  exact haccounted.held_iff.mp (by decide)

end Connection

end ChannelMux
