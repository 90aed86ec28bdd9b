import ChannelMux.Proofs.Tidy

/-!
# The pump: what was received is delivered

No item gets stuck and no finished read is forgotten.  Between two calls every open channel is
`Steady`: if it wants to read and has something to deliver, its budget is spent, and if its budget
is spent, it waits in the batch, from which the end of the read cycle takes it.  While the pump is
at work this fails for the channels that it is busy with, and the channels that a drain has taken
out of the batch wait outside it.  A `Phase` says which these are, and `Pump` is the invariant of a
phase.
-/

namespace ChannelMux

namespace Channel

/-- A read that may deliver nothing more waits in the batch. -/
def Armed (ch : Channel) : Prop :=
  ch.closed = false → ch.demand ≠ .idle → ch.budget = 0 → ch.batched = true

/-- A read that could have delivered something has done so. -/
def Drained (ch : Channel) : Prop :=
  ch.closed = false → ch.demand ≠ .idle → ch.inbound ≠ [] → ch.budget = 0

structure Steady (ch : Channel) : Prop where
  armed : ch.Armed
  drained : ch.Drained

theorem Steady.of_closed {ch : Channel} (h : ch.closed = true) : ch.Steady :=
  ⟨fun ho => absurd (ho.symm.trans h) Bool.false_ne_true,
    fun ho => absurd (ho.symm.trans h) Bool.false_ne_true⟩

theorem Steady.of_idle {ch : Channel} (h : ch.demand = .idle) : ch.Steady :=
  ⟨fun _ hd => absurd h hd, fun _ hd => absurd h hd⟩

/-- The reading side of the second channel is that of the first. -/
structure SameReads (ch ch' : Channel) : Prop where
  closed : ch'.closed = ch.closed
  demand : ch'.demand = ch.demand
  inbound : ch'.inbound = ch.inbound
  budget : ch'.budget = ch.budget
  batched : ch'.batched = ch.batched

namespace SameReads

variable {ch ch' : Channel}

theorem armed (h : ch.SameReads ch') (hch : ch.Armed) : ch'.Armed := by
  intro ho hd hb
  rw [h.batched]
  exact hch (h.closed ▸ ho) (h.demand ▸ hd) (h.budget ▸ hb)

theorem drained (h : ch.SameReads ch') (hch : ch.Drained) : ch'.Drained := by
  intro ho hd hq
  rw [h.budget]
  exact hch (h.closed ▸ ho) (h.demand ▸ hd) (h.inbound ▸ hq)

theorem steady (h : ch.SameReads ch') (hch : ch.Steady) : ch'.Steady :=
  ⟨h.armed hch.armed, h.drained hch.drained⟩

end SameReads

theorem Akin.sameReads {ch ch' : Channel} (h : ch.Akin ch') : ch.SameReads ch' :=
  ⟨h.closed, h.demand, h.inbound, h.budget, h.batched⟩

theorem armed_finishRead (ch : Channel) {n : Nat} (hn : 0 < n) : (ch.finishRead n).Armed := by
  intro _ hd hb
  rw [finishRead] at hd hb
  dsimp only at hd hb
  rw [if_neg hd] at hb
  omega

/-- A drained channel that waits in the batch is steady. -/
theorem Drained.steady {ch : Channel} (h : ch.Drained) : ({ ch with batched := true }).Steady :=
  ⟨fun _ _ _ => rfl, h⟩

end Channel

namespace Connection

/-- Where the pump stands. -/
structure Phase where
  /-- Whether the connection is inside a read cycle. -/
  reading : Bool
  draining : Bool := false
  /-- The channels that were taken out of the batch and have not been resumed. -/
  waiting : List ChannelId := []
  /-- The channels that are being delivered. -/
  busy : List ChannelId := []

structure Pump (p : Phase) (c : Connection) : Prop where
  reading : c.reading = p.reading
  draining : c.batch.draining = p.draining
  nodup : (c.batch.queue ++ p.waiting).Nodup
  mem_iff : ∀ id, id ∈ c.batch.queue ++ p.waiting ↔
    ∃ ch, c.channels.get? id = some ch ∧ ch.batched = true
  opened : ∀ {id ch}, c.channels.get? id = some ch → ch.batched = true → ch.closed = false
  cycle : c.batch.queue ≠ [] → p.reading = true
  emptied : p.draining = true → c.batch.queue = []
  capacity : 0 < c.batch.capacity
  perRead : 0 < c.config.messagesPerRead
  steady : ∀ {id ch}, id ∉ p.busy → c.channels.get? id = some ch → ch.Steady

namespace Pump

variable {strict r d : Bool} {w busy : List ChannelId} {p : Phase}
variable {c c' : Connection} {id : ChannelId} {ch ch' : Channel}

/-- The channel wants nothing of the pump. -/
theorem done (hp : Pump ⟨r, d, w, id :: busy⟩ c)
    (hs : ∀ ch, c.channels.get? id = some ch → ch.Steady) : Pump ⟨r, d, w, busy⟩ c :=
  { hp with
    steady := by
      intro j ch hj hch
      by_cases heq : j = id
      · exact hs ch (heq ▸ hch)
      · exact hp.steady (fun hmem => (List.mem_cons.mp hmem).elim heq hj) hch }

theorem begin (hp : Pump ⟨r, d, w, busy⟩ c) (id : ChannelId) : Pump ⟨r, d, w, id :: busy⟩ c :=
  { hp with steady := fun hj hch => hp.steady (fun hmem => hj (List.mem_cons_of_mem _ hmem)) hch }

theorem not_batched (hp : Pump p c) (h : c.channels.get? id = some ch)
    (hid : id ∉ c.batch.queue ++ p.waiting) : ch.batched = false :=
  Bool.eq_false_iff.mpr fun hb => hid ((hp.mem_iff id).mpr ⟨ch, h, hb⟩)

theorem not_mem (hp : Pump p c) (h : ∀ ch, c.channels.get? id = some ch → ch.batched = false) :
    id ∉ c.batch.queue ++ p.waiting := by
  intro hid
  obtain ⟨ch, hch, hb⟩ := (hp.mem_iff id).mp hid
  exact absurd ((h ch hch).symm.trans hb) Bool.false_ne_true

/-! ### One channel -/

/-- A channel changes, and does not enter or leave the batch. -/
theorem edit (hp : Pump p c) (h : c.channels.get? id = some ch)
    (hchannels : c'.channels = c.channels.insert id ch')
    (hsame : c'.batch = c.batch ∧ c'.reading = c.reading ∧ c'.config = c.config)
    (hb : ch'.batched = ch.batched) (ho : ch.closed = false → ch'.closed = false)
    (hs : id ∉ p.busy → ch'.Steady) : Pump p c' := by
  obtain ⟨hbatch, hreading, hconfig⟩ := hsame
  refine
    { reading := hreading.trans hp.reading
      draining := hbatch ▸ hp.draining
      nodup := hbatch ▸ hp.nodup
      mem_iff := ?_
      opened := ?_
      cycle := hbatch ▸ hp.cycle
      emptied := hbatch ▸ hp.emptied
      capacity := hbatch ▸ hp.capacity
      perRead := hconfig ▸ hp.perRead
      steady := ?_ }
  · intro j
    rw [hbatch, hp.mem_iff, hchannels]
    simp only [Table.get?_insert]
    split
    next hji => simp [hji, h, hb]
    next => rfl
  · intro j e hj he
    rw [hchannels] at hj
    rcases Table.get?_insert_cases hj with ⟨-, rfl⟩ | hj
    · exact ho (hp.opened h (hb ▸ he))
    · exact hp.opened hj he
  · intro j e hj hch
    rw [hchannels] at hch
    rcases Table.get?_insert_cases hch with ⟨hji, rfl⟩ | hch
    · exact hs (hji ▸ hj)
    · exact hp.steady hj hch

theorem edit_same (hp : Pump p c) (h : c.channels.get? id = some ch)
    (hchannels : c'.channels = c.channels.insert id ch')
    (hsame : c'.batch = c.batch ∧ c'.reading = c.reading ∧ c'.config = c.config)
    (hs : ch.SameReads ch') : Pump p c' :=
  hp.edit h hchannels hsame hs.batched (fun ho => hs.closed.trans ho) fun hmem =>
    hs.steady (hp.steady hmem h)

theorem beside (hp : Pump ⟨r, d, w, busy⟩ c) (h : Beside c c') :
    Pump ⟨c'.reading, d, w, busy⟩ c' where
  reading := rfl
  draining := h.draining.trans hp.draining
  nodup := h.queue ▸ hp.nodup
  mem_iff j := by
    rw [h.queue, hp.mem_iff]
    constructor
    · rintro ⟨ch, hch, hb⟩
      obtain ⟨ch', hch', hakin⟩ := h.channels.forth hch
      exact ⟨ch', hch', hakin.batched.trans hb⟩
    · rintro ⟨ch', hch', hb⟩
      obtain ⟨ch, hch, hakin⟩ := h.channels.back hch'
      exact ⟨ch, hch, hakin.batched.symm.trans hb⟩
  opened hj hb := by
    obtain ⟨ch, hch, hakin⟩ := h.channels.back hj
    exact hakin.closed.trans (hp.opened hch (hakin.batched.symm.trans hb))
  cycle hq := h.reading (hp.reading.trans (hp.cycle (h.queue ▸ hq)))
  emptied hd := h.queue.trans (hp.emptied hd)
  capacity := h.capacity hp.capacity
  perRead := h.config ▸ hp.perRead
  steady hj hch := by
    obtain ⟨ch, hch', hakin⟩ := h.channels.back hch
    exact hakin.sameReads.steady (hp.steady hj hch')

/-- Closing takes a channel out of the batch. -/
theorem close (hp : Pump p c) (hw : id ∉ p.waiting) (kind : CloseKind) :
    Pump p (c.close id kind) := by
  rcases close_cases c id kind with ⟨-, heq⟩ | ⟨ch, h, ho⟩
  · rw [heq]; exact hp
  · obtain ⟨_, _, _, _, heq, -⟩ := close_eq h ho kind
    rw [heq]
    refine
      { reading := hp.reading
        draining := hp.draining
        nodup := ?_
        mem_iff := ?_
        opened := ?_
        cycle := fun hq => hp.cycle fun hnil => hq ?_
        emptied := ?_
        capacity := hp.capacity
        perRead := hp.perRead
        steady := ?_ }
    · exact hp.nodup.sublist (List.filter_sublist.append (List.Sublist.refl _))
    · intro j
      have hiff := hp.mem_iff j
      simp only [List.mem_append, ReadBatch.queue_remove, List.mem_filter, decide_eq_true_eq,
        Table.get?_insert] at hiff ⊢
      split
      next hji =>
        subst hji
        simp [hw, Channel.shut]
      next hji => simp [hji, hiff]
    · intro j e hj he
      rcases Table.get?_insert_cases hj with ⟨-, rfl⟩ | hj
      · cases he
      · exact hp.opened hj he
    · rw [ReadBatch.queue_remove, hnil]; rfl
    · intro hd
      rw [ReadBatch.queue_remove, hp.emptied hd]; rfl
    · intro j e hj hch
      rcases Table.get?_insert_cases hch with ⟨-, rfl⟩ | hch
      · exact .of_closed rfl
      · exact hp.steady hj hch

theorem erase (hp : Pump p c) (h : ∀ ch, c.channels.get? id = some ch → ch.batched = false)
    (hchannels : c'.channels = c.channels.erase id)
    (hsame : c'.batch = c.batch ∧ c'.reading = c.reading ∧ c'.config = c.config) : Pump p c' := by
  obtain ⟨hbatch, hreading, hconfig⟩ := hsame
  refine
    { reading := hreading.trans hp.reading
      draining := hbatch ▸ hp.draining
      nodup := hbatch ▸ hp.nodup
      mem_iff := ?_
      opened := ?_
      cycle := hbatch ▸ hp.cycle
      emptied := hbatch ▸ hp.emptied
      capacity := hbatch ▸ hp.capacity
      perRead := hconfig ▸ hp.perRead
      steady := ?_ }
  · intro j
    rw [hbatch, hchannels]
    simp only [Table.get?_erase]
    split
    next hji => simpa [hji] using hp.not_mem h
    next => exact hp.mem_iff j
  · intro j e hj he
    rw [hchannels] at hj
    exact hp.opened (Table.get?_of_erase hj) he
  · intro j e hj hch
    rw [hchannels] at hch
    exact hp.steady hj (Table.get?_of_erase hch)

theorem made (hp : Pump p c) (ht : c.Tidy) (path : String) :
    Pump p { c with
      channels := c.channels.insert c.nextChannel (c.newChannel path)
      nextChannel := c.nextChannel + 1 } := by
  have hnone := ht.get?_nextChannel
  refine { hp with mem_iff := ?_, opened := ?_, steady := ?_ }
  · intro j
    simp only [Table.get?_insert]
    split
    next hji =>
      have hnot : j ∉ c.batch.queue ++ p.waiting := hp.not_mem fun _ h => by
        rw [hji, hnone] at h; cases h
      simpa [newChannel] using hnot
    next => exact hp.mem_iff j
  · intro j e hj he
    rcases Table.get?_insert_cases hj with ⟨-, rfl⟩ | hj
    · cases he
    · exact hp.opened hj he
  · intro j e hj hch
    rcases Table.get?_insert_cases hch with ⟨-, rfl⟩ | hch
    · refine ⟨?_, fun _ _ hq => absurd rfl hq⟩
      intro _ hd hb
      have hpos := hp.perRead
      simp only [newChannel] at hd hb
      split at hb
      next => omega
      next hauto => rw [if_neg hauto] at hd; exact absurd rfl hd
    · exact hp.steady hj hch

/-! ### One read -/

theorem deliver (hp : Pump ⟨r, d, w, id :: busy⟩ c) (hid : id ∉ w) :
    Pump ⟨r, d, w, id :: busy⟩ (c.deliver id).2 ∧
      ∀ ch', (c.deliver id).2.channels.get? id = some ch' → ch'.Drained ∧
        ∃ ch, c.channels.get? id = some ch ∧ ((c.deliver id).1 = 0 → ch.Armed → ch'.Armed) ∧
          ch'.inbound.length + (c.deliver id).1 ≤ ch.inbound.length := by
  have hdelivery := delivery c id
  generalize (c.deliver id).1 = n at hdelivery ⊢
  generalize (c.deliver id).2 = e at hdelivery ⊢
  cases hdelivery with
  | refused hnot =>
    refine ⟨hp, fun ch h => ⟨?_, ch, h, fun _ ha => ha, Nat.le_refl _⟩⟩
    intro ho hd hq
    by_contra hb
    exact hnot ch h ⟨ho, hd, fun hz => absurd hz hb⟩
  | @handed ch n reported unflushed journal h hr hn hhand hstays =>
    refine ⟨hp.edit h rfl ⟨rfl, rfl, rfl⟩ rfl (fun ho => ho)
      (fun hmem => absurd List.mem_cons_self hmem), ?_⟩
    intro ch' h'
    rw [Table.get?_insert_self] at h'
    obtain rfl := Option.some.inj h'
    refine ⟨?_, ch, h, ?_, ?_⟩
    · intro _ _ hq
      have hrest : ch.inbound.drop n ≠ [] := hq
      rw [Ne, List.drop_eq_nil_iff] at hrest
      change ch.budget - n = 0
      omega
    · intro hz ha ho hd hb
      apply ha ho hd
      change ch.budget - n = 0 at hb
      omega
    · change (ch.inbound.drop n).length + n ≤ _
      rw [List.length_drop]
      omega
  | @closed ch n reported journal h hr hn hhand hall hs =>
    have hedit : Pump ⟨r, d, w, id :: busy⟩ (c.handed id ch n reported journal) :=
      hp.edit h rfl ⟨rfl, rfl, rfl⟩ rfl (fun ho => ho)
        (fun hmem => absurd List.mem_cons_self hmem)
    refine ⟨hedit.close hid .remote, ?_⟩
    intro ch' h'
    rw [get?_close_self (get?_handed ..) (by exact hr.opened)] at h'
    obtain rfl := Option.some.inj h'
    refine ⟨(Channel.Steady.of_closed rfl).drained, ch, h,
      fun _ _ => (Channel.Steady.of_closed rfl).armed, ?_⟩
    change 0 + n ≤ _
    omega

/-! ### Finished reads -/

/-- The means by which a full batch is drained: it empties the batch and leaves alone the channels
that do not wait in it. -/
def Empties (r : Bool) (w : List ChannelId) (f : Connection → Connection) : Prop :=
  ∀ {c : Connection} {busy : List ChannelId}, Pump ⟨r, false, w, busy⟩ c →
    Pump ⟨r, false, w, busy⟩ (f c) ∧ (f c).batch.queue = [] ∧
      ∀ id ch, c.channels.get? id = some ch → ch.batched = false → ∃ unflushed,
        (f c).channels.get? id = some { ch with unflushed := unflushed }

theorem queued (hp : Pump ⟨true, d, w, id :: busy⟩ c) (h : c.channels.get? id = some ch)
    (ho : ch.closed = false) (hb : ch.batched = false) {batch : ReadBatch}
    (hq : c.batch.enqueue id = (.queued, batch)) :
    Pump ⟨true, d, w, id :: busy⟩
      ({ c with batch := batch }.updateChannel id fun ch => { ch with batched := true }) := by
  have hnot : id ∉ c.batch.queue ++ w := hp.not_mem fun ch' h' => by
    rw [← Option.some.inj (h.symm.trans h')]; exact hb
  rcases enqueue_cases c.batch id with ⟨hq', hdrain, -⟩ | ⟨hq', -⟩ | ⟨hq', -⟩
  case inr.inl => rw [hq'] at hq; cases (Prod.mk.inj hq).1
  case inr.inr => rw [hq'] at hq; cases (Prod.mk.inj hq).1
  obtain rfl := (Prod.mk.inj (hq'.symm.trans hq)).2
  refine
    { reading := hp.reading
      draining := hp.draining
      nodup := ?_
      mem_iff := ?_
      opened := ?_
      cycle := fun _ => rfl
      emptied := fun hd => absurd (hdrain.symm.trans (hp.draining.trans hd)) Bool.false_ne_true
      capacity := hp.capacity
      perRead := hp.perRead
      steady := ?_ }
  · change (c.batch.queue ++ [id] ++ w).Nodup
    rw [List.append_assoc, List.singleton_append, List.perm_middle.nodup_iff, List.nodup_cons]
    exact ⟨hnot, hp.nodup⟩
  · intro j
    change j ∈ c.batch.queue ++ [id] ++ w ↔ _
    have hiff := hp.mem_iff j
    rw [get?_updateChannel]
    simp only [List.mem_append, List.mem_singleton] at hiff ⊢
    split
    next hji => simp [hji, h]
    next hji => simp [hji, hiff]
  · intro j e hj he
    rw [get?_updateChannel] at hj
    split at hj
    next hji =>
      subst hji
      simp only [h, Option.map_some, Option.some.injEq] at hj
      rw [← hj]
      exact ho
    next => exact hp.opened hj he
  · intro j e hj hch
    rw [get?_updateChannel] at hch
    split at hch
    next hji => exact absurd (hji ▸ List.mem_cons_self) hj
    next => exact hp.steady hj hch

theorem fire (hp : Pump ⟨r, d, w, id :: busy⟩ c) (h : c.channels.get? id = some ch)
    (hb : ch.batched = false) :
    Pump ⟨r, d, w, id :: busy⟩ (c.fireReadComplete id) ∧
      (c.fireReadComplete id).channels.get? id =
        some (ch.finishRead c.config.messagesPerRead) := by
  rw [fireReadComplete_eq h]
  refine ⟨hp.edit h rfl ⟨rfl, rfl, rfl⟩ hb.symm (fun ho => ho)
    (fun hmem => absurd List.mem_cons_self hmem), ?_⟩
  rw [Table.get?_insert_self]

variable {f : Connection → Connection}

theorem joinBatch (hp : Pump ⟨true, d, w, id :: busy⟩ c) (hf : d = false → Empties true w f)
    (h : c.channels.get? id = some ch) (ho : ch.closed = false) (hb : ch.batched = false)
    (hdrained : ch.Drained) :
    Connection.joinBatch f c id = (false, c) ∨ ∃ c', Connection.joinBatch f c id = (true, c') ∧
      Pump ⟨true, d, w, id :: busy⟩ c' ∧ ∀ ch', c'.channels.get? id = some ch' → ch'.Steady := by
  rcases enqueue_cases c.batch id with ⟨hq, -⟩ | ⟨hq, hdrain, -⟩ | ⟨hq, -⟩
  · refine .inr ⟨_, joinBatch_of_queued hq, hp.queued h ho hb hq, ?_⟩
    intro ch' h'
    rw [get?_updateChannel, if_pos rfl] at h'
    simp only [h, Option.map_some, Option.some.injEq] at h'
    exact h' ▸ hdrained.steady
  · obtain rfl : d = false := hp.draining.symm.trans hdrain
    obtain ⟨hp', hnil, hleft⟩ := hf rfl hp
    obtain ⟨unflushed, hflushed⟩ := hleft id ch h hb
    rcases joinBatch_of_full hq with ⟨batch, hq', heq⟩ | ⟨hdrain' | hfull, -⟩
    · refine .inr ⟨_, heq, hp'.queued hflushed ho hb hq', ?_⟩
      intro ch' h'
      rw [get?_updateChannel, if_pos rfl] at h'
      simp only [hflushed, Option.map_some, Option.some.injEq] at h'
      exact h' ▸ ⟨fun _ _ _ => rfl, hdrained⟩
    · exact absurd (hp'.draining.symm.trans hdrain') Bool.false_ne_true
    · rw [hnil] at hfull
      exact absurd hp'.capacity (Nat.not_lt_of_le hfull)
  · exact .inl (joinBatch_of_draining hq)

theorem completeRead (hp : Pump ⟨r, d, w, id :: busy⟩ c) (hf : d = false → Empties r w f)
    (hdrained : ∀ ch, c.channels.get? id = some ch → ch.Drained) {completed : Bool}
    (heq : Connection.completeRead f c id = (completed, c')) :
    Pump ⟨r, d, w, id :: busy⟩ c' ∧ ∀ ch', c'.channels.get? id = some ch' →
      if completed then
        ch'.Armed ∧ ∃ ch, c.channels.get? id = some ch ∧ ch'.inbound = ch.inbound
      else ch'.Steady := by
  rw [Connection.completeRead] at heq
  split at heq
  next h =>
    obtain ⟨rfl, rfl⟩ := Prod.mk.inj heq
    refine ⟨hp, ?_⟩
    intro ch' h'
    rw [h] at h'
    cases h'
  next ch h =>
    split at heq
    next hskip =>
      obtain ⟨rfl, rfl⟩ := Prod.mk.inj heq
      refine ⟨hp, ?_⟩
      intro ch' h'
      obtain rfl := Option.some.inj (h.symm.trans h')
      rcases Bool.or_eq_true _ _ ▸ hskip with hclosed | hb
      · exact .of_closed hclosed
      · exact ⟨fun _ _ _ => hb, hdrained ch h⟩
    next hgo =>
      rw [Bool.or_eq_true, not_or, Bool.not_eq_true, Bool.not_eq_true] at hgo
      obtain ⟨ho, hb⟩ := hgo
      have hfire : Pump ⟨r, d, w, id :: busy⟩ (c.fireReadComplete id) ∧
          ∀ ch', (c.fireReadComplete id).channels.get? id = some ch' →
            ch'.Armed ∧ ∃ ch, c.channels.get? id = some ch ∧ ch'.inbound = ch.inbound := by
        obtain ⟨hp', hch⟩ := hp.fire h hb
        refine ⟨hp', ?_⟩
        intro ch' h'
        obtain rfl := Option.some.inj (hch.symm.trans h')
        exact ⟨ch.armed_finishRead hp.perRead, ch, h, rfl⟩
      by_cases hjoin : (c.reading && decide (0 < ch.budget)) = true
      · have hr : r = true := hp.reading.symm.trans (Bool.and_eq_true _ _ ▸ hjoin).1
        subst hr
        rw [if_pos hjoin] at heq
        rcases hp.joinBatch hf h ho hb (hdrained ch h) with hno | ⟨d, hyes, hp', hsteady⟩
        · rw [hno] at heq
          obtain ⟨rfl, rfl⟩ := Prod.mk.inj heq
          exact hfire
        · rw [hyes] at heq
          obtain ⟨rfl, rfl⟩ := Prod.mk.inj heq
          exact ⟨hp', hsteady⟩
      · rw [if_neg hjoin] at heq
        obtain ⟨rfl, rfl⟩ := Prod.mk.inj heq
        exact hfire

/-! ### Reads one after another -/

/-- Every round delivers an item or leaves the channel steady, so there are rounds enough. -/
theorem readRounds (hp : Pump ⟨r, d, w, id :: busy⟩ c) (hf : d = false → Empties r w f)
    (hid : id ∉ w) (rounds : Nat)
    (hch : ∀ ch, c.channels.get? id = some ch → ch.Armed ∧ ch.inbound.length < rounds) :
    Pump ⟨r, d, w, busy⟩ (Connection.readRounds f id rounds c) := by
  induction rounds generalizing c with
  | zero => exact hp.done fun ch h => absurd (hch ch h).2 (Nat.not_lt_zero _)
  | succ rounds ih =>
    obtain ⟨hdelivered, hafter⟩ := hp.deliver hid
    rw [Connection.readRounds]
    generalize c.deliver id = result at hdelivered hafter ⊢
    obtain ⟨n, c₁⟩ := result
    dsimp only at hdelivered hafter ⊢
    split
    next hn =>
      apply hdelivered.done
      intro ch' h'
      obtain ⟨hdrained, ch, h, harmed, -⟩ := hafter ch' h'
      exact ⟨harmed hn (hch ch h).1, hdrained⟩
    next hn =>
      rcases hcomplete : Connection.completeRead f c₁ id with ⟨completed, c₂⟩
      obtain ⟨hcompleted, hthen⟩ :=
        hdelivered.completeRead hf (fun ch h => (hafter ch h).1) hcomplete
      dsimp only
      split
      next hagain =>
        have hyes : completed = true := (Bool.and_eq_true _ _ ▸ hagain).1
        subst hyes
        apply ih hcompleted
        intro ch₂ h₂
        obtain ⟨harmed, ch₁, h₁, heq⟩ := hthen ch₂ h₂
        obtain ⟨-, ch, h, -, hlen⟩ := hafter ch₁ h₁
        refine ⟨harmed, ?_⟩
        have hlt := (hch ch h).2
        rw [heq]
        omega
      next hstop =>
        apply hcompleted.done
        intro ch₂ h₂
        have hlast := hthen ch₂ h₂
        cases completed with
        | false => exact hlast
        | true =>
          -- The read was completed and nothing is wanted or there is nothing.
          refine ⟨hlast.1, fun ho hd hq => absurd ?_ hstop⟩
          simp [wantsMore, Channel.isHungry, h₂, ho, hd, hq]

theorem drainWith (hp : Pump ⟨r, d, w, id :: busy⟩ c) (hf : d = false → Empties r w f)
    (hid : id ∉ w) (harmed : ∀ ch, c.channels.get? id = some ch → ch.Armed) :
    Pump ⟨r, d, w, busy⟩ (Connection.drainWith f c id) :=
  hp.readRounds hf hid _ fun ch h => ⟨harmed ch h, by
    rw [inboundSize, h]
    exact Nat.lt_succ_self _⟩

/-! ### Draining the batch -/

/-- A read that waited is completed. -/
theorem fireWaiting (hp : Pump ⟨r, d, id :: w, busy⟩ c) (h : c.channels.get? id = some ch) :
    Pump ⟨r, d, w, id :: busy⟩ { c with
      channels := c.channels.insert id (ch.finishRead c.config.messagesPerRead)
      journal := c.journal.push (.event ⟨id, .readComplete⟩) } := by
  have hnodup := hp.nodup
  rw [List.perm_middle.nodup_iff, List.nodup_cons] at hnodup
  refine { hp with
    nodup := hnodup.2
    mem_iff := ?_
    opened := ?_
    steady := ?_ }
  · intro j
    have hiff := hp.mem_iff j
    simp only [List.mem_append, List.mem_cons, Table.get?_insert] at hiff ⊢
    split
    next hji =>
      subst hji
      simpa [Channel.finishRead] using hnodup.1
    next hji => simpa [hji] using hiff
  · intro j e hj he
    rcases Table.get?_insert_cases hj with ⟨-, rfl⟩ | hj
    · cases he
    · exact hp.opened hj he
  · intro j e hj hch
    rcases Table.get?_insert_cases hch with ⟨hji, rfl⟩ | hch
    · exact absurd (hji ▸ List.mem_cons_self) hj
    · exact hp.steady (fun hmem => hj (List.mem_cons_of_mem _ hmem)) hch

theorem resume (hp : Pump ⟨r, true, id :: w, busy⟩ c) : Pump ⟨r, true, w, busy⟩ (c.resume id) := by
  obtain ⟨ch, h, hb⟩ := (hp.mem_iff id).mp (List.mem_append_right _ List.mem_cons_self)
  have hid : id ∉ w := (List.nodup_cons.mp (List.nodup_append.mp hp.nodup).2.1).1
  have hskip : ¬ (ch.closed || !ch.batched) = true := by simp [hp.opened h hb, hb]
  have hfired := hp.fireWaiting h
  have harmed := ch.armed_finishRead hp.perRead
  rw [Connection.resume, h]
  dsimp only
  rw [if_neg hskip, fireReadComplete_eq h]
  simp only [Table.get?_insert, if_true, Option.any_some]
  split
  next =>
    apply hfired.drainWith (fun hdraining => by cases hdraining) hid
    intro ch' h'
    rw [Table.get?_insert_self] at h'
    exact Option.some.inj h' ▸ harmed
  next hfed =>
    apply hfired.done
    intro ch' h'
    rw [Table.get?_insert_self] at h'
    obtain rfl := Option.some.inj h'
    refine ⟨harmed, fun _ hd hq => absurd ?_ hfed⟩
    simp [Channel.isHungry, hd, hq]

theorem foldl_resume (hp : Pump ⟨r, true, w, busy⟩ c) :
    Pump ⟨r, true, [], busy⟩ (w.foldl Connection.resume c) := by
  induction w generalizing c with
  | nil => exact hp
  | cons id w ih => exact ih hp.resume

theorem beginDrain (hp : Pump ⟨r, false, [], busy⟩ c) :
    Pump ⟨r, true, c.batch.queue, busy⟩ { c with batch := c.batch.beginDrain.2 } :=
  { hp with
    draining := rfl
    nodup := (List.append_nil c.batch.queue) ▸ hp.nodup
    mem_iff := (List.append_nil c.batch.queue) ▸ hp.mem_iff
    cycle := fun hq => absurd rfl hq
    emptied := fun _ => rfl }

theorem finishDrain (hp : Pump ⟨r, true, [], busy⟩ c) :
    Pump ⟨r, false, [], busy⟩ { c with batch := c.batch.finishDrain } :=
  { hp with draining := rfl, emptied := nofun }

theorem swept (hp : Pump ⟨r, d, w, busy⟩ c) :
    Pump ⟨r, d, w, busy⟩ { c with channels := c.channels.mapEntries fun _ => flushed }.flush := by
  have hbeside : Beside c { c with channels := c.channels.mapEntries fun _ => flushed }.flush :=
    { Beside.refl c with
      channels := .mapEntries _ fun _ _ => .of_eq rfl rfl rfl rfl rfl rfl rfl
      journal := (Journal.Apart.refl _).push rfl }
  obtain rfl : c.reading = r := hp.reading
  exact hp.beside hbeside

theorem empties_drainBatch : Empties r [] drainBatch := by
  intro c busy hp
  have hbegun := hp.beginDrain
  rw [drainBatch]
  dsimp only
  split
  next hnil =>
    have hnil : c.batch.queue = [] := hnil
    rw [hnil] at hbegun
    exact ⟨hbegun.finishDrain, rfl, fun id ch h _ => ⟨ch.unflushed, h⟩⟩
  next =>
    have hdrained := hbegun.foldl_resume
    refine ⟨hdrained.finishDrain.swept, hdrained.emptied rfl, fun id ch h hb => ⟨false, ?_⟩⟩
    have hid : id ∉ c.batch.queue := by
      intro hmem
      have hnot : id ∉ c.batch.queue ++ [] := hp.not_mem fun ch' h' =>
        Option.some.inj (h.symm.trans h') ▸ hb
      exact hnot (List.mem_append_left _ hmem)
    have hsame := (get?_foldl_resume_of_notMem (c := { c with batch := c.batch.beginDrain.2 })
      c.batch.queue hid).trans h
    exact (Table.get?_mapEntries ..).trans (congrArg (Option.map flushed) hsame)

theorem drain (hp : Pump ⟨r, false, [], id :: busy⟩ c)
    (harmed : ∀ ch, c.channels.get? id = some ch → ch.Armed) :
    Pump ⟨r, false, [], busy⟩ (c.drain id) :=
  hp.drainWith (fun _ => empties_drainBatch) List.not_mem_nil harmed

theorem readCycleEnded (hp : Pump ⟨r, false, [], []⟩ c) :
    Pump ⟨false, false, [], []⟩ c.readCycleEnded ∧ c.readCycleEnded.batch.queue = [] := by
  obtain ⟨hdrained, hnil, -⟩ := empties_drainBatch hp
  exact ⟨{ hdrained with reading := rfl, cycle := fun hq => absurd hnil hq }, hnil⟩

/-- An item has arrived and waits in the queue of its channel. -/
theorem received (hp : Pump ⟨r, false, [], []⟩ c) (h : c.channels.get? id = some ch)
    (item : Inbound) :
    Pump ⟨r, false, [], [id]⟩ { c with channels := c.channels.insert id (ch.receive item) } ∧
      (ch.receive item).Armed := by
  have hsame : (ch.receive item).closed = ch.closed ∧ (ch.receive item).demand = ch.demand ∧
      (ch.receive item).budget = ch.budget ∧ (ch.receive item).batched = ch.batched := by
    rw [Channel.receive]
    dsimp only
    split <;> exact ⟨rfl, rfl, rfl, rfl⟩
  obtain ⟨hclosed, hdemand, hbudget, hbatched⟩ := hsame
  refine ⟨(hp.begin id).edit h rfl ⟨rfl, rfl, rfl⟩ hbatched (fun ho => hclosed.trans ho)
    fun hmem => absurd List.mem_cons_self hmem, ?_⟩
  intro ho hd hb
  rw [hbatched]
  exact (hp.steady List.not_mem_nil h).armed (hclosed ▸ ho) (hdemand ▸ hd) (hbudget ▸ hb)

theorem receive (hp : Pump ⟨r, false, [], []⟩ c) (h : c.channels.get? id = some ch)
    (item : Inbound) : Pump ⟨r, false, [], []⟩ (c.receive id ch item) := by
  obtain ⟨hreceived, harmed⟩ := hp.received h item
  have hdemand : (ch.receive item).demand = ch.demand := by
    rw [Channel.receive]
    dsimp only
    split <;> rfl
  have honly : ∀ ch', ({ c with channels := c.channels.insert id (ch.receive item)
      } : Connection).channels.get? id = some ch' → ch' = ch.receive item := by
    intro ch' h'
    rw [Table.get?_insert_self] at h'
    exact (Option.some.inj h').symm
  rw [Connection.receive]
  split
  next hidle =>
    exact hreceived.done fun ch' h' => honly ch' h' ▸ .of_idle (hdemand.trans hidle)
  next => exact hreceived.drain fun ch' h' => honly ch' h' ▸ harmed

/-- A read is asked for: a new one has its whole budget, and one that goes on stays as it is. -/
theorem requestRead (hp : Pump ⟨r, false, [], busy⟩ c) (hbusy : id ∉ busy)
    (h : c.channels.get? id = some ch) :
    Pump ⟨r, false, [], id :: busy⟩ (c.updateChannel id (·.requestRead c.config.messagesPerRead)) ∧
      ∀ ch', (c.updateChannel id (·.requestRead c.config.messagesPerRead)).channels.get? id =
        some ch' → ch'.Armed ∧ (ch.demand ≠ .idle → ch'.Steady) := by
  have hpos := hp.perRead
  have hsteady := hp.steady hbusy h
  have hsame : (ch.requestRead c.config.messagesPerRead).batched = ch.batched ∧
      (ch.requestRead c.config.messagesPerRead).closed = ch.closed := by
    rw [Channel.requestRead]
    split <;> exact ⟨rfl, rfl⟩
  rw [updateChannel_eq h]
  refine ⟨(hp.begin id).edit h rfl ⟨rfl, rfl, rfl⟩ hsame.1 (fun ho => hsame.2.trans ho)
    fun hmem => absurd List.mem_cons_self hmem, ?_⟩
  intro ch' h'
  rw [Table.get?_insert_self] at h'
  obtain rfl := Option.some.inj h'
  cases hd : ch.demand with
  | idle =>
    simp only [Channel.requestRead, hd]
    exact ⟨fun _ _ hb => absurd hb (Nat.ne_of_gt hpos), fun hne => absurd rfl hne⟩
  | inProgress | requested =>
    have hgoes : ch.demand ≠ .idle := by rw [hd]; decide
    simp only [Channel.requestRead, hd]
    exact ⟨fun ho _ hb => hsteady.armed ho hgoes hb,
      fun _ => ⟨fun ho _ hb => hsteady.armed ho hgoes hb,
        fun ho _ hq => hsteady.drained ho hgoes hq⟩⟩

theorem beginRead (hp : Pump ⟨r, false, [], []⟩ c) (id : ChannelId) :
    Pump ⟨r, false, [], []⟩ (c.beginRead id) := by
  rw [Connection.beginRead]
  split
  · exact hp
  next ch h =>
    split
    · exact hp
    · obtain ⟨hasked, hch⟩ := hp.requestRead List.not_mem_nil h
      dsimp only
      split
      · exact hasked.drain fun ch' h' => (hch ch' h').1
      next hgoes => exact hasked.done fun ch' h' => (hch ch' h').2 hgoes

theorem automated (hp : Pump p c) (h : c.channels.get? id = some ch) (on : Bool) :
    Pump p (c.updateChannel id fun ch => { ch with autoRead := on }) ∧
      (c.updateChannel id fun ch => { ch with autoRead := on }).channels.get? id =
        some { ch with autoRead := on } := by
  rw [updateChannel_eq h]
  exact ⟨hp.edit_same h rfl ⟨rfl, rfl, rfl⟩ ⟨rfl, rfl, rfl, rfl, rfl⟩, Table.get?_insert_self ..⟩

theorem setAutoRead (hp : Pump ⟨r, false, [], []⟩ c) (id : ChannelId) (on : Bool) :
    Pump ⟨r, false, [], []⟩ (c.setAutoRead id on) := by
  rw [Connection.setAutoRead]
  split
  · exact hp
  next ch h =>
    obtain ⟨hset, hch⟩ := hp.automated h on
    dsimp only
    split
    · obtain ⟨hasked, hafter⟩ := hset.requestRead List.not_mem_nil hch
      exact hasked.drain fun ch' h' => (hafter ch' h').1
    · exact hset

end Pump

/-! ## Between calls -/

/-- The pump stands still and has nothing to do. -/
def AtRest (c : Connection) : Prop := Pump ⟨c.reading, false, [], []⟩ c

namespace AtRest

variable {strict : Prop} {c c' : Connection} {r : Bool}

theorem of_pump (hp : Pump ⟨r, false, [], []⟩ c) : c.AtRest := by
  obtain rfl : c.reading = r := hp.reading
  exact hp

theorem registryStep (hp : c.AtRest) (ht : c.Tidy) (h : RegistryStep strict c c') : c'.AtRest := by
  cases h with
  | beside h => exact Pump.beside hp h
  | closed id kind => exact .of_pump (Pump.close hp List.not_mem_nil kind)
  | made path => exact Pump.made hp ht path
  | assigned h ho _ _ _ =>
    exact Pump.edit_same hp h rfl ⟨rfl, rfl, rfl⟩ ⟨rfl, rfl, rfl, rfl, rfl⟩
  | forgotten h ho hb hr =>
    exact Pump.erase hp (fun ch' h' => Option.some.inj (h.symm.trans h') ▸ hb) rfl ⟨rfl, rfl, rfl⟩
  | ended h ho _ _ =>
    exact Pump.edit_same hp h rfl ⟨rfl, rfl, rfl⟩ ⟨rfl, rfl, rfl, rfl, rfl⟩
  | expired stream =>
    have hp : Pump ⟨c.reading, false, [], []⟩ c := hp
    exact { hp with }
  | tornDown h =>
    refine Pump.erase hp (fun ch hch => Bool.eq_false_iff.mpr ?_) rfl ⟨rfl, rfl, rfl⟩
    intro hb
    have hclosed := (ht.doomed (h ▸ List.mem_cons_self)).2 ch hch
    exact absurd ((Pump.opened hp hch hb).symm.trans hclosed) Bool.false_ne_true
  | cleared hnone =>
    have hclosed : ∀ id ch, c.channels.get? id = some ch → ch.closed = true := by
      intro id ch h
      have hopen := hnone id
      rw [isOpen_of_get? h] at hopen
      simpa using hopen
    exact
      { reading := rfl
        draining := rfl
        nodup := List.nodup_nil
        mem_iff := by
          intro id
          constructor
          · intro hmem
            exact absurd hmem List.not_mem_nil
          · rintro ⟨ch, h, hb⟩
            exact absurd ((Pump.opened hp h hb).symm.trans (hclosed id ch h)) Bool.false_ne_true
        opened := fun h hb => Pump.opened hp h hb
        cycle := fun hq => absurd rfl hq
        emptied := nofun
        capacity := (Pump.capacity hp :)
        perRead := (Pump.perRead hp :)
        steady := fun _ h => .of_closed (hclosed _ _ h) }
  | received item h hi => exact .of_pump (Pump.receive hp h item)
  | cycleEnded => exact .of_pump (Pump.readCycleEnded hp).1
  | readBegun id => exact .of_pump (Pump.beginRead hp id)
  | autoReadSet id on => exact .of_pump (Pump.setAutoRead hp id on)

end AtRest

theorem atRest_start {config : Config} {encoder : Encoder} {c : Connection}
    (h : start config encoder = .ok c) : c.AtRest := by
  obtain ⟨rfl, hvalid⟩ := start_eq h
  obtain ⟨-, -, -, hperRead⟩ := Config.validate_eq_ok_iff.mp hvalid
  exact
    { reading := rfl
      draining := rfl
      nodup := List.nodup_nil
      mem_iff := fun id =>
        ⟨fun hmem => absurd hmem List.not_mem_nil, fun ⟨_, h, _⟩ => (nomatch h)⟩
      opened := fun h => (nomatch h)
      cycle := fun hq => absurd rfl hq
      emptied := nofun
      capacity := ReadBatch.capacity_pos_setCapacity (.ofCapacity 1) _
      perRead := hperRead
      steady := fun _ h => (nomatch h) }

theorem atRest_run {config : Config} {encoder : Encoder} {c : Connection}
    (h : start config encoder = .ok c) (ks : List Call) : (c.run ks).AtRest := by
  have hboth : (c.run ks).Tidy ∧ (c.run ks).AtRest :=
    (registryPath_run c ks (False.elim : False → _)).induction (P := fun d => d.Tidy ∧ d.AtRest)
      (fun _ _ hs hd => ⟨hd.1.registryStep hs, hd.2.registryStep hd.1 hs⟩)
      ⟨tidy_start h, atRest_start h⟩
  exact hboth.2

/-- In every state between two calls of a run the batch holds the open channels whose finished reads
wait, each once, and outside a read cycle it holds none; what an open channel wants and has received
is held back only by a spent budget, and then the channel waits in the batch.  Once a read cycle
has ended, no read waits and nothing that is wanted is held back. -/
theorem received_is_delivered_or_waits {config : Config} {encoder : Encoder} {c : Connection}
    (h : start config encoder = .ok c) (ks : List Call) :
    -- the batch
    ((c.run ks).batch.queue.Nodup ∧
      (∀ id, id ∈ (c.run ks).batch.queue ↔ ∃ ch, (c.run ks).channels.get? id = some ch ∧
        ch.closed = false ∧ ch.batched = true) ∧
      ((c.run ks).batch.queue ≠ [] → (c.run ks).reading = true)) ∧
    -- the channels
    (∀ id ch, (c.run ks).channels.get? id = some ch → ch.closed = false → ch.demand ≠ .idle →
      (ch.inbound ≠ [] → ch.budget = 0 ∧ id ∈ (c.run ks).batch.queue) ∧
      (ch.budget = 0 → ch.batched = true)) ∧
    -- the end of a read cycle
    (∀ id ch, (c.run (ks ++ [.readCycleEnded])).channels.get? id = some ch →
      ch.batched = false ∧
      (ch.closed = false → ch.demand ≠ .idle → ch.inbound = [] ∧ 0 < ch.budget)) := by
  have hp := atRest_run h ks
  have hmem : ∀ id, id ∈ (c.run ks).batch.queue ↔
      ∃ ch, (c.run ks).channels.get? id = some ch ∧ ch.batched = true := by
    intro id
    rw [← hp.mem_iff, List.append_nil]
  refine ⟨⟨?_, ?_, hp.cycle⟩, ?_, ?_⟩
  · rw [← List.append_nil (c.run ks).batch.queue]
    exact hp.nodup
  · intro id
    rw [hmem]
    constructor
    · rintro ⟨ch, hch, hb⟩
      exact ⟨ch, hch, hp.opened hch hb, hb⟩
    · rintro ⟨ch, hch, _, hb⟩
      exact ⟨ch, hch, hb⟩
  · intro id ch hch ho hd
    obtain ⟨harmed, hdrained⟩ := hp.steady List.not_mem_nil hch
    refine ⟨?_, harmed ho hd⟩
    intro hq
    have hb := hdrained ho hd hq
    exact ⟨hb, (hmem id).mpr ⟨ch, hch, harmed ho hd hb⟩⟩
  · intro id ch hch
    rw [run_append] at hch
    obtain ⟨hp', hnil⟩ := Pump.readCycleEnded hp
    have hunbatched : ch.batched = false :=
      hp'.not_batched hch (by rw [hnil]; exact List.not_mem_nil)
    obtain ⟨harmed, hdrained⟩ := hp'.steady List.not_mem_nil hch
    refine ⟨hunbatched, ?_⟩
    intro ho hd
    have hpos : 0 < ch.budget := Nat.pos_of_ne_zero fun hz =>
      absurd (hunbatched.symm.trans (harmed ho hd hz)) Bool.false_ne_true
    refine ⟨Classical.byContradiction ?_, hpos⟩
    intro hq
    exact absurd (hdrained ho hd hq) (Nat.ne_of_gt hpos)

/-- Of three items one read delivers two, and the channel waits in the batch with the third. -/
theorem third_item_waits :
    ∃ ch, ((fresh { messagesPerRead := 2 } .willing).run (Call.opening ++ [.readCycleEnded,
        .frame (.data 3 [1] 0 false), .frame (.data 3 [2] 0 false),
        .frame (.data 3 [3] 0 false)])).channels.get? 1 = some ch ∧
      ch.closed = false ∧ ch.batched = true :=
  ((received_is_delivered_or_waits (rfl : start { messagesPerRead := 2 } .willing =
    .ok (fresh { messagesPerRead := 2 } .willing)) _).1.2.1 1).mp (by decide)

end Connection

end ChannelMux
