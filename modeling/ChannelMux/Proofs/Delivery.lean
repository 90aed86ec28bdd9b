import ChannelMux.Proofs.QueueSteps
import ChannelMux.Proofs.Registration
import Mathlib.Data.List.Induction

/-!
# Delivery: what arrives for a channel is read in its order

While a channel is open, what has arrived for it is what was read, followed by its queue
(`Delivering.flows`); when it is closed, what was read remains a prefix of that.  With each payload
that is read its length is reported as consumed, on the stream of the channel.  An item is received
only while its payload has not been counted as arrived, which the law itself shows
(`Delivering.queueStep`).
-/

namespace ChannelMux.Connection

variable {k : Cause} {c c' : Connection} {id : ChannelId} {ch ch' : Channel} {s t u v : Stage}

/-! ## The law -/

/-- What holds at any time of the channels, for which the given payloads have arrived so far. -/
structure Delivering (A : ChannelId → List Bytes) (c : Connection) : Prop where
  flows : ∀ id ch, c.channels.get? id = some ch → ch.closed = false →
    A id = c.journal.reads id ++ ch.inbound.filterMap Inbound.payload?
  bounded : ∀ id, c.journal.reads id <+: A id
  drained : ∀ id ch, c.channels.get? id = some ch → ch.closed = true → ch.inbound = []
  unmade : ∀ id, c.nextChannel ≤ id → A id = []
  unasked : ∀ id ch, c.channels.get? id = some ch → ch.closed = false →
    ch.handshake = .awaitingSettings → A id = []
  weighed : ∀ id, (c.journal.consumed id).map Prod.snd = (c.journal.reads id).map List.length
  named : ∀ id ch, c.channels.get? id = some ch → ∀ p ∈ c.journal.consumed id, p.1 = ch.stream

namespace Delivering

variable {A B : ChannelId → List Bytes}

/-- Nothing was consumed for a channel for which nothing has arrived. -/
theorem consumed_eq_nil (h : Delivering A c) (hid : A id = []) : c.journal.consumed id = [] := by
  have hreads : c.journal.reads id = [] := List.prefix_nil.mp (hid ▸ h.bounded id)
  have hweighed := h.weighed id
  rw [hreads, List.map_nil, List.map_eq_nil_iff] at hweighed
  exact hweighed

/-- The stream of a channel on which something was consumed does not change. -/
theorem named_of_follows (h : Delivering A c) (hch : c.channels.get? id = some ch)
    (hfollows : ch.Follows ch') : ∀ p ∈ c.journal.consumed id, p.1 = ch'.stream := by
  intro p hp
  rcases hfollows.stream with heq | ⟨ho, ha⟩
  · rw [heq]
    exact h.named id ch hch p hp
  · rw [h.consumed_eq_nil (h.unasked id ch hch ho ha)] at hp
    cases hp

theorem still (h : Delivering A c) (hnext : c.nextChannel ≤ c'.nextChannel)
    (hmute : c.journal.Mute c'.journal) (hchannels : c.channels.Matches Channel.Still c'.channels) :
    Delivering A c' where
  flows id ch' hch' ho := by
    obtain ⟨ch, hch, hstill⟩ := hchannels.back hch'
    rw [(hmute id).1, hstill.inbound]
    exact h.flows id ch hch (hstill.closed.symm.trans ho)
  bounded id := (hmute id).1 ▸ h.bounded id
  drained id ch' hch' hclosed := by
    obtain ⟨ch, hch, hstill⟩ := hchannels.back hch'
    rw [hstill.inbound]
    exact h.drained id ch hch (hstill.closed.symm.trans hclosed)
  unmade id hid := h.unmade id (Nat.le_trans hnext hid)
  unasked id ch' hch' ho ha := by
    obtain ⟨ch, hch, hstill⟩ := hchannels.back hch'
    obtain ⟨ho, ha⟩ := hstill.follows.waiting ho ha
    exact h.unasked id ch hch ho ha
  weighed id := by rw [(hmute id).1, (hmute id).2]; exact h.weighed id
  named id ch' hch' := by
    obtain ⟨ch, hch, hstill⟩ := hchannels.back hch'
    rw [(hmute id).2]
    exact h.named_of_follows hch hstill.follows

/-- One channel has got a new value. -/
theorem of_insert (h : Delivering A c) (hchannels : c'.channels = c.channels.insert id ch')
    (hnext : c.nextChannel ≤ c'.nextChannel) (hid : id < c'.nextChannel)
    (hothers : ∀ i ≠ id, c'.journal.reads i = c.journal.reads i ∧
      c'.journal.consumed i = c.journal.consumed i ∧ B i = A i)
    (hflows : ch'.closed = false →
      B id = c'.journal.reads id ++ ch'.inbound.filterMap Inbound.payload?)
    (hbounded : c'.journal.reads id <+: B id) (hdrained : ch'.closed = true → ch'.inbound = [])
    (hunasked : ch'.closed = false → ch'.handshake = .awaitingSettings → B id = [])
    (hweighed : (c'.journal.consumed id).map Prod.snd = (c'.journal.reads id).map List.length)
    (hnamed : ∀ p ∈ c'.journal.consumed id, p.1 = ch'.stream) : Delivering B c' := by
  have hcases {i : ChannelId} {d : Channel} (hd : c'.channels.get? i = some d) :
      i = id ∧ d = ch' ∨ i ≠ id ∧ c.channels.get? i = some d := by
    rw [hchannels, Table.get?_insert] at hd
    split at hd
    next hi => exact .inl ⟨hi, (Option.some.inj hd).symm⟩
    next hi => exact .inr ⟨hi, hd⟩
  refine
    { flows := ?_
      bounded := ?_
      drained := ?_
      unmade := ?_
      unasked := ?_
      weighed := ?_
      named := ?_ }
  · intro i d hd ho
    rcases hcases hd with ⟨rfl, rfl⟩ | ⟨hi, hd⟩
    · exact hflows ho
    · obtain ⟨hreads, -, hA⟩ := hothers i hi
      rw [hreads, hA]
      exact h.flows i d hd ho
  · intro i
    by_cases hi : i = id
    · exact hi ▸ hbounded
    · obtain ⟨hreads, -, hA⟩ := hothers i hi
      rw [hreads, hA]
      exact h.bounded i
  · intro i d hd hclosed
    rcases hcases hd with ⟨rfl, rfl⟩ | ⟨hi, hd⟩
    · exact hdrained hclosed
    · exact h.drained i d hd hclosed
  · intro i hi
    rw [(hothers i (Nat.ne_of_gt (Nat.lt_of_lt_of_le hid hi))).2.2]
    exact h.unmade i (Nat.le_trans hnext hi)
  · intro i d hd ho ha
    rcases hcases hd with ⟨rfl, rfl⟩ | ⟨hi, hd⟩
    · exact hunasked ho ha
    · rw [(hothers i hi).2.2]
      exact h.unasked i d hd ho ha
  · intro i
    by_cases hi : i = id
    · exact hi ▸ hweighed
    · obtain ⟨hreads, hconsumed, -⟩ := hothers i hi
      rw [hreads, hconsumed]
      exact h.weighed i
  · intro i d hd
    rcases hcases hd with ⟨rfl, rfl⟩ | ⟨hi, hd⟩
    · exact hnamed
    · rw [(hothers i hi).2.1]
      exact h.named i d hd

theorem made (h : Delivering A c) (hchannels : c'.channels = c.channels.insert c.nextChannel ch)
    (hempty : ch.inbound = []) (hnext : c'.nextChannel = c.nextChannel + 1)
    (hmute : c.journal.Mute c'.journal) : Delivering A c' := by
  have hnone : A c.nextChannel = [] := h.unmade _ (Nat.le_refl _)
  have hreads : c.journal.reads c.nextChannel = [] :=
    List.prefix_nil.mp (hnone ▸ h.bounded c.nextChannel)
  have hid : c.nextChannel < c'.nextChannel := by rw [hnext]; exact Nat.lt_succ_self _
  refine h.of_insert hchannels (Nat.le_of_lt hid) hid
    (fun i _ => ⟨(hmute i).1, (hmute i).2, rfl⟩) ?_ ?_ (fun _ => hempty) (fun _ _ => hnone) ?_ ?_
  · intro _
    rw [(hmute _).1, hnone, hreads, hempty]
    rfl
  · rw [(hmute _).1]
    exact h.bounded _
  · rw [(hmute _).1, (hmute _).2]
    exact h.weighed _
  · rw [(hmute _).2, h.consumed_eq_nil hnone]
    exact fun p hp => absurd hp List.not_mem_nil

/-- An item is queued behind what has arrived before. -/
theorem received (h : Delivering A c) (ht : c.Tidy) (hch : c.channels.get? id = some ch)
    (ho : ch.closed = false) (ha : ch.handshake ≠ .awaitingSettings) (item : Inbound)
    (hself : B id = A id ++ item.payload?.toList) (hothers : ∀ i ≠ id, B i = A i) :
    Delivering B { c with channels := c.channels.insert id (ch.receive item) } := by
  have halike := alike_receive ch item
  have hqueue : (ch.receive item).inbound = ch.inbound ++ [item] := by
    rw [Channel.receive]
    dsimp only
    split <;> rfl
  refine h.of_insert rfl (Nat.le_refl _) (ht.numbered hch)
    (fun i hi => ⟨rfl, rfl, hothers i hi⟩) ?_ ?_ ?_ ?_ (h.weighed id) ?_
  · intro _
    rw [hself, h.flows id ch hch ho, hqueue, List.filterMap_append, List.append_assoc]
    cases item <;> rfl
  · rw [hself]
    exact (h.bounded id).trans (List.prefix_append _ _)
  · intro hclosed
    exact absurd (ho.symm.trans (halike.closed.symm.trans hclosed)) (by decide)
  · intro _ hwaits
    exact absurd (halike.handshake.symm.trans hwaits) ha
  · intro p hp
    rw [halike.stream]
    exact h.named id ch hch p hp

/-- The first item of a queue is read. -/
theorem handed (h : Delivering A c) (ht : c.Tidy) (hch : c.channels.get? id = some ch)
    (ho : ch.closed = false) {item : Inbound} {rest : List Inbound}
    (hq : ch.inbound = item :: rest) : Delivering A { c with
      channels := c.channels.insert id { ch with inbound := rest }
      journal := c.journal.report id ch.stream item } := by
  have hreads : (c.journal.report id ch.stream item).reads id =
      c.journal.reads id ++ item.payload?.toList := by
    rw [Journal.reads_report, if_pos rfl]
  have hconsumed : (c.journal.report id ch.stream item).consumed id = c.journal.consumed id ++
      item.payload?.toList.map fun payload => (ch.stream, payload.length) := by
    rw [Journal.consumed_report, if_pos rfl]
  have hflows : A id = (c.journal.report id ch.stream item).reads id ++
      rest.filterMap Inbound.payload? := by
    rw [hreads, h.flows id ch hch ho, hq, List.append_assoc]
    cases item <;> rfl
  refine h.of_insert rfl (Nat.le_refl _) (ht.numbered hch) ?_ (fun _ => hflows) ?_ ?_ ?_ ?_ ?_
  · intro i hi
    refine ⟨?_, ?_, rfl⟩
    · exact (Journal.reads_report ..).trans (by rw [if_neg hi, List.append_nil])
    · exact (Journal.consumed_report ..).trans (by rw [if_neg hi, List.append_nil])
  · exact hflows ▸ List.prefix_append _ _
  · intro hclosed
    exact absurd (ho.symm.trans hclosed) (by decide)
  · exact h.unasked id ch hch
  · change ((c.journal.report id ch.stream item).consumed id).map Prod.snd =
      ((c.journal.report id ch.stream item).reads id).map List.length
    rw [hreads, hconsumed, List.map_append, List.map_append, h.weighed, List.map_map]
    rfl
  · intro p hp
    rw [hconsumed, List.mem_append, List.mem_map] at hp
    rcases hp with hp | ⟨_, -, rfl⟩
    · exact h.named id ch hch p hp
    · rfl

/-- A channel is closed and keeps nothing. -/
theorem ended (h : Delivering A c) (ht : c.Tidy) (hch : c.channels.get? id = some ch)
    (ho : ch.closed = false) (hchannels : c'.channels = c.channels.insert id ch')
    (hover : ch.Over ch') (hnext : c'.nextChannel = c.nextChannel)
    (hmute : c.journal.Mute c'.journal) : Delivering A c' := by
  have hclosed (ho' : ch'.closed = false) : False :=
    absurd (ho'.symm.trans hover.closed) (by decide)
  refine h.of_insert hchannels (Nat.le_of_eq hnext.symm) (hnext ▸ ht.numbered hch)
    (fun i _ => ⟨(hmute i).1, (hmute i).2, rfl⟩) (fun ho' => (hclosed ho').elim) ?_
    (fun _ => hover.inbound) (fun ho' => (hclosed ho').elim) ?_ ?_
  · rw [(hmute id).1]
    exact h.bounded id
  · rw [(hmute id).1, (hmute id).2]
    exact h.weighed id
  · rw [(hmute id).2]
    exact h.named_of_follows hch (hover.follows ho)

theorem tornDown (h : Delivering A c) (tasks : List Task) :
    Delivering A { c with tasks := tasks, channels := c.channels.erase id } where
  flows i d hd := h.flows i d (Table.get?_of_erase hd)
  bounded := h.bounded
  drained i d hd := h.drained i d (Table.get?_of_erase hd)
  unmade := h.unmade
  unasked i d hd := h.unasked i d (Table.get?_of_erase hd)
  weighed := h.weighed
  named i d hd := h.named i d (Table.get?_of_erase hd)

end Delivering

/-! ## Calls -/

/-- A channel for which an item is received is open, and has its stream. -/
theorem Registered.open_of_active (hr : c.Registered) {stream : StreamId}
    (h : c.registry.get? stream = some (.active id)) (hch : c.channels.get? id = some ch) :
    ch.closed = false ∧ ch.handshake ≠ .awaitingSettings := by
  obtain ⟨d, hd, ho, hs, h0⟩ := (hr.active stream id).mp h
  obtain rfl := Option.some.inj (hch.symm.trans hd)
  exact ⟨ho, fun ha => h0 (hs.symm.trans (hr.unasked id ch hch ho ha))⟩

/-- What has arrived when the call is over. -/
def arrived (A : ChannelId → List Bytes) (k : Cause) (id : ChannelId) : List Bytes :=
  A id ++ k.conn.arriving id k.call

/-- An item is received only while its payload has not been counted as arrived. -/
theorem Delivering.queueStep {A : ChannelId → List Bytes} (h₀ : Delivering A k.conn)
    (hr : k.conn.Registered) (ht : c.Tidy) (h : Delivering (arrived A k) c)
    (hf : QueueStep k c c') :
    Delivering (arrived A k) c' := by
  cases hf with
  | still hnext hmute hchannels => exact h.still hnext hmute hchannels
  | made ch _ _ hempty hchannels hnext hmute => exact h.made hchannels hempty hnext hmute
  | @received id ch item hch hc hactive hitem =>
    subst hc
    obtain ⟨stream, hactive⟩ := hactive
    obtain ⟨ho, ha⟩ := hr.open_of_active hactive hch
    -- Both laws hold of this state, so the call brings nothing for the channel.
    have hnothing : item.payload?.toList = [] := by
      have hbefore := h₀.flows id ch hch ho
      have hafter := h.flows id ch hch ho
      rw [arrived, hbefore, hitem] at hafter
      exact List.append_right_eq_self.mp hafter
    exact h.received ht hch ho ha item (by rw [hnothing, List.append_nil]) fun _ _ => rfl
  | handed hch ho hq => exact h.handed ht hch ho hq
  | ended ch' hch ho hchannels hover hnext hmute =>
    exact h.ended ht hch ho hchannels hover hnext hmute
  | tornDown tasks => exact h.tornDown tasks

/-- A step of a call that loses nothing: a channel that it closes drops what has arrived for the
channel, up to the end of the call, and was not read. -/
structure Lossless (A : ChannelId → List Bytes) (k : Cause) (u v : Stage) : Prop where
  step : CoreStep True k u v
  drops : ∀ id ch, u.conn.channels.get? id = some ch → ch.closed = false →
    v.conn.isOpen id = false →
    A id = u.conn.journal.reads id ++ ch.inbound.filterMap Inbound.payload? ∧
      Drops u.conn id ch v.conn

theorem Lossless.of_open {A : ChannelId → List Bytes} (h : CoreStep True k u v)
    (hopen : ∀ id, v.conn.isOpen id = u.conn.isOpen id) : Lossless A k u v := by
  refine ⟨h, fun id ch hch ho hclosed => ?_⟩
  rw [hopen, isOpen_of_get? hch, ho] at hclosed
  cases hclosed

theorem lossless_of_corePath {A : ChannelId → List Bytes} (h₀ : Delivering A k.conn)
    (hr : k.conn.Registered) (ht : s.conn.Tidy) (hs : Delivering (arrived A k) s.conn)
    (h : CorePath True k s t) : Delivering (arrived A k) t.conn ∧
      Relation.ReflTransGen (Lossless (arrived A k) k) s t := by
  have hall := CorePath.induction (P := fun u => Delivering (arrived A k) u.conn ∧
    Relation.ReflTransGen (Lossless (arrived A k) k) s u) ?_ ht h ⟨hs, .refl⟩
  · exact hall.2
  rintro u v htu hstep ⟨hu, hpath⟩
  have hqueue := queueStep_of_coreStep htu hstep
  refine ⟨h₀.queueStep hr htu hu hqueue, hpath.tail ⟨hstep, ?_⟩⟩
  intro id ch hch ho hclosed
  exact ⟨hu.flows id ch hch ho, hqueue.drops htu hch ho hclosed⟩

/-- A call brings nothing, or it is the arrival of an item, which is received first of all. -/
theorem arriving_cases (c : Connection) (l : Call) :
    (∀ id, c.arriving id l = []) ∨
      ∃ id ch item, c.channels.get? id = some ch ∧
        (∃ stream, c.registry.get? stream = some (.active id)) ∧
        c.arriving id l = item.payload?.toList ∧ (∀ i ≠ id, c.arriving i l = []) ∧
        ReadPath { c with reading := true, channels := c.channels.insert id (ch.receive item) }
          (c.after l) := by
  refine Classical.or_iff_not_imp_left.mpr fun hsome => ?_
  obtain ⟨id, hid⟩ := Classical.not_forall.mp hsome
  unfold arriving at hid
  split at hid
  next stream payload padding endStream =>
    split at hid
    next hlawful =>
      obtain ⟨hr, hv⟩ := hlawful
      obtain ⟨ch, hch, hv⟩ := (Option.any_eq_true ..).mp hv
      have hafter : c.after (.frame (.data stream payload padding endStream)) =
          { c with reading := true }.receive id ch (.data payload endStream) := by
        have hactive : { c with reading := true }.registry.get? stream = some (.active id) := hr
        have hthere : { c with reading := true }.channels.get? id = some ch := hch
        simp only [after, call, frameArrived, Frame.stream, hactive, channelFrame, dataArrived,
          hthere, of_decide_eq_true hv]
      refine ⟨id, ch, .data payload endStream, hch, ⟨stream, hr⟩, ?_, ?_, ?_⟩
      · rw [arriving, if_pos ⟨hr, (Option.any_eq_true ..).mpr ⟨ch, hch, hv⟩⟩]
        rfl
      · intro i hi
        rw [arriving, if_neg]
        rintro ⟨hother, -⟩
        exact hi (Slot.active.inj (Option.some.inj (hother.symm.trans hr)))
      · rw [hafter]
        exact readPath_receive { c with reading := true } id ch (.data payload endStream)
    next => exact absurd rfl hid
  next => exact absurd rfl hid

/-- A call loses nothing of what has arrived, the payload that it brings included. -/
theorem Delivering.after {A : ChannelId → List Bytes} (h : Delivering A c) (hr : c.Registered)
    (ht : c.Tidy) {l : Call} (ho : c.Careful l) :
    Delivering (arrived A ⟨c, l⟩) (c.after l) ∧
      Relation.ReflTransGen (Lossless (arrived A ⟨c, l⟩) ⟨c, l⟩) ⟨c, []⟩ ⟨c.after l, []⟩ := by
  rcases c.arriving_cases l with hnone | ⟨id, ch, item, hch, hactive, hitem, hothers, hrest⟩
  · have hsame : arrived A ⟨c, l⟩ = A := by
      funext id
      rw [arrived, hnone, List.append_nil]
    exact lossless_of_corePath (k := ⟨c, l⟩) h hr ht (hsame.symm ▸ h)
      (corePath_after ht l fun _ => ho)
  · obtain ⟨stream, hactive⟩ := hactive
    obtain ⟨hopen, ha⟩ := hr.open_of_active hactive hch
    have hbegun : CoreStep True ⟨c, l⟩ ⟨c, []⟩ ⟨{ c with reading := true }, []⟩ :=
      .plain [] { Plain.refl c with }
    have hreceived : CoreStep True ⟨c, l⟩ ⟨{ c with reading := true }, []⟩
        ⟨{ c with reading := true, channels := c.channels.insert id (ch.receive item) }, []⟩ :=
      .received item [] hch rfl ⟨stream, hactive⟩ hitem
    have hlaw : Delivering (arrived A ⟨c, l⟩)
        { c with channels := c.channels.insert id (ch.receive item) } := by
      refine h.received ht hch hopen ha item (congrArg _ hitem) fun i hi => ?_
      rw [arrived, hothers i hi, List.append_nil]
    have hnow : Delivering (arrived A ⟨c, l⟩)
        { c with reading := true, channels := c.channels.insert id (ch.receive item) } :=
      hlaw.still (Nat.le_refl _) (.refl _) (.refl .refl _)
    obtain ⟨hend, hpath⟩ := lossless_of_corePath (k := ⟨c, l⟩) h hr
      ((ht.coreStep hbegun).coreStep hreceived) hnow (corePath_readPath hrest)
    refine ⟨hend, .head (.of_open hbegun fun _ => rfl) (.head (.of_open hreceived ?_) hpath)⟩
    exact isOpen_insert hch (alike_receive ch item).closed

theorem isOpen_run (ht : c.Tidy) (hid : id < c.nextChannel) (hclosed : c.isOpen id = false)
    (ks : List Call) : (c.run ks).isOpen id = false := by
  refine (run_induction (P := fun d => id < d.nextChannel ∧ d.isOpen id = false) ht ks ?_
    ⟨hid, hclosed⟩).2
  rintro k u v htu hstep ⟨hu, hshut⟩
  have hqueue := queueStep_of_coreStep htu hstep
  exact ⟨Nat.lt_of_lt_of_le hu hqueue.nextChannel, hqueue.stays_closed hu hshut⟩

theorem arrivals_concat (c : Connection) (ls : List Call) (l : Call) :
    (fun id => arrivals id c (ls ++ [l])) = arrived (fun id => arrivals id c ls) ⟨c.run ls, l⟩ := by
  funext id
  rw [arrivals_append, arrived, arrivals, arrivals, List.append_nil]

theorem delivering_start {config : Config} {encoder : Encoder} (h : start config encoder = .ok c) :
    Delivering (fun _ => []) c := by
  obtain rfl := (start_eq h).1
  have hempty (id : ChannelId) : (fresh config encoder).channels.get? id = none := rfl
  exact
    { flows := fun id _ hch => nomatch (hempty id).symm.trans hch
      bounded := fun _ => List.prefix_rfl
      drained := fun id _ hch => nomatch (hempty id).symm.trans hch
      unmade := fun _ _ => rfl
      unasked := fun id _ hch => nomatch (hempty id).symm.trans hch
      weighed := fun _ => rfl
      named := fun id _ hch => nomatch (hempty id).symm.trans hch }

/-- The law holds between the calls of a run. -/
theorem delivering_run {config : Config} {encoder : Encoder} (h : start config encoder = .ok c)
    {ks : List Call} (ho : c.CarefulRun ks) :
    Delivering (fun id => arrivals id c ks) (c.run ks) := by
  induction ks using List.reverseRecOn with
  | nil => exact delivering_start h
  | append_singleton ks k ih =>
    obtain ⟨hks, hk, -⟩ := carefulRun_append.mp ho
    have hafter := ((ih hks).after (registered_run h hks) (tidy_run h ks) hk).1
    rwa [← arrivals_concat, ← run_concat] at hafter

/-- What arrives for a channel is read in its order, and nothing else: while the channel is open,
the rest waits in its queue.  Each call of a run is made of steps that lose nothing: a channel that
is closed by one drops its queue, which holds what has arrived and was not read.  Whenever a channel
is closed, the items of its queue and their bytes are counted as discarded.  A closed channel stays
closed and its queue empty, and the bytes reported as consumed on a channel's stream are those that
were read. -/
theorem inbound_data_is_read_in_order {config : Config} {encoder : Encoder} {c : Connection}
    (h : start config encoder = .ok c) {ks : List Call} (ho : c.OrderlyRun ks) :
    (∀ id ch, (c.run ks).channels.get? id = some ch → ch.closed = false →
      arrivals id c ks = (c.run ks).journal.reads id ++ ch.inbound.filterMap Inbound.payload?) ∧
    (∀ id, (c.run ks).journal.reads id <+: arrivals id c ks) ∧
    (∀ ls l rs, ks = ls ++ l :: rs → Relation.ReflTransGen
      (Lossless (fun id => arrivals id c (ls ++ [l])) ⟨c.run ls, l⟩)
      ⟨c.run ls, []⟩ ⟨c.run (ls ++ [l]), []⟩) ∧
    (∀ (d : Connection) id ch kind, d.channels.get? id = some ch → ch.closed = false →
      Drops d id ch (d.close id kind)) ∧
    (∀ ls rs id ch ch', ks = ls ++ rs → (c.run ls).channels.get? id = some ch → ch.closed = true →
      (c.run ks).channels.get? id = some ch' → ch'.closed = true ∧ ch'.inbound = []) ∧
    (∀ id, (((c.run ks).journal.consumed id).map Prod.snd).sum =
        (((c.run ks).journal.reads id).map List.length).sum ∧
      ∀ ch, (c.run ks).channels.get? id = some ch →
        ∀ p ∈ (c.run ks).journal.consumed id, p.1 = ch.stream) := by
  have hrun := delivering_run h ho.careful
  refine ⟨hrun.flows, hrun.bounded, ?_, fun d id ch kind hch hopen => drops_close hch hopen kind,
    ?_, fun id => ⟨congrArg List.sum (hrun.weighed id), hrun.named id⟩⟩
  · rintro ls l rs rfl
    obtain ⟨hls, hl, -⟩ := carefulRun_append.mp ho.careful
    have hpath := ((delivering_run h hls).after (registered_run h hls) (tidy_run h ls) hl).2
    rwa [← arrivals_concat, ← run_concat] at hpath
  · rintro ls rs id ch ch' rfl hch hclosed hch'
    have htidy := tidy_run h ls
    have hshut : (c.run (ls ++ rs)).isOpen id = false := by
      rw [run_append]
      exact isOpen_run htidy (htidy.numbered hch) (by rw [isOpen_of_get? hch, hclosed]; rfl) rs
    rw [isOpen_of_get? hch', Bool.not_eq_false'] at hshut
    exact ⟨hshut, hrun.drained id ch' hch' hshut⟩

/-- Of three items one read delivers two, and the third is what is left in the queue. -/
theorem third_item_is_left :
    ∃ ch, ((fresh { messagesPerRead := 2 } .willing).run (Call.opening ++ [.readCycleEnded,
        .frame (.data 3 [1] 0 false), .frame (.data 3 [2] 0 false),
        .frame (.data 3 [3] 0 false)])).channels.get? 1 = some ch ∧
      ch.closed = false ∧
      [[1], [2], [3]] = [[1], [2]] ++ ch.inbound.filterMap Inbound.payload? := by
  obtain ⟨ch, hch, hopen⟩ := isOpen_iff.mp (by decide :
    ((fresh { messagesPerRead := 2 } .willing).run (Call.opening ++ [.readCycleEnded,
      .frame (.data 3 [1] 0 false), .frame (.data 3 [2] 0 false),
      .frame (.data 3 [3] 0 false)])).isOpen 1 = true)
  exact ⟨ch, hch, hopen, (inbound_data_is_read_in_order (rfl : start { messagesPerRead := 2 }
    .willing = .ok (fresh { messagesPerRead := 2 } .willing)) (by decide)).1 1 ch hch hopen⟩

end ChannelMux.Connection
