import ChannelMux.Proofs.Pacing

/-!
# Supplies: how much there is to deliver

Every delivered item was received first and waited in the queue of its channel.  The items that wait
and those that were delivered before are the supply of a connection: reading hands items over, and
closing a channel drops what is left, so the supply never grows but when an item arrives.
-/

namespace ChannelMux

/-- The entry tells of an item that was delivered. -/
def Entry.isDelivered : Entry → Bool
  | delivered .. => true
  | wire .. | event _ | closed _ => false

theorem Entry.isDelivered_of_not_isReading {e : Entry} (h : e.isReading = false) :
    e.isDelivered = false := by
  cases e with
  | delivered => cases h
  | wire | event | closed => rfl

/-- How many items were delivered. -/
def Journal.deliveries (j : Journal) : Nat := j.entries.countP Entry.isDelivered

@[simp] theorem Journal.deliveries_push (j : Journal) (e : Entry) :
    (j.push e).deliveries = j.deliveries + if e.isDelivered then 1 else 0 := by
  rw [deliveries, deliveries, entries_push, List.countP_append, List.countP_singleton]

theorem Journal.Apart.deliveries_eq {j j' : Journal} (h : j.Apart j') :
    j'.deliveries = j.deliveries := by
  obtain ⟨es, hes, hall⟩ := h
  have hnone : es.countP Entry.isDelivered = 0 := by
    rw [List.countP_eq_zero]
    intro e he
    rw [Entry.isDelivered_of_not_isReading (hall e he)]
    exact Bool.false_ne_true
  rw [deliveries, deliveries, hes, List.countP_append, hnone, Nat.add_zero]

namespace Connection

variable {c d : Connection} {id : ChannelId} {ch : Channel} {item : Inbound}

/-- The items that wait in the queues of all channels. -/
def queuedItems (c : Connection) : Nat := c.channels.total fun ch => ch.inbound.length

/-- The items that were delivered and those that may be. -/
def supply (c : Connection) : Nat := c.journal.deliveries + c.queuedItems

theorem queuedItems_insert (h : c.channels.get? id = some ch) (ch' : Channel) :
    Table.total (fun ch => ch.inbound.length) (c.channels.insert id ch') + ch.inbound.length =
      c.queuedItems + ch'.inbound.length := by
  have htotal := Table.total_insert (fun ch => ch.inbound.length) c.channels id ch'
  rwa [Table.share_of_some _ h] at htotal

theorem queuedItems_update (c : Connection) (id : ChannelId) {f : Channel → Channel}
    (hf : ∀ ch : Channel, (f ch).inbound = ch.inbound) :
    (c.updateChannel id f).queuedItems = c.queuedItems :=
  Table.Matches.total_eq
    (.modify (R := fun ch ch' => ch'.inbound = ch.inbound) (fun _ => rfl) _ _ fun ch _ => hf ch)
    fun _ _ h => congrArg List.length h

/-- Closing a channel empties its queue. -/
theorem supply_close (c : Connection) (id : ChannelId) (kind : CloseKind) :
    (c.close id kind).supply ≤ c.supply := by
  have hsame := (close_unmoved c id kind).2.2.deliveries_eq
  rcases close_cases c id kind with ⟨-, heq⟩ | ⟨ch, h, ho⟩
  · exact Nat.le_of_eq (congrArg supply heq)
  · have hqueue := queuedItems_insert h (ch.shut kind)
    have hempty : (ch.shut kind).inbound.length = 0 := rfl
    obtain ⟨_, _, heq, -, -⟩ := close_exact h ho kind
    have hqueued : (c.close id kind).queuedItems + ch.inbound.length = c.queuedItems := by
      rw [heq, queuedItems]
      dsimp only
      omega
    rw [supply, supply, hsame]
    omega

/-- An item that is handed over leaves the queue. -/
theorem supply_handOver (h : c.channels.get? id = some ch) {rest : List Inbound}
    (hq : ch.inbound = item :: rest) (stream : StreamId) :
    (c.handOver id stream item rest).supply = c.supply := by
  have hdelivered : (c.handOver id stream item rest).journal.deliveries =
      c.journal.deliveries + 1 := by
    rw [(apart_handOver c id stream item rest).deliveries_eq, Journal.deliveries_push]
    rfl
  obtain ⟨reported, journal, heq, -⟩ := handOver_eq h hq stream
  have hqueue := queuedItems_insert h (ch.handed 1 reported)
  have hrest : (ch.handed 1 reported).inbound.length + 1 = ch.inbound.length := by
    rw [Channel.handed, hq]
    rfl
  have hqueued : (c.handOver id stream item rest).queuedItems + 1 = c.queuedItems := by
    rw [heq, handed, queuedItems]
    dsimp only
    omega
  rw [supply, supply, hdelivered]
  omega

theorem supply_settle (c : Connection) (id : ChannelId) : (c.settle id).supply ≤ c.supply := by
  cases h : c.channels.get? id with
  | none => exact Nat.le_of_eq (congrArg supply (by rw [settle, h]))
  | some ch =>
    rcases settle_eq h with ⟨-, heq⟩ | ⟨-, unflushed, journal, heq, hapart⟩
    · rw [heq]
      exact supply_close c id .remote
    · have hqueue := queuedItems_insert h { ch with unflushed := unflushed }
      rw [heq, supply, supply, queuedItems, hapart.deliveries_eq]
      dsimp only at hqueue ⊢
      omega

theorem supply_deliverItems (stream : StreamId) (budget : Nat) (items : List Inbound)
    (h : c.channels.get? id = some ch) (hq : ch.inbound = items) :
    (deliverItems id stream budget items c).2.supply ≤ c.supply := by
  induction items generalizing c ch budget with
  | nil => exact supply_settle c id
  | cons item rest ih =>
    have hfirst := supply_handOver h hq stream
    obtain ⟨reported, journal, heq, -⟩ := handOver_eq h hq stream
    rw [deliverItems]
    dsimp only
    split
    · exact Nat.le_of_eq hfirst
    · rw [heq] at hfirst ⊢
      rw [← hfirst]
      refine ih _ (get?_handed ..) ?_
      rw [Channel.handed, hq]
      rfl

theorem supply_deliver (c : Connection) (id : ChannelId) : (c.deliver id).2.supply ≤ c.supply := by
  rw [deliver]
  split
  · exact Nat.le_refl _
  next ch h =>
    split
    · exact Nat.le_refl _
    · exact supply_deliverItems ch.stream ch.budget ch.inbound h rfl

theorem supply_readStep (h : ReadStep c d) : d.supply ≤ c.supply := by
  have hupdate (c : Connection) (id : ChannelId) {f : Channel → Channel}
      (hf : ∀ ch : Channel, (f ch).inbound = ch.inbound) :
      (c.updateChannel id f).supply = c.supply :=
    congrArg (c.journal.deliveries + ·) (queuedItems_update c id hf)
  cases h with
  | requested id =>
    refine Nat.le_of_eq (hupdate c id fun ch => ?_)
    rw [Channel.requestRead]
    split <;> rfl
  | automated id on => exact Nat.le_of_eq (hupdate c id fun _ => rfl)
  | delivered id => exact supply_deliver c id
  | completed id =>
    rw [fireReadComplete]
    split
    · exact Nat.le_refl _
    · have hfinished := hupdate c id (f := (·.finishRead c.config.messagesPerRead)) fun _ => rfl
      rw [emit, note, supply, Journal.deliveries_push]
      exact Nat.le_of_eq hfinished
  | @queued id batch _ => exact Nat.le_of_eq (hupdate { c with batch := batch } id fun _ => rfl)
  | drainBegun | drainFinished | cycleEnded => exact Nat.le_refl _
  | swept =>
    have hsame : Table.total (fun ch => ch.inbound.length)
        (c.channels.mapEntries fun _ => flushed) = c.queuedItems :=
      Table.Matches.total_eq (.mapEntries (R := fun ch ch' => ch'.inbound = ch.inbound) _
        fun _ _ => rfl) fun _ _ h => congrArg List.length h
    rw [flush, tell, note, supply, Journal.deliveries_push, queuedItems, hsame]
    exact Nat.le_refl _

theorem supply_readPath (h : ReadPath c d) : d.supply ≤ c.supply := by
  induction h with
  | refl => exact Nat.le_refl _
  | tail _ hstep ih => exact Nat.le_trans (supply_readStep hstep) ih

end Connection

end ChannelMux
