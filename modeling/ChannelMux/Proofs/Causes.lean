import ChannelMux.Proofs.Farewells
import ChannelMux.Proofs.Fates

/-!
# Causes: what parked writes are failed with

Parked writes are settled once, so the first step that settles them decides what they are failed
with.  A handshake that fails gives them its cause (`promise?_failHandshake`), and closing a channel
gives what is still parked no other cause than that it was closed (`promise?_close_parked`).

When the peer announces the end of the connection, a channel that waits for the settings goes the
first way.  One that has asked for its stream goes the second way although its handshake is pending
as well: the failure that it reports names the announcement, and its parked writes do not.
-/

namespace ChannelMux

/-- What the parked writes of a channel are failed with when it does not outlive the announcement of
the connection's end. -/
def Channel.endCause (ch : Channel) (reason : Reason) : Fault :=
  if ch.stream = 0 then .goAway reason else .channelClosed

namespace Connection

variable {c : Connection} {id : ChannelId} {ch : Channel} {t : Ticket} {last : StreamId}
  {reason : Reason}

/-- The promise of a parked write is held. -/
theorem Balanced.isHeld_of_parked {s : Stage} (h : Balanced s)
    (hch : s.conn.channels.get? id = some ch) (ht : t ∈ ch.parkedTickets) :
    s.conn.ledger.isHeld t = true := by
  have hpos : 0 < ch.parkedCount t := by
    rw [← (h.parking id ch hch).count_parkedTickets]
    exact List.count_pos_iff.mpr ht
  have hle := Table.le_total (f := Channel.parkedCount t) hch
  have honce := h.once t
  rw [Stage.waiting] at honce
  by_contra hnot
  rw [if_neg hnot] at honce
  omega

theorem promise?_close_parked (hch : c.channels.get? id = some ch) (ho : ch.closed = false)
    (ht : t ∈ ch.parkedTickets) (hheld : c.ledger.isHeld t = true) (kind : CloseKind) :
    (c.close id kind).ledger.promise? t = some (.kept (.failed .channelClosed)) := by
  obtain ⟨_, _, _, _, heq, -⟩ := close_eq hch ho kind
  rw [heq]
  apply (Ledger.keeps_resolveAll ..).2
  rw [Ledger.promise?_resolveAll, if_pos ⟨ht, hheld⟩]

theorem promise?_failHandshake (hch : c.channels.get? id = some ch) (ho : ch.closed = false)
    (ht : t ∈ ch.parkedTickets) (hheld : c.ledger.isHeld t = true) (cause : Fault) :
    (c.failHandshake id cause).ledger.promise? t = some (.kept (.failed cause)) := by
  rw [failHandshake_eq hch ho]
  apply (Onward.close ..).keeps.2
  show (c.ledger.resolveAll _ _).promise? t = _
  rw [Ledger.promise?_resolveAll, if_pos ⟨ht, hheld⟩]

/-! ## The announcement of the connection's end -/

theorem promise?_announceEnd (hch : c.channels.get? id = some ch) (ho : ch.closed = false)
    (hp : ch.isProcessed last = false) (ht : t ∈ ch.parkedTickets)
    (hheld : c.ledger.isHeld t = true) :
    (announceEnd last reason c id).ledger.promise? t =
      some (.kept (.failed (ch.endCause reason))) := by
  rw [announceEnd, hch, Channel.endCause]
  dsimp only
  split
  next h0 =>
    have hself : (c.emit id (.goAway last reason)).channels.get? id = some ch := hch
    exact promise?_failHandshake hself ho ht hheld _
  next h0 =>
    split
    next =>
      have hself : ((c.emit id (.goAway last reason)).emit id
        (.failed (.goAway reason))).channels.get? id = some ch := hch
      exact promise?_close_parked hself ho ht hheld .remote
    next hlast =>
      rw [Channel.isProcessed, decide_eq_false_iff_not] at hp
      exact absurd ⟨Nat.pos_of_ne_zero h0, Nat.not_lt.mp hlast⟩ hp

theorem callPath_announceEnds {k : Cause} {ids : List ChannelId} (hnodup : ids.Nodup)
    (hopen : ∀ id ∈ ids, c.isOpen id = true) :
    CallPath False k ⟨c, []⟩ ⟨ids.foldl (announceEnd last reason) c, []⟩ :=
  callPath_foldl_open _ ids hnodup hopen (fun _ _ ho => callPath_announceEnd last reason ho)
    (fun _ _ _ hne => get?_announceEnd_of_ne hne last reason)

/-- Telling other channels settles nothing that is parked here, before this one is told or after. -/
theorem promise?_announceEnds {ids : List ChannelId} (hnodup : ids.Nodup)
    (hopen : ∀ id ∈ ids, c.isOpen id = true) (hc : c.Regular) (hid : id ∈ ids)
    (hch : c.channels.get? id = some ch) (hp : ch.isProcessed last = false)
    (ht : t ∈ ch.parkedTickets) :
    (ids.foldl (announceEnd last reason) c).ledger.promise? t =
      some (.kept (.failed (ch.endCause reason))) := by
  induction ids generalizing c with
  | nil => cases hid
  | cons j ids ih =>
    obtain ⟨hj, hrest⟩ := List.nodup_cons.mp hnodup
    -- which call it is does not matter here
    have htold : CallPath False ⟨c, .runTasks⟩ ⟨c, []⟩ ⟨announceEnd last reason c j, []⟩ :=
      callPath_announceEnd last reason (hopen j List.mem_cons_self)
    obtain ⟨htidy, hbalanced⟩ := balanced_callPath htold hc.tidy hc.balanced
    have hstill : ∀ i ∈ ids, (announceEnd last reason c j).isOpen i = true := by
      intro i hi
      have hne : i ≠ j := fun heq => hj (heq ▸ hi)
      rw [isOpen_congr (get?_announceEnd_of_ne hne last reason)]
      exact hopen i (List.mem_cons_of_mem _ hi)
    by_cases heq : id = j
    · subst heq
      have ho := (isOpen_of_get? hch).symm.trans (hopen id List.mem_cons_self)
      have hothers : CallPath False ⟨c, .runTasks⟩ ⟨announceEnd last reason c id, []⟩
          ⟨ids.foldl (announceEnd last reason) (announceEnd last reason c id), []⟩ :=
        callPath_announceEnds hrest hstill
      apply (Onward.path hbalanced htidy hothers).keeps.2
      exact promise?_announceEnd hch (by simpa using ho) hp ht (hc.balanced.isHeld_of_parked hch ht)
    · have hsame := get?_announceEnd_of_ne (c := c) heq last reason
      exact ih hrest hstill ⟨htidy, hbalanced⟩ ((List.mem_cons.mp hid).resolve_left heq)
        (hsame.trans hch)

/-- The peer announces the end of the connection while the handshake of a channel is pending which
it will not process.  The channel is closed, and the failure that it reports is the announcement.
Its parked writes, whose promises were held, are failed with that only if the channel has no stream,
as long as it waits for the settings; once the request was sent they are failed because the channel
is closed. -/
theorem goAway_fails_parked {config : Config} {encoder : Encoder} {c : Connection}
    (h : start config encoder = .ok c) (ks : List Call) (last : StreamId) (reason : Reason)
    (debug : Bytes) :
    let d := c.run ks
    let d' := d.after (.frame (.goAway last reason debug))
    ∀ id ch, d.channels.get? id = some ch → ch.closed = false → ch.handshake.isPending = true →
      d.isProcessed last id = false →
      (∃ ch', d'.channels.get? id = some ch' ∧ ch'.closed = true) ∧
      d'.journal.eventsOf id =
        d.journal.eventsOf id ++ [.goAway last reason, .failed (.goAway reason)] ∧
      (∀ w ∈ ch.parked.writes, d.ledger.promise? w.2 = some .held ∧
        d'.ledger.promise? w.2 =
          some (.kept (.failed (if ch.stream = 0 then .goAway reason else .channelClosed)))) ∧
      (ch.handshake = .awaitingSettings → ch.stream = 0) ∧
      (config.role = .client → c.CarefulRun ks → ch.handshake = .requestSent → ch.stream ≠ 0) := by
  intro d d' id ch hch ho hpending hp
  have hregular : d.Regular := (Regular.of_start h).run ks
  have hopen : id ∈ d.openChannels := mem_openChannels.mpr ⟨ch, hch, ho⟩
  have htold := told_goAwayArrived { d with reading := true } last reason
  have hnoted : Connection.Regular { d with reading := true, goingAway := some reason } := by
    obtain ⟨⟨hnumbered, hdoomed, hdecided⟩, hsound, honce, hparking, howned, hwrites⟩ := hregular
    exact ⟨⟨hnumbered, hdoomed, hdecided⟩, ⟨hsound, honce, hparking, howned, hwrites⟩⟩
  refine ⟨htold.closed id hopen hp, ?_, fun w hw => ?_, fun ha => ?_,
    fun hrole hcareful hs h0 => ?_⟩
  · have hevents := eventsOf_goAway d last reason debug id
    rwa [if_pos (isOpen_iff.mpr ⟨ch, hch, ho⟩), if_neg (Bool.eq_false_iff.mp hp)] at hevents
  · have ht : w.2 ∈ ch.parkedTickets := by
      rw [(hregular.balanced.parking id ch hch).parkedTickets_eq]
      exact List.mem_map_of_mem hw
    refine ⟨Ledger.isHeld_iff.mp (hregular.balanced.isHeld_of_parked hch ht), ?_⟩
    rw [isProcessed_of_get? hch] at hp
    exact promise?_announceEnds (nodup_openChannels d)
      (fun j hj => isOpen_iff.mpr (mem_openChannels.mp hj)) hnoted hopen hch hp ht
  · exact (((opening_run h ks).rooted id ch hch ho).waiting ha).1
  · have hunderway := (client_channels_are_underway h hrole hcareful).1 id ch hch ho
    cases hs.symm.trans (hunderway.streamless.mp h0)

/-- A write that is parked before the settings arrive is failed with the announcement. -/
theorem waiting_write_learns_of_end :
    let d := (fresh {} .willing).run [.openStream "/chat" none, .write 1 [1]]
    let d' := d.after (.frame (.goAway 0 .cancel []))
    d'.journal.eventsOf 1 = [.goAway 0 .cancel, .failed (.goAway .cancel)] ∧
      d'.ledger.promise? 0 = some (.kept (.failed (.goAway .cancel))) := by
  intro d d'
  obtain ⟨ch, hch, hfacts⟩ : ∃ ch, d.channels.get? 1 = some ch ∧ ch.closed = false ∧
      ch.handshake = .awaitingSettings ∧ ch.parked.writes = [([1], 0)] :=
    ⟨_, rfl, rfl, rfl, rfl⟩
  obtain ⟨ho, ha, hwrites⟩ := hfacts
  obtain ⟨-, hevents, hparked, hwaits, -⟩ := goAway_fails_parked
    (rfl : start {} .willing = .ok (fresh {} .willing)) [.openStream "/chat" none, .write 1 [1]]
    0 .cancel [] 1 ch hch ho (by rw [ha]; rfl) (by decide)
  have hpromise := (hparked ([1], 0) (by rw [hwrites]; exact List.mem_cons_self)).2
  rw [if_pos (hwaits ha)] at hpromise
  exact ⟨hevents.trans (by decide), hpromise⟩

/-- A write that is parked after the request was sent is not: the channel reports the announcement
as its failure, and the write that it was closed. -/
theorem asked_write_learns_of_closing :
    let d := (fresh {} .willing).run
      [.frame (.settings { extendedConnect := some true }), .openStream "/chat" none, .write 1 [1]]
    let d' := d.after (.frame (.goAway 0 .cancel []))
    (∃ ch, d.channels.get? 1 = some ch ∧ ch.closed = false ∧ ch.handshake = .requestSent ∧
      ch.parked.writes = [([1], 0)]) ∧
    d'.isOpen 1 = false ∧
    d'.journal.eventsOf 1 = [.goAway 0 .cancel, .failed (.goAway .cancel)] ∧
    d'.ledger.promise? 0 = some (.kept (.failed .channelClosed)) ∧
    d'.ledger.promise? 0 ≠ some (.kept (.failed (.goAway .cancel))) :=
  ⟨⟨_, rfl, rfl, rfl, rfl⟩, by decide, by decide, by decide, by decide⟩

end Connection

end ChannelMux
