import ChannelMux.Proofs.Farewells
import ChannelMux.Proofs.Fates
import ChannelMux.Proofs.Lifecycles

/-!
# Losses: what the end of the connection leaves behind

A lost connection fails the writes that are on their way, tells the open channels one after another
and closes them, and then empties what they shared.  The order matters, because closing a channel
fails what it finds of the channel's writes with an error of its own: it finds none, for those on
their way are gone by then, and the parked ones are failed before each closing (`Severed`).
-/

namespace ChannelMux

namespace Connection

variable {c d e : Connection} {id : ChannelId} {ch : Channel} {ids js : List ChannelId} {t : Ticket}
  {config : Config} {encoder : Encoder} {ks : List Call}

/-! ## Channels -/

/-- What the journal says of an open channel when the connection is lost. -/
def parting (id : ChannelId) : List Entry :=
  [.event ⟨id, .remoteClosed .connectionClosed⟩, .closed id]

/-- The channels of a list have been told of the loss and closed, and nothing was failed for any
other reason. -/
structure Severed (ids : List ChannelId) (c d : Connection) : Prop where
  entries : d.journal.entries = c.journal.entries ++ ids.flatMap parting
  promises : ∀ t, d.ledger.promise? t = c.ledger.promise? t ∨
    d.ledger.promise? t = some (.kept (.failed .connectionClosed))
  channels : ∀ id, d.channels.contains id = c.channels.contains id
  inflight : d.inflight = c.inflight

theorem Severed.append (h : Severed ids c d) (h' : Severed js d e) : Severed (ids ++ js) c e where
  entries := by rw [h'.entries, h.entries, List.append_assoc, List.flatMap_append]
  promises t := (h'.promises t).elim (fun heq => heq ▸ h.promises t) .inr
  channels id := (h'.channels id).trans (h.channels id)
  inflight := h'.inflight.trans h.inflight

theorem severed_loseChannel (h : c.channels.get? id = some ch) (ho : ch.closed = false)
    (hnone : c.inflight = .empty) : Severed [id] c (c.loseChannel id) := by
  let told := (c.failParked id .connectionClosed).emit id (.remoteClosed .connectionClosed)
  have htold : told = { c with
      channels := c.channels.insert id ch.giveUpParked
      ledger := c.ledger.resolveAll ch.parkedTickets (.failed .connectionClosed)
      journal := c.journal.push (.event ⟨id, .remoteClosed .connectionClosed⟩) } := by
    simp only [told, failParked_eq h]
    rfl
  have hchannels : told.channels = c.channels.insert id ch.giveUpParked := by rw [htold]
  have hinflight : told.inflight = .empty := by rw [htold, hnone]
  have hself : told.channels.get? id = some ch.giveUpParked :=
    hchannels ▸ Table.get?_insert_self ..
  -- with nothing on its way, closing fails no promise for a reason of its own
  have hlost : told.inflightTickets id = [] := by rw [inflightTickets, hinflight]; rfl
  obtain ⟨_, _, heq, -⟩ := close_exact hself ho .remote
  rw [hlost, ch.parkedTickets_giveUpParked] at heq
  constructor
  case entries =>
    refine (entries_close_of_silent hself ho (Channel.closingFrame_remote ..)).trans ?_
    rw [htold]
    exact List.append_assoc ..
  case promises =>
    intro t
    have hledger : (c.loseChannel id).ledger = told.ledger :=
      (congrArg Connection.ledger heq).trans rfl
    rw [hledger, htold, Ledger.promise?_resolveAll]
    split
    · exact .inr rfl
    · exact .inl rfl
  case channels =>
    intro j
    have hshut : (c.loseChannel id).channels =
        told.channels.insert id (ch.giveUpParked.shut .remote) :=
      (congrArg Connection.channels heq).trans rfl
    rw [hshut, hchannels, Table.insert_insert, Table.contains_insert_of_get? h]
  case inflight =>
    have hkept : (c.loseChannel id).inflight = told.inflight.keep fun w => w.channel ≠ id :=
      (congrArg Connection.inflight heq).trans rfl
    rw [hkept, hinflight, hnone]
    rfl

theorem severed_foldl (hnodup : ids.Nodup) (ho : ∀ id ∈ ids, c.isOpen id = true)
    (hnone : c.inflight = .empty) : Severed ids c (ids.foldl loseChannel c) := by
  induction ids generalizing c with
  | nil => exact ⟨(List.append_nil _).symm, fun _ => .inl rfl, fun _ => rfl, rfl⟩
  | cons id ids ih =>
    obtain ⟨hid, hnodup⟩ := List.nodup_cons.mp hnodup
    obtain ⟨ch, hch, hopen⟩ := isOpen_iff.mp (ho id List.mem_cons_self)
    have hfirst := severed_loseChannel hch hopen hnone
    refine hfirst.append (ih hnodup (fun j hj => ?_) (hfirst.inflight.trans hnone))
    rw [isOpen_loseChannel, ho j (List.mem_cons_of_mem id hj)]
    simpa using fun heq : j = id => hid (heq ▸ hj)

theorem severed_connectionLost (c : Connection) : Severed c.openChannels c.loseInflight
    (c.openChannels.foldl loseChannel c.loseInflight) :=
  severed_foldl (nodup_openChannels c) (fun _ hid => isOpen_iff.mpr (mem_openChannels.mp hid)) rfl

/-! ## The connection -/

theorem entries_connectionLost (c : Connection) : c.connectionLost.journal.entries =
    c.journal.entries ++ (c.openChannels.flatMap parting ++ [.wire none ⟨.inactive, none⟩]) :=
  (congrArg (· ++ [_]) (severed_connectionLost c).entries).trans (List.append_assoc ..)

/-- No frame is sent. -/
theorem wire_connectionLost (c : Connection) :
    c.connectionLost.journal.wire = c.journal.wire ++ [⟨.inactive, none⟩] := by
  have hsilent (ids : List ChannelId) : (ids.flatMap parting).filterMap Entry.wire? = [] := by
    induction ids with
    | nil => rfl
    | cons id ids ih => exact ih
  rw [Journal.wire, entries_connectionLost, List.filterMap_append, List.filterMap_append, hsilent]
  rfl

theorem events_parting (ids : List ChannelId) : (ids.flatMap parting).filterMap Entry.event? =
    ids.map fun id => ⟨id, .remoteClosed .connectionClosed⟩ := by
  induction ids with
  | nil => rfl
  | cons id ids ih => exact congrArg (_ :: ·) ih

theorem about_remoteClosed (hnodup : ids.Nodup) (id : ChannelId) (remote : RemoteClose) :
    Event.about id (ids.map fun id => ⟨id, .remoteClosed remote⟩) =
      if id ∈ ids then [.remoteClosed remote] else [] := by
  induction ids with
  | nil => rfl
  | cons j ids ih =>
    obtain ⟨hj, hnodup⟩ := List.nodup_cons.mp hnodup
    rw [List.map_cons]
    by_cases heq : j = id
    · subst heq
      rw [Event.about_cons_self, ih hnodup, if_neg hj, if_pos List.mem_cons_self]
    · rw [← List.singleton_append, Event.about_append, ih hnodup,
        Event.about_of_ne fun e he => List.mem_singleton.mp he ▸ heq]
      simp [Ne.symm heq]

/-- Every open channel is told once, and no other is told anything. -/
theorem eventsOf_connectionLost (c : Connection) (id : ChannelId) :
    c.connectionLost.journal.eventsOf id = c.journal.eventsOf id ++
      if c.isOpen id then [.remoteClosed .connectionClosed] else [] := by
  have hevents : c.connectionLost.journal.events = c.journal.events ++
      c.openChannels.map fun id => ⟨id, .remoteClosed .connectionClosed⟩ := by
    rw [Journal.events, entries_connectionLost, List.filterMap_append, List.filterMap_append,
      events_parting]
    exact congrArg (_ ++ ·) (List.append_nil _)
  rw [Journal.eventsOf_of_append hevents, about_remoteClosed (nodup_openChannels c)]
  simp only [mem_openChannels, isOpen_iff]

/-- Nothing is held when no channel is open, and nothing was resolved for any other reason. -/
theorem Regular.promise?_connectionLost (hc : c.Regular) (ht : c.ledger.promise? t = some .held) :
    (c.after .connectionLost).ledger.promise? t = some (.kept (.failed .connectionClosed)) := by
  have hfirst : c.loseInflight.ledger.promise? t = c.ledger.promise? t ∨
      c.loseInflight.ledger.promise? t = some (.kept (.failed .connectionClosed)) := by
    change (c.ledger.resolveAll _ _).promise? t = _ ∨ (c.ledger.resolveAll _ _).promise? t = _
    rw [Ledger.promise?_resolveAll]
    split
    · exact .inr rfl
    · exact .inl rfl
  have hthen : (c.after .connectionLost).ledger.promise? t = c.ledger.promise? t ∨
      (c.after .connectionLost).ledger.promise? t = some (.kept (.failed .connectionClosed)) :=
    ((severed_connectionLost c).promises t).elim (fun heq => heq ▸ hfirst) .inr
  refine hthen.resolve_left fun hsame => ?_
  -- a promise that was still held would be waiting with a channel that is open
  have hone := length_places (hc.after .connectionLost).balanced t
  rw [if_pos (Ledger.isHeld_iff.mpr (hsame.trans ht))] at hone
  obtain ⟨p, hp⟩ := List.exists_mem_of_length_pos (hone ▸ Nat.one_pos)
  have hopen := isOpen_of_mem_places hp
  rw [show (c.after .connectionLost).isOpen p.channel = false from
    isOpen_connectionLost c p.channel] at hopen
  cases hopen

/-! ## Runs -/

theorem Tallied.mem_tasks (hc : d.Tallied) (hshut : d.isOpen id = false)
    (hin : d.channels.contains id = true) : .tearDown id ∈ d.tasks := by
  obtain ⟨ch, hch⟩ := Option.isSome_iff_exists.mp hin
  have hcount := hc.doomed id ch hch
  rw [isOpen_of_get? hch, Bool.not_eq_false'] at hshut
  rw [if_pos hshut] at hcount
  exact List.count_pos_iff.mp (hcount ▸ Nat.one_pos)

/-- A channel that is not open is gone when everything that was put off has been done. -/
theorem Tallied.get?_runTasks_of_shut (hc : d.Tallied) (hshut : d.isOpen id = false) :
    d.runTasks.channels.get? id = none := by
  rw [get?_runTasks]
  cases hch : d.channels.get? id with
  | none => exact ite_self _
  | some ch => rw [if_pos (hc.mem_tasks hshut (by rw [Table.contains, hch]; rfl))]

theorem Tallied.eventsOf_runTasks_of_shut (hc : d.Tallied) (hshut : d.isOpen id = false) :
    ∃ turns : List Happening, (∀ what ∈ turns, ∃ on, what = .writability on) ∧
      d.runTasks.journal.eventsOf id = d.journal.eventsOf id ++
        if d.channels.contains id then turns ++ [.inactive, .unregistered] else [] := by
  obtain ⟨turns, hturns, heq⟩ := eventsOf_foldl_runTask d.tasks { d with tasks := [] } id
  refine ⟨turns, hturns, heq.trans (congrArg (_ ++ ·) ?_)⟩
  split
  next hin => rw [if_pos (hc.mem_tasks hshut hin)]
  next => rfl

theorem careful_connectionLost (c : Connection) : c.Careful .connectionLost :=
  ⟨fun _ => rfl, fun _ hmem => nomatch hmem⟩

theorem tallied_connectionLost (h : start config encoder = .ok c) (ho : c.CarefulRun ks) :
    ((c.run ks).after .connectionLost).Tallied := by
  rw [← run_concat]
  exact tallied_run h (carefulRun_append.mpr ⟨ho, careful_connectionLost _, trivial⟩)

/-- When the connection is lost between the calls of a run, whatever its encoder says of itself, all
channels are closed and what they shared is emptied: no stream is registered, no deadline is armed,
no channel waits in the batch, and no write is on its way.  Every promise that was held is kept, as
failed because the connection is closed.  The encoder is given nothing, and the next listener is
told once; so is every channel that was open, and no other.  After that everything that was put off
can be done, which leaves no channel: each of those that were left learns the turns that it has not
learned yet, that it is inactive and that it is unregistered. -/
theorem connection_loss_leaves_nothing (h : start config encoder = .ok c) (ho : c.OrderlyRun ks) :
    let d := (c.run ks).after .connectionLost
    ((∀ id, d.channels.contains id = (c.run ks).channels.contains id) ∧
      (∀ id ch, d.channels.get? id = some ch → ch.closed = true) ∧
      (∀ s, d.registry.get? s = none) ∧ d.timers.entries = [] ∧ d.batch.queue = [] ∧
      (∀ w, d.inflight.get? w = none)) ∧
    (∀ t, (c.run ks).ledger.promise? t = some .held →
      d.ledger.promise? t = some (.kept (.failed .connectionClosed))) ∧
    d.journal.wire = (c.run ks).journal.wire ++ [⟨.inactive, none⟩] ∧
    (∀ id, d.journal.eventsOf id = (c.run ks).journal.eventsOf id ++
      if (c.run ks).isOpen id then [.remoteClosed .connectionClosed] else []) ∧
    (∀ id, (d.after .runTasks).channels.get? id = none) ∧
    ∀ id, ∃ turns : List Happening, (∀ what ∈ turns, ∃ on, what = .writability on) ∧
      (d.after .runTasks).journal.eventsOf id = d.journal.eventsOf id ++
        if d.channels.contains id then turns ++ [.inactive, .unregistered] else [] := by
  intro d
  have hsevered := severed_connectionLost (c.run ks)
  have hshut : ∀ id, d.isOpen id = false := isOpen_connectionLost (c.run ks)
  have htallied : d.Tallied := tallied_connectionLost h ho.careful
  refine ⟨⟨hsevered.channels, fun id ch hch => ?_, Registry.get?_clear _, rfl, rfl, fun w => ?_⟩,
    fun t => ((Regular.of_start h).run ks).promise?_connectionLost, wire_connectionLost _,
    eventsOf_connectionLost _, fun id => htallied.get?_runTasks_of_shut (hshut id),
    fun id => htallied.eventsOf_runTasks_of_shut (hshut id)⟩
  · have hclosed := hshut id
    rwa [isOpen_of_get? hch, Bool.not_eq_false'] at hclosed
  · exact congrArg (Table.get? · w) hsevered.inflight

/-- A write that is on its way fails with the connection, and its channel is told of the loss. -/
theorem lost_connection_fails_write :
    ((fresh {} .willing).run (Call.opening ++ [.write 1 [7]])).ledger.promise? 0 = some .held ∧
    (((fresh {} .willing).run (Call.opening ++ [.write 1 [7]])).after
      .connectionLost).ledger.promise? 0 = some (.kept (.failed .connectionClosed)) ∧
    (((fresh {} .willing).run (Call.opening ++ [.write 1 [7]])).after
      .connectionLost).journal.eventsOf 1 =
        [.handshakeCompleted none none, .remoteClosed .connectionClosed] := by
  have hstart : start {} .willing = .ok (fresh {} .willing) := rfl
  have horderly : (fresh {} .willing).OrderlyRun (Call.opening ++ [.write 1 [7]]) := by decide
  have hheld : ((fresh {} .willing).run (Call.opening ++ [.write 1 [7]])).ledger.promise? 0 =
      some .held := by decide
  obtain ⟨-, hfailed, -, htold, -⟩ := connection_loss_leaves_nothing hstart horderly
  exact ⟨hheld, hfailed 0 hheld, (htold 1).trans (by decide)⟩

end Connection

end ChannelMux
