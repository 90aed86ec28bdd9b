import ChannelMux.Proofs.Dispatch
import ChannelMux.Proofs.Fates

/-!
# Isolation: what is done to one channel leaves the others alone

All channels share one registry, one table of writes that are on their way, one ledger, one set of
deadlines, one batch and one list of tasks, and closing a channel goes through all of them.  Each of
the filters has to pick out the channel or its stream and nothing else.  `Confined` says so of a
stretch of work; it is about one channel and one stream, and stretches that follow each other are
put together, as long as the channel keeps its stream.
-/

namespace ChannelMux

/-- The entry is about the channel, or about the connection as a whole. -/
def Entry.Within (id : ChannelId) : Entry → Prop
  | wire owner _ => owner = some id ∨ owner = none
  | event e => e.channel = id
  | delivered j _ | closed j => j = id

def Task.channel : Task → ChannelId
  | .reportWritability id _ | .tearDown id => id

/-- The deadline is neither about the channel nor about the stream. -/
def Timer.isForeign (id : ChannelId) (s : StreamId) : Timer → Bool
  | .registryRemoval t => t ≠ s
  | .handshakeTimeout j => j ≠ id

namespace Timers

/-- The deadlines that are neither about the channel nor about the stream. -/
def foreign (id : ChannelId) (s : StreamId) (ts : Timers) : List (Time × Timer) :=
  ts.entries.filter fun e => e.2.isForeign id s

variable {id : ChannelId} {s : StreamId} {t : Timer}

theorem filter_place {p : Time × Timer → Bool} {due : Time} (h : p (due, t) = false)
    (es : List (Time × Timer)) : (place due t es).filter p = es.filter p := by
  induction es with
  | nil => simp [place, h]
  | cons e es ih =>
    rw [place]
    split
    · rw [List.filter_cons, List.filter_cons, ih]
    · rw [List.filter_cons_of_neg (by simp [h])]

theorem foreign_cancel (h : t.isForeign id s = false) (ts : Timers) :
    (ts.cancel t).foreign id s = ts.foreign id s := by
  rw [foreign, cancel, List.filter_filter]
  refine List.filter_congr fun e _ => ?_
  by_cases heq : e.2 = t
  · simp [heq, h]
  · simp [heq]

theorem foreign_arm (h : t.isForeign id s = false) (ts : Timers) (due : Time) :
    (ts.arm due t).foreign id s = ts.foreign id s :=
  (filter_place h _).trans (foreign_cancel h ts)

end Timers

namespace Connection

variable {c d e : Connection} {id j : ChannelId} {ch : Channel} {s : StreamId} {t : Ticket}

theorem get?_retired_of_ne {r : Registry ChannelId} {t : StreamId} (h : t ≠ s) (absorb : Bool) :
    (retired r s absorb).get? t = r.get? t := by
  unfold retired
  split_ifs
  · rfl
  · exact Registry.get?_markClosed_of_ne h
  · rw [Registry.get?_remove, if_neg h]

theorem foreign_retiredTimers (ts : Timers) (due : Time) (absorb : Bool) :
    (retiredTimers ts due s absorb).foreign id s = ts.foreign id s := by
  unfold retiredTimers
  split_ifs
  · rfl
  · exact Timers.foreign_arm (by simp [Timer.isForeign]) ts due
  · rfl

/-- The channel owes the outcome of a write: the write is parked with it, or on its way for it. -/
def Owes (c : Connection) (id : ChannelId) (t : Ticket) : Prop :=
  (∃ ch, c.channels.get? id = some ch ∧ t ∈ ch.parkedTickets) ∨
    ∃ w e, c.inflight.get? w = some e ∧ e.channel = id ∧ e.ticket = t

theorem owes_of_mem_inflightTickets (h : t ∈ c.inflightTickets id) : c.Owes id t := by
  obtain ⟨e, he, heq⟩ := List.mem_filterMap.mp h
  split at heq
  next hid => exact .inr ⟨e.1, e.2, (Table.mem_entries_iff ..).mp he, hid, Option.some.inj heq⟩
  next => cases heq

/-- Between two states only what belongs to the channel and the stream has changed. -/
structure Confined (id : ChannelId) (s : StreamId) (c d : Connection) : Prop where
  channels : ∀ j ≠ id, d.channels.get? j = c.channels.get? j
  registry : ∀ t ≠ s, d.registry.get? t = c.registry.get? t
  inflight : ∀ w e, e.channel ≠ id → (d.inflight.get? w = some e ↔ c.inflight.get? w = some e)
  promises : ∀ t < c.ledger.next, ¬ c.Owes id t → d.ledger.promise? t = c.ledger.promise? t
  timers : d.timers.foreign id s = c.timers.foreign id s
  batch : d.batch.queue.filter (· ≠ id) = c.batch.queue.filter (· ≠ id)
  tasks : ∃ ts, d.tasks = c.tasks ++ ts ∧ ∀ t ∈ ts, t.channel = id
  journal : c.journal.Extends (Entry.Within id) d.journal
  /-- The channel owes nothing new. -/
  owed : ∀ t, d.Owes id t → c.Owes id t
  next : c.ledger.next ≤ d.ledger.next

namespace Confined

theorem refl (c : Connection) : Confined id s c c where
  channels _ _ := rfl
  registry _ _ := rfl
  inflight _ _ _ := Iff.rfl
  promises _ _ _ := rfl
  timers := rfl
  batch := rfl
  tasks := ⟨[], (List.append_nil _).symm, fun _ hmem => absurd hmem List.not_mem_nil⟩
  journal := .refl _
  owed _ h := h
  next := Nat.le_refl _

theorem trans (h : Confined id s c d) (h' : Confined id s d e) : Confined id s c e where
  channels j hj := (h'.channels j hj).trans (h.channels j hj)
  registry t ht := (h'.registry t ht).trans (h.registry t ht)
  inflight w i hi := (h'.inflight w i hi).trans (h.inflight w i hi)
  promises t ht hnot :=
    (h'.promises t (Nat.lt_of_lt_of_le ht h.next) fun howes => hnot (h.owed t howes)).trans
      (h.promises t ht hnot)
  timers := h'.timers.trans h.timers
  batch := h'.batch.trans h.batch
  tasks := by
    obtain ⟨ts, hts, hown⟩ := h.tasks
    obtain ⟨us, hus, hown'⟩ := h'.tasks
    exact ⟨ts ++ us, by rw [hus, hts, List.append_assoc], fun t hmem =>
      (List.mem_append.mp hmem).elim (hown t) (hown' t)⟩
  journal := h.journal.trans h'.journal
  owed t howes := h.owed t (h'.owed t howes)
  next := Nat.le_trans h.next h'.next

end Confined

theorem Closing.within {kind : CloseKind} {es : List Entry} (h : Closing c id ch kind es) :
    ∀ e ∈ es, e.Within id := by
  cases h with
  | silent => exact fun _ hmem => absurd hmem List.not_mem_nil
  | framed =>
    intro e hmem
    rcases List.mem_cons.mp hmem with rfl | hmem
    · exact .inl rfl
    · exact List.mem_singleton.mp hmem ▸ .inr rfl

theorem confined_close (h : c.channels.get? id = some ch) (ho : ch.closed = false)
    (kind : CloseKind) : Confined id ch.stream c (c.close id kind) := by
  obtain ⟨es, hes, hclosing⟩ := closing_close h ho kind
  obtain ⟨nextWrite, journal, heq, -⟩ := close_exact h ho kind
  have hjournal : c.journal.Extends (Entry.Within id) (c.close id kind).journal := by
    refine ⟨_, hes, fun e hmem => ?_⟩
    rcases List.mem_append.mp hmem with hmem | hmem
    · exact hclosing.within e hmem
    · exact List.mem_singleton.mp hmem ▸ rfl
  rw [heq] at hjournal ⊢
  constructor
  case channels => exact fun j hj => Table.get?_insert_of_ne hj _ _
  case registry => exact fun t ht => get?_retired_of_ne ht _
  case inflight =>
    intro w e he
    rw [Table.get?_keep, Option.filter_eq_some_iff]
    exact ⟨fun hw => hw.1, fun hw => ⟨hw, decide_eq_true he⟩⟩
  case promises =>
    intro t _ hnot
    dsimp only
    rw [Ledger.promise?_resolveAll, if_neg fun hmem => hnot (owes_of_mem_inflightTickets hmem.1),
      Ledger.promise?_resolveAll, if_neg fun hmem => hnot (.inl ⟨ch, h, hmem.1⟩)]
  case timers =>
    refine (foreign_retiredTimers _ _ _).trans (Timers.foreign_cancel ?_ _)
    simp [Timer.isForeign]
  case batch => simp [List.filter_filter]
  case tasks => exact ⟨_, rfl, fun t hmem => List.mem_singleton.mp hmem ▸ rfl⟩
  case journal => exact hjournal
  case owed =>
    rintro t (⟨e, he, hmem⟩ | ⟨w, e, he, hid, -⟩)
    · rw [Table.get?_insert_self] at he
      rw [← Option.some.inj he, ch.parkedTickets_shut] at hmem
      exact absurd hmem List.not_mem_nil
    · rw [Table.get?_keep, Option.filter_eq_some_iff] at he
      exact absurd hid (of_decide_eq_true he.2)
  case next => exact Nat.le_of_eq (by simp)

/-- Of what is shared, only the channel's record and the journal have changed. -/
theorem confined_of_same (hchannels : ∀ j ≠ id, d.channels.get? j = c.channels.get? j)
    (hparked : ∀ ch', d.channels.get? id = some ch' →
      ∃ ch, c.channels.get? id = some ch ∧ ch'.parked = ch.parked)
    (hregistry : d.registry = c.registry) (hinflight : d.inflight = c.inflight)
    (hledger : d.ledger = c.ledger) (htimers : d.timers = c.timers) (hbatch : d.batch = c.batch)
    (htasks : d.tasks = c.tasks) (hjournal : c.journal.Extends (Entry.Within id) d.journal) :
    Confined id s c d where
  channels := hchannels
  registry _ _ := by rw [hregistry]
  inflight _ _ _ := by rw [hinflight]
  promises _ _ _ := by rw [hledger]
  timers := by rw [htimers]
  batch := by rw [hbatch]
  tasks := ⟨[], by rw [htasks, List.append_nil], fun _ hmem => absurd hmem List.not_mem_nil⟩
  journal := hjournal
  owed t howes := by
    rcases howes with ⟨ch', hch', hmem⟩ | hw
    · obtain ⟨ch, hch, heq⟩ := hparked ch' hch'
      rw [Channel.parkedTickets, heq] at hmem
      exact .inl ⟨ch, hch, hmem⟩
    · exact .inr (hinflight ▸ hw)
  next := Nat.le_of_eq (by rw [hledger])

theorem confined_insert (h : c.channels.get? id = some ch) {ch' : Channel}
    (hparked : ch'.parked = ch.parked) :
    Confined id s c { c with channels := c.channels.insert id ch' } := by
  refine confined_of_same (fun j hj => Table.get?_insert_of_ne hj _ _) (fun e he => ?_) rfl rfl rfl
    rfl rfl rfl (.refl _)
  rw [Table.get?_insert_self] at he
  exact ⟨ch, h, Option.some.inj he ▸ hparked⟩

theorem confined_emit (c : Connection) (id : ChannelId) (what : Happening) :
    Confined id s c (c.emit id what) :=
  confined_of_same (fun _ _ => rfl) (fun ch' h => ⟨ch', h, rfl⟩) rfl rfl rfl rfl rfl rfl
    (Journal.extends_push _ rfl)

theorem confined_failParked (h : c.channels.get? id = some ch) (cause : Fault) :
    Confined id s c (c.failParked id cause) := by
  rw [failParked_eq h]
  refine { Confined.refl c with
    channels := fun j hj => Table.get?_insert_of_ne hj _ _
    promises := fun t _ hnot => ?_
    owed := ?_
    next := Nat.le_of_eq (by simp) }
  · dsimp only
    rw [Ledger.promise?_resolveAll, if_neg fun hmem => hnot (.inl ⟨ch, h, hmem.1⟩)]
  · rintro t (⟨e, he, hmem⟩ | hw)
    · rw [Table.get?_insert_self] at he
      rw [← Option.some.inj he, ch.parkedTickets_giveUpParked] at hmem
      exact absurd hmem List.not_mem_nil
    · exact .inr hw

theorem confined_settleWrite {write : WriteId} {w : Inflight}
    (hw : c.inflight.get? write = some w) (h : c.channels.get? w.channel = some ch)
    (fault : Option WriteFault) : Confined w.channel s c (c.settleWrite write w fault) := by
  obtain ⟨tasks, journal, heq, htasks, hturned⟩ := settleWrite_eq write h fault
  have hback {v : WriteId} {e : Inflight} (he : (c.inflight.erase write).get? v = some e) :
      c.inflight.get? v = some e := Table.get?_of_erase he
  rw [heq]
  constructor
  case channels => exact fun j hj => Table.get?_insert_of_ne hj _ _
  case registry => exact fun _ _ => rfl
  case inflight =>
    intro v e he
    refine ⟨hback, fun hv => ?_⟩
    have hne : v ≠ write := by
      rintro rfl
      exact he (congrArg Inflight.channel (Option.some.inj (hv.symm.trans hw)))
    exact (Table.get?_erase ..).trans ((if_neg hne).trans hv)
  case promises =>
    intro t _ hnot
    refine (Ledger.promise?_resolve ..).trans (if_neg ?_)
    rintro ⟨rfl, -⟩
    exact hnot (.inr ⟨write, w, hw, rfl, rfl⟩)
  case timers => rfl
  case batch => rfl
  case tasks =>
    rcases htasks with rfl | rfl
    · exact (Confined.refl (s := s) c).tasks
    · exact ⟨_, rfl, fun t hmem => List.mem_singleton.mp hmem ▸ rfl⟩
  case journal =>
    refine hturned.mono ?_
    rintro _ rfl
    rfl
  case owed =>
    rintro t (⟨e, he, hmem⟩ | ⟨v, e, he, hown⟩)
    · rw [Table.get?_insert_self] at he
      rw [← Option.some.inj he] at hmem
      exact .inl ⟨ch, h, hmem⟩
    · exact .inr ⟨v, e, hback he, hown⟩
  case next => exact Nat.le_refl _

theorem confined_issue (c : Connection) (p : Promise) : Confined id s c (c.issue p).2 :=
  { Confined.refl c with
    promises := fun _ ht _ => (Ledger.promise?_issue ..).trans (if_neg (Nat.ne_of_lt ht))
    next := Nat.le_succ _ }

/-! ## Failures -/

theorem confined_failChannel (h : c.channels.get? id = some ch) (ho : ch.closed = false)
    (cause : Fault) : Confined id ch.stream c (c.failChannel id cause) :=
  (confined_emit c id (.failed cause)).trans
    (confined_close (c := c.emit id (.failed cause)) h ho .reset)

theorem get?_failParked_self (h : c.channels.get? id = some ch) (cause : Fault) :
    (c.failParked id cause).channels.get? id = some ch.giveUpParked := by
  rw [failParked_eq h, Table.get?_insert_self]

theorem confined_failHandshake (h : c.channels.get? id = some ch) (ho : ch.closed = false)
    (cause : Fault) : Confined id ch.stream c (c.failHandshake id cause) := by
  rw [failHandshake, h]
  simp only [ho, Bool.false_eq_true, if_false]
  exact (confined_failParked h cause).trans
    (confined_failChannel (get?_failParked_self h cause) ho cause)

theorem confined_resetArrived (h : c.channels.get? id = some ch) (ho : ch.closed = false)
    (reason : Reason) : Confined id ch.stream c (c.resetArrived id reason) := by
  let marked := ({ ch with remoteReset := true } : Channel).noteInitiator .theirs
  let c' : Connection := { c with channels := c.channels.insert id marked }
  let told := (c'.failParked id (.streamReset reason)).emit id (.remoteClosed (.reset reason))
  have heq : c.resetArrived id reason = told.close id .remote := by
    rw [resetArrived, h]
    simp only
    rw [updateChannel_eq h]
  have hmarked : c'.channels.get? id = some marked := Table.get?_insert_self ..
  have htold : told.channels.get? id = some marked.giveUpParked := get?_failParked_self hmarked _
  have hfirst : Confined id ch.stream c c' := confined_insert h rfl
  have hthen : Confined id ch.stream c' told :=
    (confined_failParked hmarked _).trans (confined_emit ..)
  have hclosed : Confined id ch.stream told (told.close id .remote) :=
    confined_close htold ho .remote
  rw [heq]
  exact (hfirst.trans hthen).trans hclosed

theorem confined_writeFailed (h : c.channels.get? id = some ch) :
    Confined id ch.stream c (c.writeFailed id) := by
  rcases writeFailed_cases c id with ⟨-, heq⟩ | ⟨e, he, ho, ⟨kind, heq⟩ | ⟨-, heq⟩⟩
  · rw [heq]
    exact .refl c
  · obtain rfl := Option.some.inj (h.symm.trans he)
    rw [heq]
    exact confined_close h ho kind
  · obtain rfl := Option.some.inj (h.symm.trans he)
    rw [heq]
    exact confined_insert h rfl

/-! ## Frames -/

theorem confined_discard (c : Connection) (id : ChannelId) (frames bytes : Nat) :
    Confined id s c (c.discard frames bytes) :=
  confined_of_same (fun _ _ => rfl) (fun ch' h => ⟨ch', h, rfl⟩) rfl rfl rfl rfl rfl rfl (.refl _)

theorem confined_forward (c : Connection) (id : ChannelId) (f : Frame) :
    Confined id s c (c.forward f) :=
  confined_of_same (fun _ _ => rfl) (fun ch' h => ⟨ch', h, rfl⟩) rfl rfl rfl rfl rfl rfl
    (Journal.extends_push _ (.inr rfl))

theorem confined_reading (c : Connection) (id : ChannelId) :
    Confined id s c { c with reading := true } :=
  confined_of_same (fun _ _ => rfl) (fun ch' h => ⟨ch', h, rfl⟩) rfl rfl rfl rfl rfl rfl (.refl _)

/-- A frame on the stream of an open channel is confined if that is so where it reaches the channel.
It reaches the channel unless the channel has no stream yet. -/
theorem confined_frameArrived {f : Frame} (hr : c.Registered) (h : c.channels.get? id = some ch)
    (ho : ch.closed = false) (hs : f.stream = ch.stream)
    (h0 : (Call.frame f).isHeadersOnZero = false) (hsettings : ∀ s, f ≠ .settings s)
    (hgoAway : ∀ last reason debug, f ≠ .goAway last reason debug)
    (hf : Confined id ch.stream { c with reading := true }
      ({ c with reading := true }.channelFrame id f)) :
    Confined id ch.stream c (c.frameArrived f) := by
  unfold frameArrived
  split
  next s => exact absurd rfl (hsettings s)
  next last reason debug => exact absurd rfl (hgoAway last reason debug)
  next =>
    refine (confined_reading c id).trans ?_
    dsimp only
    split
    next j hj =>
      obtain ⟨other, hother, hopen, hstream, hne⟩ := (hr.active f.stream j).mp hj
      obtain rfl : j = id :=
        hr.eq_of_holds ⟨other, hother, hopen, hstream, hne⟩ ⟨ch, h, ho, hs.symm, hne⟩
      exact hf
    · exact confined_discard ..
    next hnone =>
      -- an open channel that is not registered has no stream of its own yet
      have hzero : f.stream = 0 := by
        by_contra hne
        cases hnone.symm.trans ((hr.active f.stream id).mpr ⟨ch, h, ho, hs.symm, hne⟩)
      unfold strayFrame
      split
      next => exact absurd hzero (of_decide_eq_false h0)
      · exact confined_forward ..

/-! ## Calls -/

/-- The call is about the open channel: it closes the channel, reports that its stream has failed or
was reset, brings a frame that breaks a rule or a response that is no acceptance, or reports the
fate of one of its writes. -/
inductive Concerns (c : Connection) (id : ChannelId) (ch : Channel) : Call → Prop
  | close : Concerns c id ch (.close id)
  | closeGracefully : Concerns c id ch (.closeGracefully id)
  | streamFailed (cause : Fault) : Concerns c id ch (.streamFailed ch.stream cause)
  | reset (reason : Reason) : Concerns c id ch (.frame (.reset ch.stream reason))
  | data (payload : Bytes) {padding : Nat} (endStream : Bool) {v : Violation} :
      ch.dataViolation? padding = some v →
      Concerns c id ch (.frame (.data ch.stream payload padding endStream))
  | headers (block : HeaderBlock) {endStream : Bool} :
      ch.handshake ≠ .requestSent → (endStream = false ∨ ch.inboundClosed = true) →
      Concerns c id ch (.frame (.headers ch.stream block endStream))
  | refused {block : HeaderBlock} {endStream : Bool} {f : HandshakeFault} :
      ch.handshake = .requestSent →
      Connect.Response.ofHeaders block endStream ch.requested = .error f →
      Concerns c id ch (.frame (.headers ch.stream block endStream))
  | unacceptable {block : HeaderBlock} {endStream : Bool} {response : Connect.Response}
      {f : ExtensionFault} :
      ch.handshake = .requestSent →
      Connect.Response.ofHeaders block endStream ch.requested = .ok response →
      c.acceptExtensions response.extensions = .error f →
      Concerns c id ch (.frame (.headers ch.stream block endStream))
  | writeCompleted {write : WriteId} {w : Inflight} (fault : Option WriteFault) :
      c.inflight.get? write = some w → w.channel = id →
      Concerns c id ch (.writeCompleted write fault)

theorem confined_closeOnRequest (h : c.channels.get? id = some ch) (ho : ch.closed = false)
    (kind : CloseKind) : Confined id ch.stream c (c.onChannel id (c.closeOnRequest id kind)).2 := by
  rw [onChannel, if_pos (by rw [Table.contains, h]; rfl)]
  exact (confined_close h ho kind).trans (confined_issue ..)

theorem confined_streamFailed (hr : c.Registered) (h : c.channels.get? id = some ch)
    (ho : ch.closed = false) (cause : Fault) :
    Confined id ch.stream c (c.streamFailed ch.stream cause).2 := by
  rw [streamFailed]
  split
  next j hj =>
    obtain ⟨other, hother, hopen, hstream, hne⟩ := (hr.active ch.stream j).mp (get?_of_active? hj)
    obtain rfl : j = id :=
      hr.eq_of_holds ⟨other, hother, hopen, hstream, hne⟩ ⟨ch, h, ho, rfl, hne⟩
    exact confined_failChannel h ho cause
  · exact .refl c

theorem confined_writeCompleted (h : c.channels.get? id = some ch) {write : WriteId} {w : Inflight}
    (hw : c.inflight.get? write = some w) (hid : w.channel = id) (fault : Option WriteFault) :
    Confined id ch.stream c (c.writeCompleted write fault) := by
  subst hid
  have hsettled : Confined w.channel ch.stream c (c.settleWrite write w fault) :=
    confined_settleWrite hw h fault
  cases fault with
  | none => exact (writeCompleted_of_done hw).symm ▸ hsettled
  | some f =>
    rw [writeCompleted_of_some hw]
    have hfailed := confined_writeFailed (get?_settleWrite write h (some f))
    exact hsettled.trans hfailed

theorem confined_after (hr : c.Registered) (h : c.channels.get? id = some ch)
    (ho : ch.closed = false) {k : Call} (h0 : k.isHeadersOnZero = false)
    (hk : c.Concerns id ch k) : Confined id ch.stream c (c.after k) := by
  let c' : Connection := { c with reading := true }
  have h' : c'.channels.get? id = some ch := h
  cases hk with
  | close => exact confined_closeOnRequest h ho .reset
  | closeGracefully => exact confined_closeOnRequest h ho .graceful
  | streamFailed cause => exact confined_streamFailed hr h ho cause
  | reset reason =>
    exact confined_frameArrived hr h ho rfl h0 (by simp) (by simp)
      (confined_resetArrived h' ho reason)
  | @data payload padding endStream v hv =>
    refine confined_frameArrived hr h ho rfl h0 (by simp) (by simp) ?_
    change Confined id ch.stream c' (c'.dataArrived id payload padding endStream)
    rw [dataArrived, h']
    simp only [hv]
    exact (confined_discard c' id 1 payload.length).trans
      (confined_failChannel (c := c'.discard 1 payload.length) h' ho _)
  | @headers block endStream hs hbad =>
    refine confined_frameArrived hr h ho rfl h0 (by simp) (by simp) ?_
    change Confined id ch.stream c' (c'.headersArrived id block endStream)
    rw [headersArrived, h']
    simp only [if_neg hs]
    rw [if_pos (by simpa using hbad)]
    exact confined_failChannel h' ho _
  | @refused block endStream f hs hrefused =>
    refine confined_frameArrived hr h ho rfl h0 (by simp) (by simp) ?_
    change Confined id ch.stream c' (c'.headersArrived id block endStream)
    rw [headersArrived, h']
    simp only [if_pos hs, responseArrived, h', hrefused]
    exact confined_failHandshake h' ho _
  | @unacceptable block endStream response f hs hok hterms =>
    refine confined_frameArrived hr h ho rfl h0 (by simp) (by simp) ?_
    change Confined id ch.stream c' (c'.headersArrived id block endStream)
    have hterms' : c'.acceptExtensions response.extensions = .error f := hterms
    rw [headersArrived, h']
    simp only [if_pos hs, responseArrived, h', hok, hterms']
    exact confined_failHandshake h' ho _
  | writeCompleted fault hw hid => exact confined_writeCompleted h hw hid fault

/-! ## Runs -/

/-- What an open channel owes waits with it. -/
theorem exists_place_of_owes (hb : Balanced ⟨c, []⟩) (h : c.channels.get? id = some ch)
    (ho : ch.closed = false) (howes : c.Owes id t) : ∃ p ∈ c.places t, p.channel = id := by
  rcases howes with ⟨e, he, hmem⟩ | ⟨w, e, he, hid, ht⟩
  · obtain rfl := Option.some.inj (h.symm.trans he)
    have hparking := hb.parking id ch h
    rw [hparking.parkedTickets_eq] at hmem
    have hpending : ch.handshake.isPending = true := by
      by_contra hnot
      rw [hparking.decided (Bool.not_eq_true _ ▸ hnot)] at hmem
      exact absurd hmem List.not_mem_nil
    obtain ⟨w, hw, hwt⟩ := List.mem_map.mp hmem
    refine ⟨.parked id, List.mem_append_left _ (List.mem_flatMap.mpr ⟨(id, ch),
      (Table.mem_entries_iff ..).mpr h, ?_⟩), rfl⟩
    rw [if_pos ⟨ho, hpending⟩]
    exact List.mem_map.mpr ⟨w, List.mem_filter.mpr ⟨hw, decide_eq_true hwt⟩, rfl⟩
  · refine ⟨.onItsWay w e.channel, List.mem_append_right _ (List.mem_filterMap.mpr ⟨(w, e),
      (Table.mem_entries_iff ..).mpr he, ?_⟩), hid⟩
    exact if_pos ⟨ht, hb.owned w e he⟩

/-- Whatever is done to an open channel between the calls of a run leaves the others as they are:
their records, the entries of all other streams, their writes that are on their way and the promises
of all their writes, the deadlines that are about none of the two, and the order in which the others
wait in the batch.  What is put off, reported and handed to the encoder is about the channel, or
about none. -/
theorem open_channels_are_isolated {config : Config} {encoder : Encoder}
    (h : start config encoder = .ok c) {ks : List Call} (ho : c.OrderlyRun ks) {k : Call}
    (hk : (c.run ks).Orderly k) (hch : (c.run ks).channels.get? id = some ch)
    (hopen : ch.closed = false) (hown : (c.run ks).Concerns id ch k) :
    Confined id ch.stream (c.run ks) ((c.run ks).after k) ∧
    ∀ t, (c.run ks).ledger.promise? t = some .held →
      (∀ p ∈ (c.run ks).places t, p.channel ≠ id) →
      ((c.run ks).after k).ledger.promise? t = some .held := by
  have hconfined := confined_after (registered_run h ho.careful) hch hopen hk.1 hown
  have hbalanced := ((Regular.of_start h).run ks).balanced
  refine ⟨hconfined, fun t ht hothers => ?_⟩
  have hissued : t < (c.run ks).ledger.next := by
    by_contra hnot
    rw [hbalanced.sound.unissued t (Nat.not_lt.mp hnot)] at ht
    cases ht
  have hnot : ¬ (c.run ks).Owes id t := by
    intro howes
    obtain ⟨p, hp, hid⟩ := exists_place_of_owes hbalanced hch hopen howes
    exact hothers p hp hid
  rw [hconfined.promises t hissued hnot, ht]

/-- A client closes its first channel while a write is parked with the second. -/
theorem closing_spares_second_channel :
    let d := (fresh {} .willing).run (Call.opening ++ [.openStream "/news" none, .write 2 [7]])
    d.isOpen 1 = true ∧ d.places 0 = [.parked 2] ∧
    (d.after (.close 1)).channels.get? 2 = d.channels.get? 2 ∧
    (d.after (.close 1)).ledger.promise? 0 = some .held := by
  intro d
  have hstart : start {} .willing = .ok (fresh {} .willing) := rfl
  have horderly : (fresh {} .willing).OrderlyRun
      (Call.opening ++ [.openStream "/news" none, .write 2 [7]]) := by decide
  have hclose : d.Orderly (.close 1) := by decide
  have hopen : d.isOpen 1 = true := by decide
  have hplace : d.places 0 = [.parked 2] := by decide
  obtain ⟨ch, hch, hshut⟩ := isOpen_iff.mp hopen
  obtain ⟨hconfined, hheld⟩ := open_channels_are_isolated hstart horderly hclose hch hshut .close
  refine ⟨hopen, hplace, hconfined.channels 2 (by decide), hheld 0 (by decide) fun p hp => ?_⟩
  rw [hplace] at hp
  exact List.mem_singleton.mp hp ▸ (by decide)

end Connection

end ChannelMux
