import ChannelMux.Proofs.CorePaths

/-!
# Finishing: how a finished stream closes itself

A stream is finished when nothing can pass in either direction any more.  Its channel closes itself
when what it has received is delivered, provided that the read that delivers the last item may
deliver one more: only then is the empty queue found.  `Counted` relates the budget of a read to
what the journal says it has delivered, and so the channels that miss their end are those whose
last read spent its whole budget.
-/

namespace ChannelMux

/-- An open channel, and the tally of its reads. -/
structure Channel.Counted (config : Config) (t : Tally) (ch : Channel) : Prop where
  /-- Only where a failed write does not close a channel is one half of it closed by us. -/
  policy : ch.outboundClosed = true → config.closeOnWriteFailure = false
  resting : ch.demand = .idle → t.current = 0
  reading : ch.demand ≠ .idle → ch.budget + t.current = config.messagesPerRead
  finished : ch.inboundClosed = true → ch.outboundClosed = true → ch.inbound = [] →
    t.last = config.messagesPerRead
  notOurs : ch.initiator ≠ some .ours
  theirs : ch.inboundClosed = true → ch.initiator = some .theirs

namespace Channel.Counted

variable {config : Config} {t : Tally} {ch ch' : Channel}

theorem congr (h : ch.Counted config t) (hout : ch'.outboundClosed = ch.outboundClosed)
    (hin : ch'.inboundClosed = ch.inboundClosed) (hdemand : ch'.demand = ch.demand)
    (hqueue : ch'.inbound = ch.inbound) (hbudget : ch'.budget = ch.budget)
    (hinit : ch'.initiator = ch.initiator) : ch'.Counted config t where
  policy := hout ▸ h.policy
  resting := hdemand ▸ h.resting
  reading := hdemand ▸ hbudget ▸ h.reading
  finished := by rw [hin, hout, hqueue]; exact h.finished
  notOurs := hinit ▸ h.notOurs
  theirs := by rw [hin, hinit]; exact h.theirs

theorem akin (h : ch.Counted config t) (hakin : ch.Akin ch') : ch'.Counted config t := by
  have hinit : ch'.initiator = ch.initiator ∨ ch'.initiator = some .theirs :=
    hakin.initiator.imp_right fun h => h.2
  refine
    { policy := hakin.outboundClosed ▸ h.policy
      resting := hakin.demand ▸ h.resting
      reading := hakin.demand ▸ hakin.budget ▸ h.reading
      finished := by
        rw [hakin.inboundClosed, hakin.outboundClosed, hakin.inbound]; exact h.finished
      notOurs := ?_
      theirs := ?_ }
  · rcases hinit with heq | heq
    · exact heq ▸ h.notOurs
    · rw [heq]; decide
  · intro hin
    rcases hinit with heq | heq
    · exact heq.trans (h.theirs (hakin.inboundClosed ▸ hin))
    · exact heq

/-- The first item to come keeps the queue from being empty. -/
theorem receive (h : ch.Counted config t) (item : Inbound) :
    (ch.receive item).Counted config t := by
  have hnote : (ch.initiator.getD .theirs) = .theirs := by
    cases hinit : ch.initiator with
    | none => rfl
    | some who =>
      cases who with
      | ours => exact absurd hinit h.notOurs
      | theirs => rfl
  rw [Channel.receive]
  dsimp only
  split
  next hend =>
    refine ⟨h.policy, h.resting, h.reading, ?_, ?_, fun _ => congrArg some hnote⟩
    · intro _ _ hq
      exact absurd hq (List.append_ne_nil_of_right_ne_nil _ (List.cons_ne_nil item []))
    · change some (ch.initiator.getD .theirs) ≠ _
      rw [hnote]
      decide
  next =>
    refine ⟨h.policy, h.resting, h.reading, ?_, h.notOurs, h.theirs⟩
    intro _ _ hq
    exact absurd hq (List.append_ne_nil_of_right_ne_nil _ (List.cons_ne_nil item []))

theorem requestRead (h : ch.Counted config t) :
    (ch.requestRead config.messagesPerRead).Counted config t := by
  have hagain : ch.demand ≠ .idle → ({ ch with demand := .requested }).Counted config t :=
    fun hd => ⟨h.policy, fun hidle => (by cases hidle), fun _ => h.reading hd, h.finished,
      h.notOurs, h.theirs⟩
  rw [Channel.requestRead]
  split
  next hd =>
    refine ⟨h.policy, ?_, ?_, h.finished, h.notOurs, h.theirs⟩
    · intro hidle
      cases hidle
    · intro _
      rw [h.resting hd]
      rfl
  next hd => exact hagain (by rw [hd]; decide)
  next hd => exact hagain (by rw [hd]; decide)

theorem finishRead (h : ch.Counted config t) :
    (ch.finishRead config.messagesPerRead).Counted config t.complete := by
  refine ⟨h.policy, fun _ => rfl, ?_, h.finished, h.notOurs, h.theirs⟩
  intro hwanted
  have hd : ch.demandAfterRead ≠ .idle := hwanted
  change (if ch.demandAfterRead = .idle then 0 else config.messagesPerRead) + 0 = _
  rw [if_neg hd, Nat.add_zero]

/-- A delivery that leaves nothing behind and does not close the channel has spent the budget. -/
theorem handed (h : ch.Counted config t) (hr : ch.Ready) {n : Nat}
    (hn : n = min ch.inbound.length ch.budget)
    (hstays : ch.inbound.length < ch.budget ∨ ch.inbound = [] → ch.isStreamClosed = false)
    (reported unflushed : Bool) :
    ({ ch.handed n reported with unflushed := unflushed }).Counted config (t.advance n) := by
  have hsum := h.reading hr.wanted
  refine ⟨h.policy, fun hd => absurd hd hr.wanted, ?_, ?_, h.notOurs, h.theirs⟩
  · intro _
    change ch.budget - n + _ = _
    rw [Tally.current_advance]
    omega
  · intro hin hout hq
    have hempty : ch.inbound.drop n = [] := hq
    rw [List.drop_eq_nil_iff] at hempty
    have hfinished : ch.isStreamClosed = true := by
      rw [Channel.isStreamClosed, show ch.inboundClosed = true from hin,
        show ch.outboundClosed = true from hout]
      simp
    have hspent : ¬ (ch.inbound.length < ch.budget ∨ ch.inbound = []) := fun hall =>
      absurd (hfinished.symm.trans (hstays hall)) (by decide)
    rw [not_or, ← List.length_eq_zero_iff] at hspent
    rw [Tally.last_advance _ (by omega)]
    omega

end Channel.Counted

namespace Connection

variable {strict : Prop} {c c' d : Connection} {id : ChannelId} {ch ch' : Channel}

/-- Every open channel is counted, and nothing was delivered to a channel that is still to come. -/
structure Counted (c : Connection) : Prop where
  channels : ∀ id ch, c.channels.get? id = some ch → ch.closed = false →
    ch.Counted c.config (c.journal.tally id)
  fresh : ∀ id, c.nextChannel ≤ id → c.journal.tally id = {}

/-- What closing a channel leaves alone. -/
theorem close_unmoved (c : Connection) (id : ChannelId) (kind : CloseKind) :
    (c.close id kind).config = c.config ∧ (c.close id kind).nextChannel = c.nextChannel ∧
      c.journal.Apart (c.close id kind).journal := by
  rcases close_cases c id kind with ⟨-, heq⟩ | ⟨ch, h, ho⟩
  · rw [heq]; exact ⟨rfl, rfl, .refl _⟩
  · obtain ⟨_, _, _, _, heq, -, hapart⟩ := close_eq h ho kind
    rw [heq]
    exact ⟨rfl, rfl, hapart⟩

namespace Counted

theorem of_back (hc : c.Counted) (hconfig : c'.config = c.config)
    (hnext : c.nextChannel ≤ c'.nextChannel)
    (htally : ∀ id, c'.journal.tally id = c.journal.tally id)
    (hback : ∀ id ch', c'.channels.get? id = some ch' → ch'.closed = false →
      ∃ ch, c.channels.get? id = some ch ∧ ch.closed = false ∧
        ∀ t, ch.Counted c.config t → ch'.Counted c.config t) : c'.Counted where
  channels id ch' hch' ho := by
    obtain ⟨ch, hch, ho', hcounted⟩ := hback id ch' hch' ho
    rw [hconfig, htally]
    exact hcounted _ (hc.channels id ch hch ho')
  fresh id hid := (htally id).trans (hc.fresh id (Nat.le_trans hnext hid))

/-- One channel has changed, and nothing was delivered or completed. -/
theorem of_insert (hc : c.Counted) (h : c.channels.get? id = some ch)
    (hchannels : c'.channels = c.channels.insert id ch') (hconfig : c'.config = c.config)
    (hnext : c'.nextChannel = c.nextChannel) (hjournal : c.journal.Apart c'.journal)
    (ho : ch'.closed = ch.closed) (hcounted : ∀ t, ch.Counted c.config t → ch'.Counted c.config t) :
    c'.Counted := by
  apply hc.of_back hconfig (Nat.le_of_eq hnext.symm) hjournal.tally_eq
  intro j e hj hopen
  rw [hchannels] at hj
  rcases Table.get?_insert_cases hj with ⟨hji, rfl⟩ | hj
  · exact ⟨ch, hji ▸ h, ho.symm.trans hopen, hcounted⟩
  · exact ⟨e, hj, hopen, fun _ he => he⟩

theorem update (hc : c.Counted) (id : ChannelId) {f : Channel → Channel}
    (ho : ∀ ch : Channel, (f ch).closed = ch.closed)
    (hf : ∀ ch t, ch.Counted c.config t → (f ch).Counted c.config t) :
    (c.updateChannel id f).Counted := by
  refine hc.of_back rfl (Nat.le_refl _) (fun _ => rfl) ?_
  intro j e hj hopen
  rw [get?_updateChannel] at hj
  split at hj
  next =>
    obtain ⟨ch, hch, rfl⟩ := Option.map_eq_some_iff.mp hj
    exact ⟨ch, hch, (ho ch).symm.trans hopen, hf ch⟩
  next => exact ⟨e, hj, hopen, fun _ he => he⟩

/-- Nothing has changed for channels, of which some may have been forgotten. -/
theorem of_subset (hc : c.Counted)
    (hchannels : ∀ id ch, c'.channels.get? id = some ch → c.channels.get? id = some ch)
    (hconfig : c'.config = c.config) (hnext : c'.nextChannel = c.nextChannel)
    (hjournal : c.journal.Apart c'.journal) : c'.Counted :=
  hc.of_back hconfig (Nat.le_of_eq hnext.symm) hjournal.tally_eq fun j e hj hopen =>
    ⟨e, hchannels j e hj, hopen, fun _ he => he⟩

theorem of_eq (hc : c.Counted) (hchannels : c'.channels = c.channels)
    (hconfig : c'.config = c.config) (hnext : c'.nextChannel = c.nextChannel)
    (hjournal : c.journal.Apart c'.journal) : c'.Counted :=
  hc.of_subset (fun _ _ hj => hchannels ▸ hj) hconfig hnext hjournal

theorem erase (hc : c.Counted) (hchannels : c'.channels = c.channels.erase id)
    (hconfig : c'.config = c.config) (hnext : c'.nextChannel = c.nextChannel)
    (hjournal : c.journal.Apart c'.journal) : c'.Counted := by
  refine hc.of_subset ?_ hconfig hnext hjournal
  intro j e hj
  rw [hchannels] at hj
  exact Table.get?_of_erase hj

/-- One channel has been read from. -/
theorem of_read (hc : c.Counted) (hid : id < c.nextChannel) (hconfig : c'.config = c.config)
    (hnext : c'.nextChannel = c.nextChannel) (t : Tally)
    (htally : ∀ j, c'.journal.tally j = if j = id then t else c.journal.tally j)
    (hother : ∀ j, j ≠ id → c'.channels.get? j = c.channels.get? j)
    (hself : ∀ ch, c'.channels.get? id = some ch → ch.closed = false → ch.Counted c.config t) :
    c'.Counted where
  channels j e hj ho := by
    rw [hconfig, htally]
    split
    next hji => exact hself e (hji ▸ hj) ho
    next hji => exact hc.channels j e (hother j hji ▸ hj) ho
  fresh j hj := by
    rw [hnext] at hj
    rw [htally, if_neg (Nat.ne_of_gt (Nat.lt_of_lt_of_le hid hj))]
    exact hc.fresh j hj

theorem close (hc : c.Counted) (id : ChannelId) (kind : CloseKind) : (c.close id kind).Counted :=
  have ⟨hconfig, hnext, hjournal⟩ := close_unmoved c id kind
  hc.of_back hconfig (Nat.le_of_eq hnext.symm) hjournal.tally_eq fun _ e hj hopen =>
    ⟨e, get?_of_open_close hj hopen, hopen, fun _ he => he⟩

theorem beside (hc : c.Counted) (h : Beside c c') : c'.Counted := by
  apply hc.of_back h.config (Nat.le_of_eq h.nextChannel.symm) h.journal.tally_eq
  intro j e hj hopen
  obtain ⟨ch, hch, hakin⟩ := h.channels.back hj
  exact ⟨ch, hch, hakin.closed.symm.trans hopen, fun t ht => ht.akin hakin⟩

/-! ## Reading -/

theorem delivered (hc : c.Counted) (ht : c.Tidy) (id : ChannelId) : (c.deliver id).2.Counted := by
  have hdelivery := delivery c id
  have hothers : ∀ j, j ≠ id → (c.deliver id).2.channels.get? j = c.channels.get? j :=
    fun _ hj => get?_deliver_of_ne hj
  generalize (c.deliver id).1 = n at hdelivery
  generalize (c.deliver id).2 = d at hdelivery hothers ⊢
  cases hdelivery with
  | refused _ => exact hc
  | @handed ch _ reported unflushed journal h hr hn hhands hstays =>
    refine hc.of_read (ht.numbered h) rfl rfl ((c.journal.tally id).advance n) ?_ hothers ?_
    · intro j
      rw [hhands j]
      split
      next hji => rw [hji]
      next => rfl
    · intro e he _
      obtain rfl := Option.some.inj ((Table.get?_insert_self ..).symm.trans he)
      exact (hc.channels id ch h hr.opened).handed hr hn hstays reported unflushed
  | @closed ch _ reported journal h hr hn hhands hall hfinished =>
    obtain ⟨hconfig, hnext, hjournal⟩ :=
      close_unmoved (c.handed id ch n reported journal) id .remote
    refine hc.of_read (ht.numbered h) hconfig hnext ((c.journal.tally id).advance n) ?_
      hothers ?_
    · intro j
      rw [hhands.apart hjournal j]
      split
      next hji => rw [hji]
      next => rfl
    · intro e he ho
      have hshut := isOpen_close_self (c.handed id ch n reported journal) id .remote
      rw [isOpen_of_get? he, ho] at hshut
      cases hshut

theorem completed (hc : c.Counted) (ht : c.Tidy) (id : ChannelId) :
    (c.fireReadComplete id).Counted := by
  cases h : c.channels.get? id with
  | none => rw [fireReadComplete, h]; exact hc
  | some ch =>
    rw [fireReadComplete_eq h]
    refine hc.of_read (ht.numbered h) rfl rfl (c.journal.tally id).complete (fun j => ?_)
      (fun j hj => Table.get?_insert_of_ne hj ..) fun e he ho => ?_
    · rw [Journal.tally_push]
      change (if _ then _ else _) = _
      by_cases hji : j = id
      · rw [if_pos (by rw [hji]), if_pos hji, hji]
      · rw [if_neg hji, if_neg fun he => hji (congrArg Event.channel he).symm]
    · obtain rfl := Option.some.inj ((Table.get?_insert_self ..).symm.trans he)
      exact (hc.channels id ch h ho).finishRead

theorem readStep (hc : c.Counted) (ht : c.Tidy) (h : ReadStep c c') : c'.Counted := by
  cases h with
  | requested id =>
    exact hc.update id (fun ch => (alike_requestRead ch _).closed) fun _ _ hch => hch.requestRead
  | automated id on =>
    exact hc.update id (fun _ => rfl) fun _ _ hch => hch.congr rfl rfl rfl rfl rfl rfl
  | delivered id => exact hc.delivered ht id
  | completed id => exact hc.completed ht id
  | @queued id batch _ =>
    have hbatch : ({ c with batch := batch }).Counted := hc.of_eq rfl rfl rfl (.refl _)
    exact hbatch.update id (fun _ => rfl) fun _ _ hch => hch.congr rfl rfl rfl rfl rfl rfl
  | drainBegun => exact hc.of_eq rfl rfl rfl (.refl _)
  | drainFinished => exact hc.of_eq rfl rfl rfl (.refl _)
  | cycleEnded => exact hc.of_eq rfl rfl rfl (.refl _)
  | swept =>
    refine hc.of_back rfl (Nat.le_refl _) ((Journal.Apart.refl _).push rfl).tally_eq ?_
    intro j e hj hopen
    have hmapped : (c.channels.get? j).map Connection.flushed = some e :=
      (Table.get?_mapEntries ..).symm.trans hj
    obtain ⟨ch, hch, rfl⟩ := Option.map_eq_some_iff.mp hmapped
    exact ⟨ch, hch, hopen, fun _ hch => hch.congr rfl rfl rfl rfl rfl rfl⟩

theorem readPath (hc : c.Counted) (ht : c.Tidy) (h : ReadPath c c') : c'.Counted := by
  induction h with
  | refl => exact hc
  | tail hpath hstep ih => exact ih.readStep (ht.readPath hpath) hstep

/-! ## Runs -/

theorem made (hc : c.Counted) (path : String) :
    { c with
      channels := c.channels.insert c.nextChannel (c.newChannel path)
      nextChannel := c.nextChannel + 1 }.Counted where
  channels j e hj ho := by
    rcases Table.get?_insert_cases hj with ⟨hji, rfl⟩ | hj
    · have htally : c.journal.tally j = {} := hc.fresh j (Nat.le_of_eq hji.symm)
      change (c.newChannel path).Counted c.config (c.journal.tally j)
      rw [htally]
      refine ⟨nofun, fun _ => rfl, ?_, nofun, nofun, nofun⟩
      intro hd
      cases hauto : c.config.autoRead with
      | false => exact absurd (by simp [newChannel, hauto]) hd
      | true => simp [newChannel, hauto]
    · exact hc.channels j e hj ho
  fresh j hj := hc.fresh j (Nat.le_of_succ_le hj)

theorem registryStep (hc : c.Counted) (ht : c.Tidy) (h : RegistryStep strict c c') :
    c'.Counted := by
  cases h with
  | beside h => exact hc.beside h
  | closed id kind => exact hc.close id kind
  | made path => exact hc.made path
  | assigned h _ _ _ _ =>
    exact hc.of_insert h rfl rfl rfl (.refl _) rfl fun _ hch => hch.congr rfl rfl rfl rfl rfl rfl
  | forgotten _ _ _ _ => exact hc.erase rfl rfl rfl (.refl _)
  | ended h _ hpolicy hmore =>
    refine hc.of_insert h rfl rfl rfl (.refl _) rfl ?_
    intro t hch
    exact ⟨fun _ => hpolicy, hch.resting, hch.reading, fun hin _ hq => absurd ⟨hin, hq⟩ hmore,
      hch.notOurs, hch.theirs⟩
  | expired stream => exact hc.of_eq rfl rfl rfl (.refl _)
  | tornDown _ => exact hc.erase rfl rfl rfl (.refl _)
  | cleared _ => exact hc.of_eq rfl rfl rfl (.refl _)
  | @received id ch item h _ =>
    have hqueued : { c with channels := c.channels.insert id (ch.receive item) }.Counted :=
      hc.of_insert h rfl rfl rfl (.refl _) (alike_receive _ item).closed
        fun _ hch => hch.receive item
    exact hqueued.readPath (ht.quiet (.insert h _ (alike_receive _ item) _)) (readPath_receive ..)
  | cycleEnded => exact hc.readPath ht (readPath_readCycleEnded c)
  | readBegun id => exact hc.readPath ht (readPath_beginRead c id)
  | autoReadSet id on => exact hc.readPath ht (readPath_setAutoRead c id on)

theorem registryPath (hc : c.Counted) (ht : c.Tidy) (h : RegistryPath strict c c') :
    c'.Counted := by
  induction h with
  | refl => exact hc
  | tail hpath hstep ih => exact ih.registryStep (ht.registryPath hpath) hstep

end Counted

theorem counted_start {config : Config} {encoder : Encoder} (h : start config encoder = .ok c) :
    c.Counted := by
  rw [(start_eq h).1]
  exact { channels := fun _ _ hch => (nomatch hch), fresh := fun _ _ => rfl }

theorem counted_run {config : Config} {encoder : Encoder} (h : start config encoder = .ok c)
    (ks : List Call) : (c.run ks).Counted :=
  (counted_start h).registryPath (tidy_start h) (registryPath_run c ks (False.elim : False → _))

/-! ## The end of a channel -/

/-- A channel is closed and its stream is registered no more. -/
def Gone (c : Connection) (id : ChannelId) (stream : StreamId) : Prop :=
  c.isOpen id = false ∧ (stream ≠ 0 → c.registry.get? stream = none)

/-- The stream of a channel that the peer has ended is given up at once. -/
theorem gone_close (h : c.channels.get? id = some ch) (ho : ch.closed = false)
    (hinit : ch.initiator = some .theirs) (kind : CloseKind) :
    (c.close id kind).Gone id ch.stream := by
  refine ⟨isOpen_close_self c id kind, ?_⟩
  intro h0
  have hshut : (ch.shut kind).initiator = some .theirs := by
    change some (ch.initiator.getD _) = _
    rw [hinit]
    rfl
  obtain ⟨_, _, _, _, heq, -⟩ := close_eq h ho kind
  rw [heq]
  change (retired c.registry ch.stream (c.isActive && decide (_ = _))).get? ch.stream = none
  rw [hshut, retired, if_neg h0]
  simp [Registry.get?_remove]

section

variable (h : c.channels.get? id = some ch) (hr : ch.Ready)
include h hr

/-- A read that finds the queue of a finished stream empty closes its channel. -/
theorem gone_deliver (hin : ch.inboundClosed = true) (hout : ch.outboundClosed = true)
    (hinit : ch.initiator = some .theirs)
    (hall : ch.inbound.length < ch.budget ∨ ch.inbound = []) :
    (c.deliver id).2.Gone id ch.stream := by
  have hdelivery := delivery c id
  generalize (c.deliver id).1 = n at hdelivery
  generalize (c.deliver id).2 = d at hdelivery ⊢
  cases hdelivery with
  | refused hnot => exact absurd hr (hnot ch h)
  | handed he _ _ _ hstays =>
    obtain rfl := Option.some.inj (h.symm.trans he)
    have hopen := hstays hall
    rw [Channel.isStreamClosed, hin, hout, Bool.and_true, Bool.or_true] at hopen
    cases hopen
  | @closed e n reported journal he _ _ _ _ _ =>
    obtain rfl := Option.some.inj (h.symm.trans he)
    exact gone_close (get?_handed c id ch n reported journal) hr.opened hinit .remote

/-- A read that delivers all that it may does not find out that the queue is empty. -/
theorem isOpen_deliver (hne : ch.inbound ≠ []) (hspent : ch.budget ≤ ch.inbound.length) :
    (c.deliver id).1 = ch.budget ∧ (c.deliver id).2.isOpen id = true := by
  have hdelivery := delivery c id
  generalize (c.deliver id).1 = n at hdelivery ⊢
  generalize (c.deliver id).2 = d at hdelivery ⊢
  cases hdelivery with
  | refused hnot => exact absurd hr (hnot ch h)
  | handed he _ hn _ _ =>
    obtain rfl := Option.some.inj (h.symm.trans he)
    refine ⟨by omega, ?_⟩
    rw [isOpen_of_get? (Table.get?_insert_self ..)]
    exact congrArg (!·) hr.opened
  | closed he _ _ _ hall _ =>
    obtain rfl := Option.some.inj (h.symm.trans he)
    rcases hall with hlt | hnil
    · exact absurd hlt (Nat.not_lt_of_le hspent)
    · exact absurd hnil hne

end

/-- A failed write closes the channel of a stream that has ended and of which all is delivered. -/
theorem gone_writeFailed (h : c.channels.get? id = some ch) (ho : ch.closed = false)
    (hin : ch.inboundClosed = true) (hq : ch.inbound = []) (hinit : ch.initiator = some .theirs) :
    (c.writeFailed id).Gone id ch.stream := by
  rw [writeFailed, h]
  dsimp only
  rw [if_neg (by rw [ho]; decide)]
  split
  · exact gone_close h ho hinit .reset
  · split
    next =>
      rw [close_ended h ho]
      exact gone_close h ho hinit .remote
    next hend =>
      refine absurd ?_ hend
      simp [Channel.isStreamClosed, hin, hq]

/-- Between the calls of a run an open channel whose stream is finished, with nothing left to
deliver, is one whose last read delivered all that a read may, where a failed write does not close
the channel.  In no other way is the end of a stream missed: a read with more to spend than there is
closes the channel and gives up the stream, as does a failed write after the last item. -/
theorem finished_stays_open_only_after_full_read {config : Config} {encoder : Encoder}
    {c : Connection} (h : start config encoder = .ok c) (ks : List Call) :
    -- between calls
    (∀ id ch, (c.run ks).channels.get? id = some ch → ch.closed = false →
      ch.inboundClosed = true → ch.initiator = some .theirs ∧
        (ch.outboundClosed = true → ch.inbound = [] →
          config.closeOnWriteFailure = false ∧
          ((c.run ks).journal.tally id).last = config.messagesPerRead)) ∧
    -- the two places at which the end is looked for
    (∀ (d : Connection) (id : ChannelId) (ch : Channel), d.channels.get? id = some ch →
      ch.closed = false → ch.inboundClosed = true → ch.initiator = some .theirs →
      (ch.outboundClosed = true → ch.Ready →
        (ch.inbound.length < ch.budget ∨ ch.inbound = [] →
          (d.deliver id).2.Gone id ch.stream) ∧
        (ch.inbound ≠ [] → ch.budget ≤ ch.inbound.length →
          (d.deliver id).1 = ch.budget ∧ (d.deliver id).2.isOpen id = true)) ∧
      (ch.inbound = [] → (d.writeFailed id).Gone id ch.stream)) := by
  have hc := counted_run h ks
  constructor
  · intro id ch hch ho hin
    have hcounted := hc.channels id ch hch ho
    have hconfig := config_run h ks
    refine ⟨hcounted.theirs hin, fun hout hq => ⟨?_, ?_⟩⟩
    · rw [← hconfig]; exact hcounted.policy hout
    · rw [← hconfig]; exact hcounted.finished hin hout hq
  · intro d id ch hch ho hin hinit
    refine ⟨fun hout hr => ⟨?_, ?_⟩, ?_⟩
    · intro hall
      exact gone_deliver hch hr hin hout hinit hall
    · intro hne hspent
      exact isOpen_deliver hch hr hne hspent
    · intro hq
      exact gone_writeFailed hch ho hin hq hinit

/-- A client whose failed writes close no channel, and whose reads deliver one item each. -/
def patient : Connection := fresh { closeOnWriteFailure := false, messagesPerRead := 1 } .full

/-- The read that delivers the last item has delivered all that it may. -/
theorem last_read_was_full :
    ∃ ch, (patient.run Call.cutOff).channels.get? 1 = some ch ∧ ch.closed = false ∧
      ((patient.run Call.cutOff).journal.tally 1).last = 1 := by
  obtain ⟨ch, hch, ho, hin, hout, hq⟩ : ∃ ch, (patient.run Call.cutOff).channels.get? 1 = some ch ∧
      ch.closed = false ∧ ch.inboundClosed = true ∧ ch.outboundClosed = true ∧ ch.inbound = [] := by
    decide
  have hmissed := (finished_stays_open_only_after_full_read
    (rfl : start { closeOnWriteFailure := false, messagesPerRead := 1 } .full = .ok patient)
    Call.cutOff).1 1 ch hch ho hin
  exact ⟨ch, hch, ho, (hmissed.2 hout hq).2⟩

/-- The stream of that channel is finished, nothing waits to be delivered, and yet the channel is
open and its stream registered. -/
theorem finished_channel_stays_registered :
    start { closeOnWriteFailure := false, messagesPerRead := 1 } .full = .ok patient ∧
    ∃ ch, (patient.run Call.cutOff).channels.get? 1 = some ch ∧ ch.closed = false ∧
      ch.inboundClosed = true ∧ ch.outboundClosed = true ∧ ch.inbound = [] ∧
      (patient.run Call.cutOff).registry.get? ch.stream = some (.active 1) :=
  ⟨rfl, by decide⟩

end Connection

end ChannelMux
