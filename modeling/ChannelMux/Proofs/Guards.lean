import ChannelMux.Proofs.Deadlines
import ChannelMux.Proofs.Registration
import ChannelMux.Proofs.StreamSteps

/-!
# Guards: streams that were closed here are remembered for a while

The registry remembers a stream that was closed here, so that late frames of it are absorbed, and a
deadline is armed that ends this.  Registry and deadlines are two tables, and they are changed at
different moments; that they agree (`Guarded`) rests on their agreement with the channels, because
only the stream of an open channel is closed, and such a stream is not remembered as closed.

A deadline that was armed for a stream stays armed until time passes it, since neither the stream
nor its deadline is touched meanwhile: the stream belongs to no open channel, and none is given it.
-/

namespace ChannelMux

namespace Registry

variable {V : Type} {r : Registry V} {s t : StreamId}

theorem get?_removeClosed_eq_closed :
    (r.removeClosed t).get? s = some .closed ↔ s ≠ t ∧ r.get? s = some .closed := by
  unfold removeClosed
  split
  · rw [get?_remove]
    split
    next hs => simp [hs]
    next hs => simp [hs]
  next hnot =>
    refine ⟨fun h => ⟨?_, h⟩, fun h => h.2⟩
    rintro rfl
    exact hnot h

theorem get?_removeClosed_self (h : r.get? s = some .closed) :
    (r.removeClosed s).get? s = none := by
  unfold removeClosed
  rw [h]
  exact (get?_remove ..).trans (if_pos rfl)

end Registry

namespace Channel

/-- The second channel is placed as the first one, and while it waits for the settings nobody has
ended its stream. -/
structure Kept (ch ch' : Channel) : Prop where
  placed : ch.Placed ch'
  initiator : ch'.handshake = .awaitingSettings → ch'.initiator = ch.initiator

variable {ch ch' : Channel}

theorem Kept.refl (ch : Channel) : ch.Kept ch := ⟨.refl ch, fun _ => rfl⟩

theorem Unmoved.kept (h : ch.Unmoved ch') : ch.Kept ch' where
  placed := ⟨h.stream, h.closed, fun ha => h.handshake ▸ ha⟩
  initiator ha := h.initiator.resolve_right fun hnoted => hnoted.1 (h.handshake ▸ ha)

theorem Outgoing.kept (h : ch.Outgoing ch') (ho : ch.closed = false) : ch.Kept ch' where
  placed := ⟨h.stream, h.closed.trans ho.symm, fun ha => not_imp_not.mp h.handshake ha⟩
  initiator ha := h.initiator.resolve_right fun hnoted => h.handshake hnoted.1 ha

end Channel

namespace Connection

variable {strict : Prop} {k : Cause} {c d : Connection} {id j : ChannelId} {ch ch' : Channel}
  {s stream : StreamId} {due : Time} {kind : CloseKind}

/-! ## The tables agree -/

theorem sound_askingTimers (h : c.timers.Sound) : c.askingTimers.Sound := by
  rw [askingTimers]
  split
  · exact h.arm _ _
  · exact h

theorem armed_askingTimers (c : Connection) (s : StreamId) :
    c.askingTimers.Armed (.registryRemoval s) ↔ c.timers.Armed (.registryRemoval s) := by
  rw [askingTimers]
  split
  · rw [Timers.armed_arm]
    simp
  · rfl

/-- A stream that is given up is remembered exactly if a deadline is armed for it. -/
theorem closed_retired_iff {r : Registry ChannelId} {ts : Timers}
    (h : ∀ s, r.get? s = some .closed ↔ ts.Armed (.registryRemoval s))
    (hr : stream ≠ 0 → r.get? stream = some (.active id)) (due : Time) (absorb : Bool)
    (s : StreamId) : (retired r stream absorb).get? s = some .closed ↔
      (retiredTimers ts due stream absorb).Armed (.registryRemoval s) := by
  unfold retired retiredTimers
  split
  · exact h s
  next h0 =>
    have hactive := hr h0
    split
    · rw [Timers.armed_arm, Registry.markClosed, hactive]
      simp only [Registry.get?_put, Timer.registryRemoval.injEq]
      by_cases hs : s = stream
      · simp [hs]
      · simp [hs, h s]
    · rw [Registry.get?_remove]
      by_cases hs : s = stream
      · have hunarmed : ¬ ts.Armed (.registryRemoval stream) := by
          rw [← h, hactive]
          nofun
        simp [hs, hunarmed]
      · simp [hs, h s]

/-- The registry, the deadlines and the channels agree. -/
structure Guarded (c : Connection) : Prop where
  known : ∀ id ch, c.channels.get? id = some ch → id < c.nextChannel
  registered : c.Registered
  timers : c.timers.Sound
  absorbing : ∀ s, c.registry.get? s = some .closed ↔ c.timers.Armed (.registryRemoval s)
  unended : ∀ id ch, c.channels.get? id = some ch → ch.closed = false →
    ch.handshake = .awaitingSettings → ch.initiator = none

namespace Guarded

theorem get?_nextChannel (h : c.Guarded) : c.channels.get? c.nextChannel = none :=
  Option.eq_none_iff_forall_ne_some.mpr fun _ hch => Nat.lt_irrefl _ (h.known _ _ hch)

theorem active (h : c.Guarded) (hch : c.channels.get? id = some ch) (ho : ch.closed = false)
    (h0 : ch.stream ≠ 0) : c.registry.get? ch.stream = some (.active id) :=
  (h.registered.active _ _).mpr ⟨ch, hch, ho, rfl, h0⟩

theorem congr (h : c.Guarded) (hnext : c.nextChannel ≤ d.nextChannel)
    (hregistry : ∀ s, d.registry.get? s = c.registry.get? s) (hsound : d.timers.Sound)
    (harmed : ∀ s, d.timers.Armed (.registryRemoval s) ↔ c.timers.Armed (.registryRemoval s))
    (hchannels : c.channels.Matches Channel.Kept d.channels) : d.Guarded where
  known id ch' hch' := by
    obtain ⟨ch, hch, -⟩ := hchannels.back hch'
    exact Nat.lt_of_lt_of_le (h.known id ch hch) hnext
  registered := h.registered.congr hregistry (hchannels.mono fun _ _ hkept => hkept.placed)
  timers := hsound
  absorbing s := by rw [hregistry, harmed, h.absorbing]
  unended id ch' hch' ho ha := by
    obtain ⟨ch, hch, hkept⟩ := hchannels.back hch'
    rw [hkept.initiator ha]
    exact h.unended id ch hch (hkept.placed.closed.symm.trans ho) (hkept.placed.awaiting ha)

theorem same (h : c.Guarded) (hnext : d.nextChannel = c.nextChannel)
    (hregistry : d.registry = c.registry) (htimers : d.timers = c.timers)
    (hchannels : c.channels.Matches Channel.Kept d.channels) : d.Guarded :=
  h.congr (Nat.le_of_eq hnext.symm) (fun _ => by rw [hregistry]) (htimers ▸ h.timers)
    (fun _ => by rw [htimers]) hchannels

theorem made (h : c.Guarded) (path : String) : { c with
    channels := c.channels.insert c.nextChannel (c.newChannel path)
    nextChannel := c.nextChannel + 1 }.Guarded where
  known id ch hch := by
    rcases Table.get?_insert_cases hch with ⟨rfl, -⟩ | hch
    · exact Nat.lt_succ_self _
    · exact Nat.lt_succ_of_lt (h.known id ch hch)
  registered := h.registered.made h.get?_nextChannel path
  timers := h.timers
  absorbing := h.absorbing
  unended id ch hch ho ha := by
    rcases Table.get?_insert_cases hch with ⟨-, rfl⟩ | hch
    · rfl
    · exact h.unended id ch hch ho ha

/-- A channel gets a stream that was free. -/
theorem entered (h : c.Guarded) (hchannels : d.channels = c.channels.insert id ch')
    (hregistry : d.registry = c.registry.insert stream id) (htimers : d.timers = c.timers)
    (hnext : d.nextChannel = c.nextChannel) (hch : c.channels.get? id = some ch)
    (ho : ch.closed = false) (hun : ch.handshake = .awaitingSettings ∨ ch.stream = 0)
    (ho' : ch'.closed = false) (hstream : ch'.stream = stream)
    (hasked : ch'.handshake ≠ .awaitingSettings) (h0 : stream ≠ 0)
    (hfree : c.registry.get? stream = none) : d.Guarded where
  known j e he := by
    rw [hchannels] at he
    rw [hnext]
    rcases Table.get?_insert_cases he with ⟨rfl, -⟩ | he
    · exact h.known _ _ hch
    · exact h.known j e he
  registered :=
    (h.registered.assigned hch ho hun ho' hstream hasked h0 hfree).congr
      (fun _ => by rw [hregistry])
      (hchannels ▸ .refl .refl _)
  timers := htimers ▸ h.timers
  absorbing s := by
    rw [hregistry, htimers, Registry.get?_insert]
    split
    next hs =>
      refine iff_of_false nofun fun harmed => ?_
      rw [hs] at harmed
      cases hfree.symm.trans ((h.absorbing stream).mpr harmed)
    next => exact h.absorbing s
  unended j e he hopen ha := by
    rw [hchannels] at he
    rcases Table.get?_insert_cases he with ⟨-, rfl⟩ | he
    · exact absurd ha hasked
    · exact h.unended j e he hopen ha

theorem close (h : c.Guarded) (id : ChannelId) (kind : CloseKind) : (c.close id kind).Guarded := by
  rcases close_cases c id kind with ⟨-, heq⟩ | ⟨ch, hch, ho⟩
  · rw [heq]
    exact h
  · have hregistered := h.registered.close id kind
    obtain ⟨_, _, heq, -⟩ := close_exact hch ho kind
    rw [heq] at hregistered ⊢
    constructor
    case known =>
      intro j e he
      rcases Table.get?_insert_cases he with ⟨rfl, -⟩ | he
      · exact h.known _ _ hch
      · exact h.known j e he
    case registered => exact hregistered
    case timers => exact sound_retiredTimers (h.timers.cancel _) _ _ _
    case absorbing =>
      refine closed_retired_iff (fun s => ?_) (h.active hch ho) _ _
      rw [Timers.armed_cancel, h.absorbing]
      simp
    case unended =>
      intro j e he hopen ha
      rcases Table.get?_insert_cases he with ⟨-, rfl⟩ | he
      · cases hopen
      · exact h.unended j e he hopen ha

/-- What is done to an open channel before it is closed. -/
theorem outgoing (h : c.Guarded) (hch : c.channels.get? id = some ch) (ho : ch.closed = false)
    (hout : ch.Outgoing ch') (ledger : Ledger) (journal : Journal) :
    { c with
      channels := c.channels.insert id ch', ledger := ledger, journal := journal }.Guarded :=
  h.same rfl rfl rfl (.insert .refl hch (hout.kept ho))

/-- The request of a channel was refused when its stream had been registered already. -/
theorem refused (h : c.Guarded) (hch : c.channels.get? id = some ch) (ho : ch.closed = false)
    (ha : ch.handshake = .awaitingSettings) (h0 : stream ≠ 0)
    (hfree : c.registry.get? stream = none) (ledger : Ledger) (journal : Journal) :
    { c with
      channels := c.channels.insert id
        ({ ch with stream := stream, cachedWeight := none }).giveUpParked
      registry := c.registry.insert stream id
      ledger := ledger
      journal := journal }.Guarded :=
  h.entered rfl rfl rfl rfl hch ho (.inl ha) ho rfl
    (Handshake.asked_of_decided (Channel.isPending_giveUpParked _)) h0 hfree

/-- Every step keeps the tables in agreement. -/
theorem streamStep (h : c.Guarded) (hstep : StreamStep True k c d) : d.Guarded := by
  cases hstep with
  | calm hcalm =>
    exact h.congr hcalm.nextChannel hcalm.registry (hcalm.timers ▸ h.timers)
      (fun _ => by rw [hcalm.timers]) (hcalm.channels.mono fun _ _ hsame => hsame.kept)
  | asked path subprotocol =>
    have hrequested : (c.newChannel path).Kept
        { c.newChannel path with requested := subprotocol } :=
      ⟨⟨rfl, rfl, fun ha => ha⟩, fun _ => rfl⟩
    rw [addAsking_eq]
    exact (h.made path).congr (Nat.le_refl _) (fun _ => rfl) (sound_askingTimers h.timers)
      (armed_askingTimers c) (.replace .refl _ _ hrequested)
  | requested block hch ho ha _ hfresh =>
    obtain ⟨h0, hfree⟩ := hfresh trivial
    exact h.entered rfl rfl rfl rfl hch ho (.inl ha) ho rfl (by simp) h0 hfree
  | requestRefused block f ledger hch ho ha _ hfresh =>
    obtain ⟨h0, hfree⟩ := hfresh trivial
    exact (h.refused hch ho ha h0 hfree _ _).close _ _
  | @enrolled stream path subprotocol compression block hrole hr h0 =>
    have hasked := handshake_enrolledChannel hrole stream path subprotocol compression
    have hinserted : (c.enrol stream path subprotocol compression).channels =
        (c.channels.insert c.nextChannel (c.newChannel path)).insert c.nextChannel
          (c.enrolledChannel stream path subprotocol compression) := (Table.insert_insert ..).symm
    refine (h.made path).entered hinserted rfl rfl rfl (Table.get?_insert_self ..) rfl (.inr rfl)
      rfl rfl ?_ (h0 trivial) hr
    rw [hasked]
    decide
  | answered subprotocol compression parked hch =>
    refine h.congr (Nat.le_refl _) (fun _ => rfl) (h.timers.cancel _) (fun s => ?_)
      (.insert .refl hch ⟨⟨rfl, rfl, nofun⟩, nofun⟩)
    rw [Timers.armed_cancel]
    simp
  | ended kind ledger journal hch ho hout =>
    exact (h.outgoing hch ho hout _ _).close _ _
  | tornDown tasks hclosed =>
    exact
      { known := fun j e he => h.known j e (Table.get?_of_erase he)
        registered := h.registered.tornDown hclosed tasks
        timers := h.timers
        absorbing := h.absorbing
        unended := fun j e he => h.unended j e (Table.get?_of_erase he) }
  | cleared _ hnone =>
    exact
      { known := h.known
        registered := (Registered.cleared hnone).congr (fun _ => rfl) (.refl .refl _)
        timers := Timers.sound_empty
        absorbing := fun s => by
          rw [show c.clearAll.registry = c.registry.clear from rfl, Registry.get?_clear]
          exact iff_of_false nofun fun ⟨_, hmem⟩ => (nomatch hmem)
        unended := h.unended }
  | missed hpop =>
    refine h.congr (Nat.le_refl _) (fun _ => rfl) (h.timers.popDue hpop).1 (fun s => ?_)
      (.refl .refl _)
    rw [h.timers.armed_popDue_iff hpop]
    simp
  | expired hpop =>
    exact
      { known := h.known
        registered := ⟨fun s id => Registry.get?_removeClosed_eq_active.trans
          (h.registered.active s id), h.registered.unasked⟩
        timers := (h.timers.popDue hpop).1
        absorbing := fun s => by
          rw [Registry.get?_removeClosed_eq_closed, h.timers.armed_popDue_iff hpop, h.absorbing]
          simp
        unended := h.unended }
  | unreserved | sent => exact h.same rfl rfl rfl (.refl .refl _)

end Guarded

/-! ## Streams that are being absorbed -/

namespace Guarded

/-- The stream of an open channel is not absorbed. -/
theorem ne_of_absorbed (h : c.Guarded) (hmem : (due, .registryRemoval s) ∈ c.timers.entries)
    (hch : c.channels.get? id = some ch) (ho : ch.closed = false) (h0 : ch.stream ≠ 0) :
    s ≠ ch.stream := by
  rintro rfl
  have hclosed := (h.absorbing ch.stream).mpr ⟨due, hmem⟩
  cases hclosed.symm.trans (h.active hch ho h0)

theorem mem_close (h : c.Guarded) (hmem : (due, .registryRemoval s) ∈ c.timers.entries)
    (id : ChannelId) (kind : CloseKind) :
    (due, .registryRemoval s) ∈ (c.close id kind).timers.entries := by
  rcases close_cases c id kind with ⟨-, heq⟩ | ⟨ch, hch, ho⟩
  · rwa [heq]
  · have hcancelled : (due, .registryRemoval s) ∈
        (c.timers.cancel (.handshakeTimeout id)).entries := Timers.mem_cancel_of_ne nofun hmem
    obtain ⟨_, _, heq, -⟩ := close_exact hch ho kind
    rw [heq]
    dsimp only
    unfold retiredTimers
    split
    · exact hcancelled
    next h0 =>
      split
      · refine Timers.mem_arm_of_ne (fun heq => ?_) hcancelled
        exact h.ne_of_absorbed hmem hch ho h0 (Timer.registryRemoval.inj heq)
      · exact hcancelled

/-- A deadline that was armed for a stream stays armed, unless it has passed or the connection is
lost. -/
theorem mem_streamStep (h : c.Guarded) (hstep : StreamStep True k c d)
    (hmem : (due, .registryRemoval s) ∈ c.timers.entries) :
    (due, .registryRemoval s) ∈ d.timers.entries ∨ k.call = .connectionLost ∨
      ∃ now, k.call = .timePassed now ∧ due ≤ now ∧ d.registry.get? s = none := by
  cases hstep with
  | calm hcalm => exact .inl (hcalm.timers ▸ hmem)
  | asked path subprotocol =>
    refine .inl ?_
    rw [addAsking_eq]
    dsimp only
    rw [askingTimers]
    split
    · exact Timers.mem_arm_of_ne (by simp) hmem
    · exact hmem
  | requestRefused block f ledger hch ho ha _ hfresh =>
    obtain ⟨h0, hfree⟩ := hfresh trivial
    exact .inl ((h.refused hch ho ha h0 hfree _ _).mem_close hmem _ _)
  | answered => exact .inl (Timers.mem_cancel_of_ne (by simp) hmem)
  | ended kind ledger journal hch ho hout =>
    exact .inl ((h.outgoing hch ho hout _ _).mem_close hmem _ _)
  | cleared hk => exact .inr (.inl hk)
  | missed hpop =>
    rcases Timers.mem_of_popDue hpop hmem with ⟨heq, -⟩ | hmem
    · cases heq
    · exact .inl hmem
  | @expired stream now _ hpop hk =>
    rcases Timers.mem_of_popDue hpop hmem with ⟨heq, hle⟩ | hmem'
    · obtain rfl := Timer.registryRemoval.inj heq
      exact .inr (.inr ⟨now, hk, hle,
        Registry.get?_removeClosed_self ((h.absorbing s).mpr ⟨due, hmem⟩)⟩)
    · exact .inl hmem'
  | unreserved | requested | enrolled | sent | tornDown => exact .inl hmem

end Guarded

theorem get?_retired_of_free {r : Registry ChannelId} (h : r.get? s = none) (stream : StreamId)
    (absorb : Bool) : (retired r stream absorb).get? s = none := by
  unfold retired
  split
  · exact h
  · split
    · unfold Registry.markClosed
      split
      next hsome =>
        rw [Registry.get?_put]
        split
        next hs => rw [← hs, h] at hsome; cases hsome
        next => exact h
      next => exact h
    · rw [Registry.get?_remove]
      split
      · rfl
      · exact h

/-- A free stream is registered where streams are asked for, and where headers arrive for it before
anything else is done in that call. -/
theorem StreamStep.free (h : StreamStep strict k c d) (hk : k.call.asks = false)
    (hnew : (∃ stream block endStream, k.call = .frame (.headers stream block endStream)) →
      c ≠ { k.conn with reading := true })
    (hfree : c.registry.get? s = none) : d.registry.get? s = none := by
  cases h with
  | calm hcalm => exact (hcalm.registry s).trans hfree
  | asked path subprotocol => rw [addAsking_eq]; exact hfree
  | requested _ _ _ _ hasks => exact absurd (hk.symm.trans hasks) (by decide)
  | requestRefused _ _ _ _ _ _ hasks => exact absurd (hk.symm.trans hasks) (by decide)
  | enrolled _ _ _ _ _ _ _ hc hheaders => exact absurd hc (hnew ⟨_, hheaders⟩)
  | @ended id ch ch' kind ledger journal hch ho hout =>
    have hinserted : ({ c with
        channels := c.channels.insert id ch', ledger := ledger, journal := journal } :
          Connection).channels.get? id = some ch' := Table.get?_insert_self ..
    obtain ⟨_, _, heq, -⟩ := close_exact hinserted hout.closed kind
    rw [heq]
    exact get?_retired_of_free hfree _ _
  | cleared => exact Registry.get?_clear ..
  | @expired stream =>
    change (c.registry.removeClosed stream).get? s = none
    unfold Registry.removeClosed
    split
    · rw [Registry.get?_remove]
      split
      · rfl
      · exact hfree
    · exact hfree
  | unreserved | answered | sent | tornDown | missed => exact hfree

theorem guarded_run {config : Config} {encoder : Encoder} (h : start config encoder = .ok c)
    {ks : List Call} (ho : c.CarefulRun ks) : (c.run ks).Guarded := by
  induction ks using List.reverseRecOn with
  | nil =>
    have hregistered := registered_start h
    obtain rfl := (start_eq h).1
    exact
      { known := fun _ _ hch => (nomatch hch)
        registered := hregistered
        timers := Timers.sound_empty
        absorbing := fun _ => iff_of_false nofun fun ⟨_, hmem⟩ => (nomatch hmem)
        unended := fun _ _ hch => (nomatch hch) }
  | append_singleton ks k ih =>
    obtain ⟨hbefore, hnow, -⟩ := carefulRun_append.mp ho
    rw [run_concat]
    exact (streamPath_after h ks k fun _ : True => hnow).induction (P := Guarded)
      (fun _ _ hstep hd => hd.streamStep hstep) (ih hbefore)

end Connection

end ChannelMux
