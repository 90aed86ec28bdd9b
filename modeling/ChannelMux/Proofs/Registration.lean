import ChannelMux.Proofs.Tidy

/-!
# Registration: the registry and the channels agree

A stream is registered for a channel exactly while the channel is open and has that stream.  Both
sides are changed in many places, but only five kinds of step touch either of them, and of these
`closed` is the one that has to give up the right entry: what is registered under the stream of an
open channel is that channel (`Registered.active`).  A channel that waits for the peer's settings
has no stream yet, so that a stream is assigned to it once.
-/

namespace ChannelMux

namespace Registry

variable {V : Type} {r : Registry V} {s t : StreamId} {v : V}

theorem get?_removeClosed_eq_active :
    (r.removeClosed t).get? s = some (.active v) ↔ r.get? s = some (.active v) := by
  unfold removeClosed
  split
  next h =>
    rw [get?_remove]
    split
    next hst => rw [hst, h]; exact ⟨nofun, nofun⟩
    next => rfl
  next => rfl

theorem get?_markClosed_of_ne (h : s ≠ t) : (r.markClosed t).get? s = r.get? s := by
  unfold markClosed
  split
  · rw [get?_put, if_neg h]
  · rfl

theorem get?_markClosed_self_ne_active : (r.markClosed t).get? t ≠ some (.active v) := by
  unfold markClosed
  split
  · rw [get?_put, if_pos rfl]; nofun
  next h => rw [h]; nofun

end Registry

/-- The second channel is as open as the first, has the same stream, and waits for the settings only
if the first did. -/
structure Channel.Placed (ch ch' : Channel) : Prop where
  stream : ch'.stream = ch.stream
  closed : ch'.closed = ch.closed
  awaiting : ch'.handshake = .awaitingSettings → ch.handshake = .awaitingSettings

theorem Channel.Placed.refl (ch : Channel) : ch.Placed ch := ⟨rfl, rfl, id⟩

theorem Channel.Akin.placed {ch ch' : Channel} (h : ch.Akin ch') : ch.Placed ch' :=
  ⟨h.stream, h.closed, h.awaiting⟩

theorem Channel.Alike.placed {ch ch' : Channel} (h : ch.Alike ch') : ch.Placed ch' :=
  ⟨h.stream, h.closed, fun hw => h.handshake ▸ hw⟩

namespace Connection

variable {strict : Prop} {c c' : Connection} {id : ChannelId} {ch : Channel}

/-- The entry of a stream that is given up is no longer that of a channel. -/
theorem get?_retired_eq_active {r : Registry ChannelId} {s stream : StreamId} {absorb : Bool} :
    (retired r stream absorb).get? s = some (.active id) ↔
      r.get? s = some (.active id) ∧ (stream = 0 ∨ s ≠ stream) := by
  unfold retired
  split
  next h => simp [h]
  next h0 =>
    by_cases hs : s = stream
    · subst hs
      split
      · simp [Registry.get?_markClosed_self_ne_active, h0]
      · simp [h0]
    · split
      · simp [Registry.get?_markClosed_of_ne hs, hs]
      · simp [hs]

/-- The channel is open and has the stream. -/
def Holds (c : Connection) (id : ChannelId) (s : StreamId) : Prop :=
  ∃ ch, c.channels.get? id = some ch ∧ ch.closed = false ∧ ch.stream = s ∧ s ≠ 0

structure Registered (c : Connection) : Prop where
  active : ∀ s id, c.registry.get? s = some (.active id) ↔ c.Holds id s
  unasked : ∀ id ch, c.channels.get? id = some ch → ch.closed = false →
    ch.handshake = .awaitingSettings → ch.stream = 0

/-- A new value for one channel matters to that channel alone. -/
theorem holds_insert {c' : Connection} (ch' : Channel)
    (h : c'.channels = c.channels.insert id ch') (j : ChannelId) (s : StreamId) :
    c'.Holds j s ↔
      if j = id then ch'.closed = false ∧ ch'.stream = s ∧ s ≠ 0 else c.Holds j s := by
  unfold Holds
  rw [h]
  simp only [Table.get?_insert]
  split
  · simp
  · rfl

theorem holds_erase {c' : Connection} (h : c'.channels = c.channels.erase id) (j : ChannelId)
    (s : StreamId) : c'.Holds j s ↔ j ≠ id ∧ c.Holds j s := by
  unfold Holds
  rw [h]
  simp only [Table.get?_erase]
  split
  next hj => simp [hj]
  next hj => simp [hj]

namespace Registered

theorem congr (hc : c.Registered) (hregistry : ∀ s, c'.registry.get? s = c.registry.get? s)
    (hchannels : c.channels.Matches Channel.Placed c'.channels) : c'.Registered where
  active s id := by
    rw [hregistry, hc.active]
    constructor
    · rintro ⟨ch, hch, ho, hs, h0⟩
      obtain ⟨ch', hch', hplaced⟩ := hchannels.forth hch
      exact ⟨ch', hch', hplaced.closed.trans ho, hplaced.stream.trans hs, h0⟩
    · rintro ⟨ch', hch', ho, hs, h0⟩
      obtain ⟨ch, hch, hplaced⟩ := hchannels.back hch'
      exact ⟨ch, hch, hplaced.closed.symm.trans ho, hplaced.stream.symm.trans hs, h0⟩
  unasked id ch' hch' ho hw := by
    obtain ⟨ch, hch, hplaced⟩ := hchannels.back hch'
    rw [hplaced.stream]
    exact hc.unasked id ch hch (hplaced.closed.symm.trans ho) (hplaced.awaiting hw)

theorem unasked_insert (hc : c.Registered) (id : ChannelId) {ch : Channel}
    (h : ch.closed = false → ch.handshake = .awaitingSettings → ch.stream = 0) :
    ∀ j d, (c.channels.insert id ch).get? j = some d → d.closed = false →
      d.handshake = .awaitingSettings → d.stream = 0 := by
  intro j d hj hopen hw
  rcases Table.get?_insert_cases hj with ⟨-, rfl⟩ | hj
  · exact h hopen hw
  · exact hc.unasked j d hj hopen hw

theorem unasked_erase (hc : c.Registered) (id : ChannelId) :
    ∀ j d, (c.channels.erase id).get? j = some d → d.closed = false →
      d.handshake = .awaitingSettings → d.stream = 0 := by
  intro j d hj hopen hw
  exact hc.unasked j d (Table.get?_of_erase hj) hopen hw

/-- Two open channels have different streams. -/
theorem eq_of_holds (hc : c.Registered) {j : ChannelId} {s : StreamId} (h : c.Holds id s)
    (h' : c.Holds j s) : id = j := by
  have heq := ((hc.active s id).mpr h).symm.trans ((hc.active s j).mpr h')
  exact Slot.active.inj (Option.some.inj heq)

theorem close (hc : c.Registered) (id : ChannelId) (kind : CloseKind) :
    (c.close id kind).Registered := by
  rcases close_cases c id kind with ⟨-, heq⟩ | ⟨ch, h, ho⟩
  · rw [heq]; exact hc
  · obtain ⟨_, _, _, _, heq, -⟩ := close_eq h ho kind
    rw [heq]
    constructor
    · intro s j
      rw [get?_retired_eq_active, holds_insert (ch.shut kind) rfl, hc.active]
      split
      next hj =>
        -- The closed channel held its own stream, if any, which is the one given up.
        subst hj
        constructor
        · rintro ⟨⟨d, hd, _, hs, h0⟩, hgone⟩
          obtain rfl := Option.some.inj (h.symm.trans hd)
          rcases hgone with hzero | hne
          · exact absurd (hs.symm.trans hzero) h0
          · exact absurd hs.symm hne
        · intro hshut
          cases hshut.1
      next hj =>
        constructor
        · intro hheld
          exact hheld.1
        · intro hheld
          refine ⟨hheld, Classical.or_iff_not_imp_left.mpr ?_⟩
          intro h0 hs
          exact hj (hc.eq_of_holds hheld ⟨ch, h, ho, hs.symm, hs ▸ h0⟩)
    · apply hc.unasked_insert
      intro hopen
      cases hopen

theorem quiet (hc : c.Registered) (h : Quiet c c') : c'.Registered :=
  hc.congr (fun _ => by rw [h.registry]) (h.channels.mono fun _ _ halike => halike.placed)

theorem readPath (hc : c.Registered) (h : ReadPath c c') : c'.Registered :=
  h.induction (fun _ _ hq hc => hc.quiet hq) (fun _ id hc => hc.close id .remote) hc

theorem made (hc : c.Registered) (hnone : c.channels.get? c.nextChannel = none) (path : String) :
    { c with
      channels := c.channels.insert c.nextChannel (c.newChannel path)
      nextChannel := c.nextChannel + 1 }.Registered := by
  constructor
  · intro s j
    rw [holds_insert (c.newChannel path) rfl, hc.active]
    split
    next hj =>
      constructor
      · rintro ⟨d, hd, _⟩
        rw [hj] at hd
        cases hnone.symm.trans hd
      · rintro ⟨_, hs, h0⟩
        exact absurd hs.symm h0
    next => rfl
  · apply hc.unasked_insert
    intro _ _
    rfl

theorem assigned (hc : c.Registered) {ch' : Channel} {stream : StreamId}
    (h : c.channels.get? id = some ch) (ho : ch.closed = false)
    (hunassigned : ch.handshake = .awaitingSettings ∨ ch.stream = 0) (ho' : ch'.closed = false)
    (hstream : ch'.stream = stream) (hhand : ch'.handshake ≠ .awaitingSettings) (h0 : stream ≠ 0)
    (hfree : c.registry.get? stream = none) :
    { c with
      channels := c.channels.insert id ch'
      registry := c.registry.insert stream id }.Registered := by
  have hzero : ch.stream = 0 := hunassigned.elim (hc.unasked id ch h ho) fun hz => hz
  constructor
  · intro s j
    rw [holds_insert ch' rfl, Registry.get?_insert]
    by_cases hs : s = stream
    · rw [if_pos hs]
      split
      next hj => simp [hj, ho', hstream, hs, h0]
      next hj =>
        constructor
        · intro heq
          exact absurd (Slot.active.inj (Option.some.inj heq)).symm hj
        · intro hheld
          rw [hs, ← hc.active, hfree] at hheld
          cases hheld
    · rw [if_neg hs, hc.active]
      split
      next hj =>
        subst hj
        constructor
        · rintro ⟨d, hd, _, hds, hs0⟩
          obtain rfl := Option.some.inj (h.symm.trans hd)
          exact absurd (hds.symm.trans hzero) hs0
        · rintro ⟨_, hds, _⟩
          exact absurd (hds.symm.trans hstream) hs
      next => rfl
  · apply hc.unasked_insert
    intro _ hw
    exact absurd hw hhand

theorem forgotten (hc : c.Registered) (h : c.channels.get? id = some ch)
    (hr : c.registry.get? ch.stream = some (.active id)) :
    { c with
      channels := c.channels.erase id
      registry := c.registry.remove ch.stream }.Registered := by
  constructor
  · intro s j
    rw [holds_erase rfl, Registry.get?_remove]
    split
    next hs =>
      constructor
      · intro hr
        cases hr
      · rintro ⟨hj, hheld⟩
        rw [← hc.active, hs, hr] at hheld
        exact absurd (Slot.active.inj (Option.some.inj hheld)).symm hj
    next hs =>
      rw [hc.active]
      constructor
      · rintro ⟨d, hd, ho, hds, h0⟩
        refine ⟨?_, d, hd, ho, hds, h0⟩
        intro hj
        rw [hj] at hd
        obtain rfl := Option.some.inj (h.symm.trans hd)
        exact hs hds.symm
      · intro hheld
        exact hheld.2
  · exact hc.unasked_erase id

theorem tornDown (hc : c.Registered) (hclosed : ∀ ch, c.channels.get? id = some ch →
    ch.closed = true) (tasks : List Task) :
    { c with tasks := tasks, channels := c.channels.erase id }.Registered := by
  constructor
  · intro s j
    rw [holds_erase rfl, hc.active]
    constructor
    · rintro ⟨d, hd, ho, hs, h0⟩
      refine ⟨?_, d, hd, ho, hs, h0⟩
      intro hj
      rw [hj] at hd
      exact absurd (ho.symm.trans (hclosed d hd)) Bool.false_ne_true
    · intro hheld
      exact hheld.2
  · exact hc.unasked_erase id

theorem cleared (hnone : ∀ id, c.isOpen id = false) :
    { c with
      registry := c.registry.clear, batch := c.batch.clear, reading := false }.Registered := by
  have hclosed : ∀ id ch, c.channels.get? id = some ch → ch.closed = false → False :=
    fun id ch h ho => by
      have hopen := isOpen_iff.mpr ⟨ch, h, ho⟩
      rw [hnone id] at hopen
      cases hopen
  refine ⟨?_, fun id ch h ho _ => (hclosed id ch h ho).elim⟩
  intro s id
  rw [Registry.get?_clear]
  exact ⟨nofun, fun ⟨ch, h, ho, _⟩ => (hclosed id ch h ho).elim⟩

theorem registryStep (hc : c.Registered) (ht : c.Tidy) (h : RegistryStep True c c') :
    c'.Registered := by
  cases h with
  | beside h =>
    exact hc.congr h.registry (h.channels.mono fun _ _ hakin => hakin.placed)
  | closed id kind => exact hc.close id kind
  | made path => exact hc.made ht.get?_nextChannel path
  | assigned h ho hun hhand hfresh =>
    obtain ⟨h0, hfree⟩ := hfresh trivial
    exact hc.assigned h ho hun ho rfl hhand h0 hfree
  | forgotten h _ _ hr => exact hc.forgotten h hr
  | ended h _ _ _ =>
    exact hc.congr (fun _ => rfl) (.insert .refl h ⟨rfl, rfl, fun hw => hw⟩)
  | expired stream =>
    exact ⟨fun s id => Registry.get?_removeClosed_eq_active.trans (hc.active s id), hc.unasked⟩
  | tornDown h => exact hc.tornDown (ht.doomed (h ▸ List.mem_cons_self)).2 _
  | cleared hnone => exact cleared hnone
  | received item h _ =>
    exact (hc.quiet (.insert h _ (alike_receive _ item) _)).readPath (readPath_receive ..)
  | cycleEnded => exact hc.readPath (readPath_readCycleEnded c)
  | readBegun id => exact hc.readPath (readPath_beginRead c id)
  | autoReadSet id on => exact hc.readPath (readPath_setAutoRead c id on)

end Registered

theorem registered_start {config : Config} {encoder : Encoder}
    (h : start config encoder = .ok c) : c.Registered := by
  rw [(start_eq h).1]
  exact ⟨fun _ _ => ⟨fun hr => (nomatch hr), fun ⟨_, hch, _⟩ => (nomatch hch)⟩,
    fun _ _ hch => (nomatch hch)⟩

theorem registered_run {config : Config} {encoder : Encoder} (h : start config encoder = .ok c)
    {ks : List Call} (ho : c.CarefulRun ks) : (c.run ks).Registered := by
  have hboth : (c.run ks).Tidy ∧ (c.run ks).Registered :=
    (registryPath_run c ks fun _ : True => ho).induction (P := fun d => d.Tidy ∧ d.Registered)
      (fun _ _ hs hd => ⟨hd.1.registryStep hs, hd.2.registryStep hd.1 hs⟩)
      ⟨tidy_start h, registered_start h⟩
  exact hboth.2

/-- Between the calls of a run a stream is registered for a channel if and only if the channel is
open and has the stream.  The run starts from a connection of either role, whose encoder may refuse
whatever it likes. -/
theorem registered_iff_open_with_stream {config : Config} {encoder : Encoder} {c : Connection}
    (h : start config encoder = .ok c) {ks : List Call} (ho : c.OrderlyRun ks) :
    (∀ s id, (c.run ks).registry.get? s = some (.active id) ↔
      ∃ ch, (c.run ks).channels.get? id = some ch ∧ ch.closed = false ∧ ch.stream = s ∧ s ≠ 0) ∧
    (∀ id id' ch ch', (c.run ks).channels.get? id = some ch →
      (c.run ks).channels.get? id' = some ch' → ch.closed = false → ch'.closed = false →
      ch.stream ≠ 0 → ch.stream = ch'.stream → id = id') := by
  have hr := registered_run h ho.careful
  refine ⟨hr.active, ?_⟩
  intro id id' ch ch' hch hch' hopen hopen' h0 hs
  exact hr.eq_of_holds ⟨ch, hch, hopen, rfl, h0⟩ ⟨ch', hch', hopen', hs.symm, h0⟩

/-- A client's channel holds the stream that was reserved for it. -/
theorem opened_channel_holds_stream :
    ∃ ch, ((fresh {} .willing).run Call.opening).channels.get? 1 = some ch ∧
      ch.closed = false ∧ ch.stream = 3 ∧ 3 ≠ 0 :=
  ((registered_iff_open_with_stream (rfl : start {} .willing = .ok (fresh {} .willing))
    (by decide)).1 3 1).mp (by decide)

end Connection

end ChannelMux
