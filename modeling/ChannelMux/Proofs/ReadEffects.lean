import ChannelMux.Proofs.Finishing
import ChannelMux.Proofs.FlushedSteps
import ChannelMux.Proofs.TallySteps

/-!
# Read effects: what a call does to reads

Most steps have nothing to do with reading.  They are `Steady`: nothing is delivered or completed,
and a channel that is open reads as far as it did, or is new and has not been read from.  A call is
steady as a whole, or it asks for a read (`Prompt`) and goes on in tally steps (`ReadEffect`).
-/

namespace ChannelMux

theorem Journal.apart_of_aside {j j' : Journal}
    (h : j.Extends (fun e => e.isAside = true) j') : j.Apart j' := by
  refine h.mono fun e he => ?_
  cases e with
  | wire | closed => rfl
  | delivered => cases he
  | event e =>
    obtain ⟨channel, what⟩ := e
    cases what with
    | readComplete => cases he
    | _ => rfl

/-- The second channel reads as far as the first does. -/
structure Channel.Paces (ch ch' : Channel) : Prop where
  demand : ch'.demand = ch.demand
  batched : ch'.batched = ch.batched
  autoRead : ch'.autoRead = ch.autoRead

namespace Connection

variable {loud : Bool} {c c' d : Connection} {id : ChannelId} {ch : Channel}

/-! ## Steps in which no read goes on -/

/-- A channel that has not been read from yet. -/
structure Untouched (c : Connection) (ch : Channel) : Prop where
  demand : c.config.autoRead = false → ch.demand = .idle
  batched : ch.batched = false
  autoRead : ch.autoRead = c.config.autoRead

/-- No read goes on: nothing is delivered or completed, and a channel that is open is as it was or
new. -/
structure Steady (c d : Connection) : Prop where
  config : d.config = c.config
  journal : c.journal.Apart d.journal
  channels : ∀ id ch', d.channels.get? id = some ch' → ch'.closed = false → c.Untouched ch' ∨
    ∃ ch, c.channels.get? id = some ch ∧ ch.closed = false ∧ ch.Paces ch'

namespace Steady

theorem refl (c : Connection) : Steady c c :=
  ⟨rfl, .refl _, fun _ ch h ho => .inr ⟨ch, h, ho, rfl, rfl, rfl⟩⟩

theorem trans (h : Steady c c') (h' : Steady c' d) : Steady c d := by
  refine ⟨h'.config.trans h.config, h.journal.trans h'.journal, ?_⟩
  intro id ch'' hch'' ho
  rcases h'.channels id ch'' hch'' ho with hnew | ⟨ch', hch', ho', hpaces'⟩
  · exact .inl ⟨h.config ▸ hnew.demand, hnew.batched, h.config ▸ hnew.autoRead⟩
  · rcases h.channels id ch' hch' ho' with hnew | ⟨ch, hch, ho, hpaces⟩
    · exact .inl ⟨fun hauto => hpaces'.demand.trans (hnew.demand hauto),
        hpaces'.batched.trans hnew.batched, hpaces'.autoRead.trans hnew.autoRead⟩
    · exact .inr ⟨ch, hch, ho, hpaces'.demand.trans hpaces.demand,
        hpaces'.batched.trans hpaces.batched, hpaces'.autoRead.trans hpaces.autoRead⟩

theorem of_matches (hconfig : d.config = c.config) (hjournal : c.journal.Apart d.journal)
    (hchannels : c.channels.Matches (fun ch ch' => ch'.closed = ch.closed ∧ ch.Paces ch')
      d.channels) : Steady c d := by
  refine ⟨hconfig, hjournal, ?_⟩
  intro id ch' hch' ho
  obtain ⟨ch, hch, hclosed, hpaces⟩ := hchannels.back hch'
  exact .inr ⟨ch, hch, hclosed.symm.trans ho, hpaces⟩

/-- Channels stay as they are or are forgotten. -/
theorem of_subset (hconfig : d.config = c.config) (hjournal : c.journal.Apart d.journal)
    (hchannels : ∀ id ch, d.channels.get? id = some ch → ch.closed = false →
      c.channels.get? id = some ch) : Steady c d :=
  ⟨hconfig, hjournal, fun id ch h ho => .inr ⟨ch, hchannels id ch h ho, ho, rfl, rfl, rfl⟩⟩

end Steady

theorem steady_unflushedStep (h : UnflushedStep loud c d) : Steady c d := by
  cases h with
  | told h =>
    exact .of_matches h.config (Journal.apart_of_aside (h.journal.mono fun _ he => he.aside))
      (h.channels.mono fun _ _ hk => ⟨hk.closed, hk.demand, hk.batched, hk.autoRead⟩)
  | @made ch path hnew hk =>
    refine ⟨rfl, .refl _, ?_⟩
    intro id ch' hch' ho
    rcases Table.get?_insert_cases hch' with ⟨-, rfl⟩ | hch'
    · refine .inl ⟨fun hauto => ?_, hk.batched, hk.autoRead⟩
      rw [hk.demand, newChannel, hauto]
      rfl
    · exact .inr ⟨ch', hch', ho, rfl, rfl, rfl⟩
  | @closed id ch kind =>
    exact .of_subset (close_unmoved c id kind).1 (close_unmoved c id kind).2.2
      fun _ _ hch' ho => get?_of_open_close hch' ho
  | tornDown => exact .of_subset rfl (.refl _) fun _ _ hch' _ => Table.get?_of_erase hch'

theorem steady_unflushedPath (h : UnflushedPath loud c d) : Steady c d :=
  h.induction (fun _ _ hr hc => hc.trans (steady_unflushedStep hr)) (.refl c)

theorem steady_forward (c : Connection) (f : Frame) : Steady c (c.forward f) :=
  .of_subset rfl ((Journal.Apart.refl _).push rfl) fun _ _ h _ => h

theorem steady_discard (c : Connection) (frames bytes : Nat) :
    Steady c (c.discard frames bytes) :=
  .of_subset rfl (.refl _) fun _ _ h _ => h

/-- What arrives for a channel waits until it is wanted. -/
theorem steady_received (h : c.channels.get? id = some ch) (item : Inbound) :
    Steady c { c with reading := true, channels := c.channels.insert id (ch.receive item) } := by
  have hpaces : (ch.receive item).closed = ch.closed ∧ ch.Paces (ch.receive item) := by
    rw [Channel.receive]
    dsimp only
    split <;> exact ⟨rfl, rfl, rfl, rfl⟩
  exact .of_matches rfl (.refl _) (.insert (fun _ => ⟨rfl, rfl, rfl, rfl⟩) h hpaces)

/-! ## Calls -/

/-- What a call asks for before anything is read. -/
inductive Prompt (c : Connection) (k : Call) : Connection → Prop
  | steady {d : Connection} : Steady c d → Prompt c k d
  | begun {id : ChannelId} : k = .beginRead id → c.channels.contains id = true →
      Prompt c k (c.updateChannel id (·.requestRead c.config.messagesPerRead))
  | automated {id : ChannelId} {on : Bool} :
      k = .setAutoRead id on → c.channels.contains id = true →
      Prompt c k (c.updateChannel id fun ch => { ch with autoRead := on })
  | roused {id : ChannelId} : k = .setAutoRead id true → c.channels.contains id = true →
      Prompt c k ((c.updateChannel id fun ch => { ch with autoRead := true }).updateChannel id
        (·.requestRead c.config.messagesPerRead))

/-- What a call does to the reads of channels: nothing, or it reads after it has asked. -/
inductive ReadEffect (c : Connection) (k : Call) : Connection → Prop
  | steady {d : Connection} : Steady c d → ReadEffect c k d
  | reads {c' d : Connection} :
      Prompt c k c' → c'.Tidy → c'.Counted → TallyPath c' d → ReadEffect c k d

theorem Earned.update (hc : c.Earned) (id : ChannelId) {f : Channel → Channel}
    (hf : ∀ ch : Channel, (f ch).closed = ch.closed ∧ (f ch).batched = ch.batched) :
    (c.updateChannel id f).Earned := by
  refine hc.of_back (fun _ => Nat.le_refl _) ?_
  intro i ch' hch' ho hb
  rw [get?_updateChannel] at hch'
  split at hch'
  next =>
    obtain ⟨ch, hch, rfl⟩ := Option.map_eq_some_iff.mp hch'
    exact ⟨ch, hch, (hf ch).1.symm.trans ho, (hf ch).2.symm.trans hb⟩
  next => exact ⟨ch', hch', ho, hb⟩

theorem Earned.steady (hc : c.Earned) (h : Steady c d) : d.Earned := by
  refine hc.of_back (fun i => Nat.le_of_eq (by rw [h.journal.tally_eq])) ?_
  intro i ch' hch' ho hb
  rcases h.channels i ch' hch' ho with hnew | ⟨ch, hch, ho, hpaces⟩
  · exact absurd (hnew.batched.symm.trans hb) (by decide)
  · exact ⟨ch, hch, ho, hpaces.batched.symm.trans hb⟩

theorem batched_requestRead (ch : Channel) (budget : Nat) :
    (ch.requestRead budget).closed = ch.closed ∧ (ch.requestRead budget).batched = ch.batched := by
  rw [Channel.requestRead]
  split <;> exact ⟨rfl, rfl⟩

theorem Earned.prompt {k : Call} (hc : c.Earned) (h : Prompt c k d) : d.Earned := by
  cases h with
  | steady h => exact hc.steady h
  | begun => exact hc.update _ fun ch => batched_requestRead ch _
  | automated => exact hc.update _ fun _ => ⟨rfl, rfl⟩
  | @roused id =>
    have hset : (c.updateChannel id fun ch => { ch with autoRead := true }).Earned :=
      hc.update id fun _ => ⟨rfl, rfl⟩
    exact hset.update id fun ch => batched_requestRead ch _

theorem readEffect_frame (ht : c.Tidy) (hc : c.Counted) (he : c.Earned) (f : Frame) :
    ReadEffect c (.frame f) (c.frameArrived f) := by
  have harrival := arrival ht f
  generalize c.frameArrived f = d at harrival
  cases harrival with
  | passed _ hflushed =>
      exact .steady ((steady_unflushedPath hflushed.aloud).trans (steady_forward _ f))
  | dropped _ hbegun hflushed =>
    exact .steady (((steady_unflushedPath hbegun.path).trans (steady_discard ..)).trans
      (steady_unflushedPath hflushed.aloud))
  | heeded _ hflushed => exact .steady (steady_unflushedPath hflushed.aloud)
  | @queued id ch item _ _ h =>
    have hreceived := steady_received h item
    have htidy : { c with reading := true }.Tidy := ht.of_eq rfl (Nat.le_refl _) fun _ h => h
    have hcounted : { c with reading := true }.Counted := hc.of_eq rfl rfl rfl (.refl _)
    have hqueued : Connection.Tidy
        { c with reading := true, channels := c.channels.insert id (ch.receive item) } :=
      htidy.quiet (Quiet.insert (c := { c with reading := true }) h _ (alike_receive ch item) _)
    refine .reads (.steady hreceived) hqueued ?_ ?_
    · exact hcounted.of_insert h rfl rfl rfl (.refl _) (alike_receive ch item).closed
        fun _ hch => hch.receive item
    · rw [receive]
      dsimp only
      split
      · exact .refl _
      · exact tallyPath_drain (he.steady hreceived) id

theorem readEffect_beginRead (ht : c.Tidy) (hc : c.Counted) (he : c.Earned) (id : ChannelId) :
    ReadEffect c (.beginRead id) (c.after (.beginRead id)) := by
  have hasked := ReadStep.requested c id
  change ReadEffect c (.beginRead id) (c.onChannel id (.unit, c.beginRead id)).2
  rw [onChannel]
  split
  next hcontains =>
    dsimp only
    rw [beginRead]
    split
    · exact .steady (.refl c)
    · split
      · exact .steady (.refl c)
      · have hprompt : Prompt c (.beginRead id) _ := .begun rfl hcontains
        refine .reads hprompt (ht.readPath hasked.path) (hc.readStep ht hasked) ?_
        dsimp only
        split
        · exact tallyPath_drain (he.prompt hprompt) id
        · exact .refl _
  · exact .steady (.refl c)

theorem readEffect_setAutoRead (ht : c.Tidy) (hc : c.Counted) (he : c.Earned) (id : ChannelId)
    (on : Bool) : ReadEffect c (.setAutoRead id on) (c.after (.setAutoRead id on)) := by
  have hset := ReadStep.automated c id on
  have htset := ht.readPath hset.path
  have hcset := hc.readStep ht hset
  change ReadEffect c (.setAutoRead id on) (c.onChannel id (.unit, c.setAutoRead id on)).2
  rw [onChannel]
  split
  next hcontains =>
    dsimp only
    rw [setAutoRead]
    split
    · exact .steady (.refl c)
    · dsimp only
      split
      next hon =>
        obtain rfl : on = true := (Bool.and_eq_true_iff.mp hon).1
        have hprompt : Prompt c (.setAutoRead id true) _ := .roused rfl hcontains
        have hasked := ReadStep.requested
          (c.updateChannel id fun ch => { ch with autoRead := true }) id
        exact .reads hprompt (htset.readPath hasked.path) (hcset.readStep htset hasked)
          (tallyPath_drain (he.prompt hprompt) id)
      · exact .reads (.automated rfl hcontains) htset hcset (.refl _)
  · exact .steady (.refl c)

theorem readEffect_after (ht : c.Tidy) (hc : c.Counted) (he : c.Earned) (k : Call) :
    ReadEffect c k (c.after k) := by
  cases hreads : k.reads with
  | false => exact .steady (steady_unflushedPath (unflushedPath_after ht hreads))
  | true =>
    cases k with
    | frame f => exact readEffect_frame ht hc he f
    | readCycleEnded => exact .reads (.steady (.refl c)) ht hc (tallyPath_readCycleEnded he)
    | beginRead id => exact readEffect_beginRead ht hc he id
    | setAutoRead id on => exact readEffect_setAutoRead ht hc he id on
    | _ => cases hreads

/-! ## Tally steps -/

theorem TallyStep.config (h : TallyStep c d) : d.config = c.config := by
  rcases h.readStep.quiet_or_closes with hquiet | ⟨c', id, hquiet, rfl⟩
  · exact hquiet.config
  · exact (close_unmoved c' id .remote).1.trans hquiet.config

/-- What every tally step of a counted connection keeps, a path of them keeps. -/
theorem TallyPath.induction {P : Connection → Prop}
    (step : ∀ {c d : Connection}, c.Counted → TallyStep c d → P c → P d) (ht : c.Tidy)
    (hc : c.Counted)
    (h : TallyPath c d) (hp : P c) : P d := by
  have hall : d.Tidy ∧ d.Counted ∧ P d := by
    induction h with
    | refl => exact ⟨ht, hc, hp⟩
    | tail _ hstep ih =>
      obtain ⟨ht, hc, hp⟩ := ih
      exact ⟨ht.readPath hstep.readStep.path, hc.readStep ht hstep.readStep, step hc hstep hp⟩
  exact hall.2.2

end Connection

end ChannelMux
