import ChannelMux.Proofs.Endings
import ChannelMux.Proofs.Guards
import Mathlib.Data.List.TakeWhile

/-!
# Sentinels: when late frames are absorbed

Who ended a stream first is known before its channel is closed.  Where the stream was ended here
while the encoder was active, the registry remembers it, and every frame that arrives for it is
absorbed until the deadline passes; a stream that the peer ended is forgotten at once.

A call may close several channels, and what it does after closing one could spoil this, if it gave
the forgotten stream to another channel.  Calls that ask for streams close only channels that still
wait for the settings, and nobody has ended the stream of such a channel; and headers that open a
conversation are the first thing that a server sees of their call.
-/

namespace ChannelMux

/-- The call closes no channel, whatever the connection. -/
def Call.closesNothing : Call → Bool
  | runTasks | advanceClock _ | setEncoder _ => true
  | _ => false

/-- With this entry the closing of the channel begins, or it is the mark that it was closed. -/
def Entry.ends (id : ChannelId) (e : Entry) : Bool := e.isTerminal id || e = .closed id

theorem Entry.ends_of_isLight {role : Role} {e : Entry} (h : e.isLight role = true)
    (id : ChannelId) : e.ends id = false := by
  cases e with
  | wire owner entry =>
    obtain ⟨call, fault⟩ := entry
    cases call with
    | data | reset | reserve => cases h
    | _ => rfl
  | event | delivered => rfl
  | closed => cases h

namespace Connection

variable {strict : Prop} {k : Cause} {c d : Connection} {id j : ChannelId} {ch ch' : Channel}
  {s : StreamId} {due : Time} {kind : CloseKind}

/-! ## The moment at which a channel is closed -/

/-- What had been handed to the encoder when the closing of the channel began. -/
def wireBeforeEnd (c : Connection) (id : ChannelId) : List WireEntry :=
  (c.journal.entries.takeWhile fun e => !e.ends id).filterMap Entry.wire?

/-- The encoder was active when the closing of the channel began. -/
def endedActive (c : Connection) (id : ChannelId) : Bool := c.encoder.active (c.wireBeforeEnd id)

/-- No channel of this number has been closed. -/
def Unmarked (c : Connection) (id : ChannelId) : Prop :=
  ∀ e ∈ c.journal.entries, e.ends id = false

theorem wireBeforeEnd_of_unmarked (h : c.Unmarked id) : c.wireBeforeEnd id = c.journal.wire := by
  have hall : (c.journal.entries.takeWhile fun e => !e.ends id) = c.journal.entries :=
    List.takeWhile_eq_self_iff.mpr fun e he => by rw [h e he]; rfl
  rw [wireBeforeEnd, hall]
  rfl

theorem Unmarked.extends (h : c.Unmarked id)
    (hj : c.journal.Extends (fun e => e.ends id = false) d.journal) : d.Unmarked id := by
  obtain ⟨es, hes, hall⟩ := hj
  intro e he
  rw [hes] at he
  exact (List.mem_append.mp he).elim (h e) (hall e)

/-- What came before the closing does not change any more. -/
theorem wireBeforeEnd_of_prefix (h : ¬ c.Unmarked id)
    (hpre : c.journal.entries <+: d.journal.entries) :
    d.wireBeforeEnd id = c.wireBeforeEnd id := by
  obtain ⟨es, hes⟩ := hpre
  have hshort : (c.journal.entries.takeWhile fun e => !e.ends id).length ≠
      c.journal.entries.length := by
    intro hlen
    refine h fun e he => ?_
    have hself := List.IsPrefix.eq_of_length (List.takeWhile_prefix _) hlen
    have hend := List.takeWhile_eq_self_iff.mp hself e he
    simpa using hend
  rw [wireBeforeEnd, ← hes, List.takeWhile_append, if_neg hshort]
  rfl

/-- The entries of a closing begin with one that ends the channel. -/
theorem wireBeforeEnd_close (hunmarked : c.Unmarked id) (hch : c.channels.get? id = some ch)
    (ho : ch.closed = false) (kind : CloseKind) :
    ¬ (c.close id kind).Unmarked id ∧ (c.close id kind).wireBeforeEnd id = c.journal.wire := by
  obtain ⟨es, hes, hclosing⟩ := closing_close hch ho kind
  have hbegins : ∃ e fs, es ++ [.closed id] = e :: fs ∧ e.ends id = true := by
    cases hclosing with
    | silent => exact ⟨_, _, rfl, by simp [Entry.ends]⟩
    | @framed f => exact ⟨_, _, rfl, by cases f <;> simp [Entry.ends, Entry.isTerminal,
        ClosingFrame.call]⟩
  obtain ⟨e, fs, heq, hend⟩ := hbegins
  rw [heq] at hes
  refine ⟨fun hnone => ?_, ?_⟩
  · have hfalse := hnone e (by rw [hes]; simp)
    rw [hend] at hfalse
    cases hfalse
  · have hlog := wireBeforeEnd_of_unmarked hunmarked
    rw [wireBeforeEnd] at hlog ⊢
    have hself : (c.journal.entries.takeWhile fun e => !e.ends id) = c.journal.entries :=
      List.takeWhile_eq_self_iff.mpr fun e he => by rw [hunmarked e he]; rfl
    rw [hes, List.takeWhile_append, hself, if_pos rfl, List.takeWhile_cons_of_neg (by simp [hend]),
      List.append_nil]
    rfl

/-! ## Stream steps and one channel -/

/-- The closing of another channel does not end this one. -/
theorem extends_close_of_ne (h : j ≠ id) (c : Connection) (kind : CloseKind) :
    c.journal.Extends (fun e => e.ends id = false) (c.close j kind).journal := by
  rcases close_cases c j kind with ⟨-, heq⟩ | ⟨ch, hch, ho⟩
  · rw [heq]
    exact .refl _
  · obtain ⟨es, hes, hclosing⟩ := closing_close hch ho kind
    refine ⟨es ++ [.closed j], hes, fun e he => ?_⟩
    rcases List.mem_append.mp he with he | he
    · cases hclosing with
      | silent => cases he
      | @framed f =>
        rcases List.mem_cons.mp he with rfl | he
        · cases f <;> simp [Entry.ends, Entry.isTerminal, ClosingFrame.call, h]
        · rw [List.mem_singleton.mp he]
          rfl
    · rw [List.mem_singleton.mp he]
      simp [Entry.ends, Entry.isTerminal, h]

namespace StreamStep

theorem nextChannel (h : StreamStep strict k c d) : c.nextChannel ≤ d.nextChannel := by
  cases h with
  | calm hcalm => exact hcalm.nextChannel
  | asked path subprotocol =>
    rw [addAsking_eq]
    exact Nat.le_succ _
  | enrolled => exact Nat.le_succ _
  | requestRefused => rw [nextChannel_close]
  | ended => rw [nextChannel_close]
  | unreserved | requested | answered | sent | tornDown | cleared | missed | expired =>
    exact Nat.le_refl _

/-- The clock, the encoder and the configuration change only where they are set. -/
theorem surroundings (h : StreamStep strict k c d) (hclock : ∀ ms, k.call ≠ .advanceClock ms)
    (hencoder : ∀ e, k.call ≠ .setEncoder e) :
    d.config = c.config ∧ d.clock = c.clock ∧ d.encoder = c.encoder := by
  have hclose (e : Connection) (id : ChannelId) (kind : CloseKind) :
      (e.close id kind).config = e.config ∧ (e.close id kind).clock = e.clock ∧
        (e.close id kind).encoder = e.encoder := by
    rcases close_cases e id kind with ⟨-, heq⟩ | ⟨ch, hch, ho⟩
    · rw [heq]
      exact ⟨rfl, rfl, rfl⟩
    · obtain ⟨_, _, heq, -⟩ := close_exact hch ho kind
      rw [heq]
      exact ⟨rfl, rfl, rfl⟩
  cases h with
  | calm hcalm =>
    exact ⟨hcalm.config, hcalm.clock.resolve_right fun ⟨ms, hms⟩ => hclock ms hms,
      hcalm.encoder.resolve_right (hencoder _)⟩
  | asked path subprotocol =>
    rw [addAsking_eq]
    exact ⟨rfl, rfl, rfl⟩
  | requestRefused | ended => exact hclose _ _ _
  | unreserved | requested | enrolled | answered | sent | tornDown | cleared | missed | expired =>
    exact ⟨rfl, rfl, rfl⟩

/-- A closed channel is left alone, until it is torn down. -/
theorem forth (h : StreamStep strict k c d) (hid : id < c.nextChannel) (hk : k.call ≠ .runTasks)
    (hch : c.channels.get? id = some ch) (hclosed : ch.closed = true) :
    ∃ ch', d.channels.get? id = some ch' ∧ ch.Unmoved ch' := by
  have hne {j : ChannelId} {e : Channel} (he : c.channels.get? j = some e)
      (ho : e.closed = false) : id ≠ j := by
    rintro rfl
    obtain rfl := Option.some.inj (hch.symm.trans he)
    exact absurd (hclosed.symm.trans ho) (by decide)
  have hinsert {j : ChannelId} {e : Channel} (hj : id ≠ j) :
      (c.channels.insert j e).get? id = some ch :=
    (Table.get?_insert_of_ne hj _ _).trans hch
  cases h with
  | calm hcalm => exact hcalm.channels.forth hch
  | asked path subprotocol =>
    rw [addAsking_eq]
    exact ⟨ch, hinsert (Nat.ne_of_lt hid), .refl ch⟩
  | enrolled => exact ⟨ch, hinsert (Nat.ne_of_lt hid), .refl ch⟩
  | requested _ he ho => exact ⟨ch, hinsert (hne he ho), .refl ch⟩
  | answered _ _ _ he ho => exact ⟨ch, hinsert (hne he ho), .refl ch⟩
  | requestRefused _ _ _ he ho =>
    exact ⟨ch, (get?_close_of_ne (hne he ho) _).trans (hinsert (hne he ho)), .refl ch⟩
  | ended _ _ _ he ho =>
    exact ⟨ch, (get?_close_of_ne (hne he ho) _).trans (hinsert (hne he ho)), .refl ch⟩
  | tornDown _ _ hruns => exact absurd hruns hk
  | unreserved | sent | cleared | missed | expired => exact ⟨ch, hch, .refl ch⟩

/-- A channel that has not been closed is left open, or it is closed after something was done to
it. -/
theorem closes (h : StreamStep True k c d) (hc : c.Guarded) (id : ChannelId)
    (hopen : ∀ ch, c.channels.get? id = some ch → ch.closed = false) :
    (c.journal.Extends (fun e => e.ends id = false) d.journal ∧
      ∀ ch, d.channels.get? id = some ch → ch.closed = false) ∨
    ∃ (e : Connection) (ch : Channel) (kind : CloseKind), d = e.close id kind ∧ e.Guarded ∧
      e.channels.get? id = some ch ∧ ch.closed = false ∧
      c.journal.Extends (fun e => e.ends id = false) e.journal ∧
      e.config = c.config ∧ e.clock = c.clock ∧ e.encoder = c.encoder := by
  have hinsert {j : ChannelId} {ch ch' : Channel}
      (hch' : (c.channels.insert j ch).get? id = some ch') (ho : ch.closed = false) :
      ch'.closed = false := by
    rcases Table.get?_insert_cases hch' with ⟨-, rfl⟩ | hch'
    · exact ho
    · exact hopen ch' hch'
  cases h with
  | calm hcalm =>
    refine .inl ⟨hcalm.journal.mono fun _ he => Entry.ends_of_isLight he id, fun ch' hch' => ?_⟩
    obtain ⟨ch, hch, hsame⟩ := hcalm.channels.back hch'
    exact hsame.closed.trans (hopen ch hch)
  | asked path subprotocol =>
    rw [addAsking_eq]
    exact .inl ⟨.refl _, fun ch hch => hinsert hch rfl⟩
  | requested _ hch ho =>
    exact .inl ⟨(Journal.extends_push _ (by rfl)).push (by rfl), fun _ hch' => hinsert hch' ho⟩
  | enrolled => exact .inl ⟨Journal.extends_push _ (by rfl), fun _ hch' => hinsert hch' rfl⟩
  | answered _ _ _ hch ho => exact .inl ⟨.refl _, fun _ hch' => hinsert hch' ho⟩
  | @requestRefused j ch stream block f ledger hch ho ha _ hfresh =>
    obtain ⟨h0, hfree⟩ := hfresh trivial
    have hjournal : c.journal.Extends (fun e => e.ends id = false)
        (((c.journal.push (.wire (some j) ⟨.reserve stream, none⟩)).push
          (.wire (some j) ⟨.headers stream block false, some f⟩)).push
            (.event ⟨j, .failed (.write f)⟩)) :=
      ((Journal.extends_push _ (by rfl)).push (by rfl)).push (by rfl)
    have hguarded := hc.refused hch ho ha h0 hfree ledger
      (((c.journal.push (.wire (some j) ⟨.reserve stream, none⟩)).push
        (.wire (some j) ⟨.headers stream block false, some f⟩)).push
          (.event ⟨j, .failed (.write f)⟩))
    by_cases hj : j = id
    · subst hj
      exact .inr ⟨_, _, .reset, rfl, hguarded, Table.get?_insert_self .., ho, hjournal, rfl, rfl,
        rfl⟩
    · refine .inl ⟨hjournal.trans (extends_close_of_ne hj _ _), fun ch' hch' => ?_⟩
      rw [get?_close_of_ne (Ne.symm hj)] at hch'
      exact hinsert hch' ho
  | @ended j ch ch' kind ledger journal hch ho hout hlight =>
    have hjournal := hlight.mono fun _ he => Entry.ends_of_isLight he id
    by_cases hj : j = id
    · subst hj
      exact .inr ⟨_, ch', kind, rfl, hc.outgoing hch ho hout ledger journal,
        Table.get?_insert_self .., hout.closed, hjournal, rfl, rfl, rfl⟩
    · refine .inl ⟨hjournal.trans (extends_close_of_ne hj _ _), fun ch' hch' => ?_⟩
      rw [get?_close_of_ne (Ne.symm hj)] at hch'
      exact hinsert hch' hout.closed
  | tornDown =>
    exact .inl ⟨.refl _, fun ch hch => hopen ch (Table.get?_of_erase hch)⟩
  | unreserved | sent | cleared => exact .inl ⟨Journal.extends_push _ (by rfl), hopen⟩
  | missed | expired => exact .inl ⟨.refl _, hopen⟩

end StreamStep

/-! ## The fate of a stream within the call that closes its channel -/

/-- The channel was closed in a call, and its stream is remembered or forgotten accordingly. -/
structure Retired (k : Cause) (c : Connection) (id : ChannelId) (s : StreamId) (who : Initiator) :
    Prop where
  numbered : id < c.nextChannel
  marked : ¬ c.Unmarked id
  channel : ∃ ch, c.channels.get? id = some ch ∧
    ch.closed = true ∧ ch.stream = s ∧ ch.initiator = some who
  absorbed : who = .ours → c.endedActive id = true → s ≠ 0 → k.call ≠ .connectionLost →
    (k.conn.clock + k.conn.config.grace, .registryRemoval s) ∈ c.timers.entries ∨
      ∃ now, k.call = .timePassed now ∧ k.conn.clock + k.conn.config.grace ≤ now ∧
        c.registry.get? s = none
  forgotten : who = .theirs → s ≠ 0 → k.call.asks = false → c.registry.get? s = none

/-- A channel that was not closed before the call, in the course of it. -/
structure Watched (k : Cause) (id : ChannelId) (c : Connection) : Prop where
  guarded : c.Guarded
  surroundings : c.config = k.conn.config ∧ c.clock = k.conn.clock ∧ c.encoder = k.conn.encoder
  fate : (c.Unmarked id ∧ ∀ ch, c.channels.get? id = some ch → ch.closed = false) ∨
    ∃ s who, c.Retired k id s who

/-- What closing does to the stream of an open channel. -/
theorem Guarded.retired_close (h : c.Guarded) (hunmarked : c.Unmarked id)
    (hch : c.channels.get? id = some ch) (ho : ch.closed = false) (kind : CloseKind)
    (hconfig : c.config = k.conn.config) (hclock : c.clock = k.conn.clock) :
    ∃ who, Retired k (c.close id kind) id ch.stream who := by
  obtain ⟨hmarked, hwire⟩ := wireBeforeEnd_close hunmarked hch ho kind
  have hself := get?_close_self hch ho kind
  obtain ⟨_, _, heq, -⟩ := close_exact hch ho kind
  refine ⟨ch.initiator.getD kind.initiator, ?_, hmarked, ⟨_, hself, rfl, rfl, rfl⟩, ?_, ?_⟩
  · rw [nextChannel_close]
    exact h.known id ch hch
  · intro hours hactive h0 _
    rw [endedActive, hwire, encoder_close] at hactive
    have habsorb : (c.isActive && decide ((ch.shut kind).initiator = some .ours)) = true :=
      Bool.and_eq_true_iff.mpr ⟨hactive, decide_eq_true (congrArg some hours)⟩
    refine .inl ?_
    rw [heq]
    dsimp only
    rw [habsorb, retiredTimers, if_neg h0, if_pos rfl, hclock, hconfig]
    exact (Timers.mem_place ..).mpr (.inl rfl)
  · intro htheirs h0 _
    have hnot : decide ((ch.shut kind).initiator = some .ours) = false := by
      refine decide_eq_false fun hours => ?_
      cases (Option.some.inj hours).symm.trans htheirs
    rw [heq]
    dsimp only
    rw [hnot, Bool.and_false, retired, if_neg h0]
    exact (Registry.get?_remove ..).trans (if_pos rfl)

theorem Retired.streamStep {who : Initiator} (h : Retired k c id s who) (hc : c.Guarded)
    (hstep : StreamStep True k c d) (hencoder : d.encoder = c.encoder) (hstart : k.conn.Unmarked id)
    (hk : k.call ≠ .runTasks) :
    Retired k d id s who where
  numbered := Nat.lt_of_lt_of_le h.numbered hstep.nextChannel
  marked hnone := by
    obtain ⟨es, hes⟩ := hstep.entries
    exact h.marked fun e he => hnone e (hes ▸ List.mem_append_left es he)
  channel := by
    obtain ⟨ch, hch, hclosed, hstream, hinitiator⟩ := h.channel
    obtain ⟨ch', hch', hsame⟩ := hstep.forth h.numbered hk hch hclosed
    refine ⟨ch', hch', hsame.closed.trans hclosed, hsame.stream.trans hstream, ?_⟩
    rcases hsame.initiator with heq | ⟨-, hnone, -⟩
    · exact heq.trans hinitiator
    · cases hnone.symm.trans hinitiator
  absorbed hours hactive h0 hlost := by
    rw [endedActive, wireBeforeEnd_of_prefix h.marked hstep.entries, hencoder] at hactive
    rcases h.absorbed hours hactive h0 hlost with hmem | ⟨now, hk, hle, hfree⟩
    · rcases hc.mem_streamStep hstep hmem with hmem | hk | ⟨now, hk, hle, hfree⟩
      · exact .inl hmem
      · exact absurd hk hlost
      · exact .inr ⟨now, hk, hle, hfree⟩
    · refine .inr ⟨now, hk, hle, hstep.free (by rw [hk]; rfl) ?_ hfree⟩
      rintro ⟨_, _, _, hheaders⟩
      cases hk.symm.trans hheaders
  forgotten htheirs h0 hasks := by
    refine hstep.free hasks (fun _ hc => ?_) (h.forgotten htheirs h0 hasks)
    exact h.marked (hc ▸ hstart)

theorem Watched.streamStep (h : Watched k id c) (hstep : StreamStep True k c d)
    (hstart : k.conn.Unmarked id)
    (hk : k.call ≠ .runTasks) (hclock : ∀ ms, k.call ≠ .advanceClock ms)
    (hencoder : ∀ e, k.call ≠ .setEncoder e) : Watched k id d := by
  obtain ⟨hconf, hclk, henc⟩ := hstep.surroundings hclock hencoder
  obtain ⟨hconf₀, hclk₀, henc₀⟩ := h.surroundings
  refine ⟨h.guarded.streamStep hstep, ⟨hconf.trans hconf₀, hclk.trans hclk₀, henc.trans henc₀⟩, ?_⟩
  rcases h.fate with ⟨hunmarked, hopen⟩ | ⟨s, who, hretired⟩
  · rcases hstep.closes h.guarded id hopen with ⟨hjournal, hopen'⟩ |
      ⟨e, ch, kind, rfl, hguarded, hch, ho, hjournal, hconf, hclk, -⟩
    · exact .inl ⟨hunmarked.extends hjournal, hopen'⟩
    · obtain ⟨who, hretired⟩ := hguarded.retired_close (hunmarked.extends hjournal) hch ho kind
        (hconf.trans hconf₀) (hclk.trans hclk₀)
      exact .inr ⟨ch.stream, who, hretired⟩
  · exact .inr ⟨s, who, hretired.streamStep h.guarded hstep henc hstart hk⟩

/-! ## Calls that close channels -/

theorem closed_mem_of_closesNothing {k : Call} (hk : k.closesNothing = true)
    (h : .closed id ∈ (c.after k).journal.entries) : .closed id ∈ c.journal.entries := by
  unfold Call.closesNothing at hk
  split at hk
  · have hfold (ts : List Task) (d : Connection)
        (h : .closed id ∈ (ts.foldl runTask d).journal.entries) :
        .closed id ∈ d.journal.entries := by
      induction ts generalizing d with
      | nil => exact h
      | cons t ts ih =>
        have hd := ih _ h
        cases t with
        | reportWritability j on =>
          rw [runTask] at hd
          split at hd
          · simpa [emit, note] using hd
          · exact hd
        | tearDown j =>
          rw [runTask] at hd
          split at hd
          · simpa [emit, note] using hd
          · exact hd
    exact hfold c.tasks { c with tasks := [] } h
  · exact h
  · exact h
  · cases hk

/-- Within a call that closes a channel, the fate of its stream. -/
theorem retired_after {config : Config} {encoder : Encoder} (h : start config encoder = .ok c)
    {ks : List Call} {k : Call} (ho : c.CarefulRun (ks ++ [k]))
    (hopen : .closed id ∉ (c.run ks).journal.entries)
    (hclosed : .closed id ∈ ((c.run ks).after k).journal.entries) :
    ((c.run ks).after k).Guarded ∧
      ∃ s who, Retired ⟨c.run ks, k⟩ ((c.run ks).after k) id s who := by
  obtain ⟨hbefore, hnow, -⟩ := carefulRun_append.mp ho
  have hk : k.closesNothing = false :=
    Bool.eq_false_iff.mpr fun hk => hopen (closed_mem_of_closesNothing hk hclosed)
  have hsealed := sealed_run h ks
  have hunmarked : (c.run ks).Unmarked id := by
    intro e he
    refine Bool.eq_false_iff.mpr fun hend => hopen ?_
    rcases Bool.or_eq_true_iff.mp hend with hterminal | heq
    · exact hsealed.ended id e he hterminal
    · exact of_decide_eq_true heq ▸ he
  have hstart : Watched ⟨c.run ks, k⟩ id (c.run ks) :=
    { guarded := guarded_run h hbefore
      surroundings := ⟨rfl, rfl, rfl⟩
      fate := .inl ⟨hunmarked, fun ch hch => Bool.eq_false_iff.mpr fun hshut =>
        hopen (hsealed.shut id ch hch hshut)⟩ }
  have hwatched := (streamPath_after h ks k fun _ : True => hnow).induction (P := Watched _ id)
    (fun _ _ hstep hd => hd.streamStep hstep hunmarked (by rintro rfl; cases hk)
      (by rintro _ rfl; cases hk) (by rintro _ rfl; cases hk)) hstart
  refine ⟨hwatched.guarded, hwatched.fate.resolve_left fun hnot => ?_⟩
  have hmark := hnot.1 _ hclosed
  simp [Entry.ends] at hmark

/-! ## Calls that ask for streams -/

/-- If there is such a channel, the peer has not ended its stream. -/
def Unblamed (c : Connection) (id : ChannelId) : Prop :=
  ∀ ch, c.channels.get? id = some ch → ch.initiator ≠ some .theirs

namespace Unblamed

theorem update (h : c.Unblamed id) {f : Channel → Channel}
    (hf : ∀ ch, (f ch).initiator = ch.initiator) : (c.updateChannel id f).Unblamed id := by
  intro ch hch
  rw [get?_updateChannel, if_pos rfl] at hch
  obtain ⟨e, he, rfl⟩ := Option.map_eq_some_iff.mp hch
  rw [hf]
  exact h e he

theorem failHandshake (h : c.Unblamed id) (cause : Fault) :
    (c.failHandshake id cause).Unblamed id := by
  rcases failHandshake_cases c id cause with heq | ⟨ch, hch, ho⟩
  · rw [heq]
    exact h
  · obtain ⟨d, heq, hself, -⟩ := failHandshake_closes hch ho cause
    intro ch' hch'
    rw [heq, get?_close_self hself ho] at hch'
    obtain rfl := Option.some.inj hch'
    change some (ch.initiator.getD .ours) ≠ some .theirs
    cases hwho : ch.initiator with
    | none => decide
    | some who => exact hwho ▸ h ch hch

theorem startHandshake (h : c.Unblamed id) : (c.startHandshake id).Unblamed id := by
  rw [Connection.startHandshake]
  split
  next f c₁ hres =>
    obtain ⟨stream, rfl⟩ := reserve_eq_of_error hres
    exact Unblamed.failHandshake (c := c.note _) h _
  next stream c₁ hres =>
    obtain rfl := reserve_eq_of_ok hres
    split
    · exact h
    next ch hch =>
      have hassigned (entry : Entry) : (((c.note (.wire (some id)
          ⟨.reserve stream, none⟩)).assignStream id stream).note entry).Unblamed id :=
        Unblamed.update (c := c.note _) h fun _ => rfl
      dsimp only
      split
      next f c₂ hsub =>
        obtain ⟨-, rfl⟩ := Prod.mk.inj hsub
        exact (hassigned (.wire _ _)).failHandshake _
      next c₂ hsub =>
        obtain ⟨-, rfl⟩ := Prod.mk.inj hsub
        have hsent := (hassigned (.wire (some id) ⟨.headers stream (((c.note (.wire (some id)
          ⟨.reserve stream, none⟩)).assignStream id stream).requestFor ch).toHeaders false,
            none⟩)).update (f := fun ch => { ch with handshake := .requestSent }) fun _ => rfl
        intro ch' hch'
        rw [flush, tell, note, channels_sendCachedWeight] at hch'
        exact hsent ch' hch'

theorem decideDeferred (h : c.Unblamed id) : (c.decideDeferred id).Unblamed id := by
  rw [Connection.decideDeferred]
  split
  · exact h.startHandshake
  · exact h.failHandshake _

end Unblamed

/-- Requests are decided without touching a channel whose stream the peer has ended. -/
theorem get?_of_theirs_foldl_decideDeferred {ids : List ChannelId}
    (hids : ∀ id ∈ ids, c.Unblamed id)
    (hch : (ids.foldl decideDeferred c).channels.get? j = some ch)
    (htheirs : ch.initiator = some .theirs) : c.channels.get? j = some ch := by
  induction ids generalizing c with
  | nil => exact hch
  | cons id ids ih =>
    have hself : (c.decideDeferred id).Unblamed id := (hids id List.mem_cons_self).decideDeferred
    have hrest : ∀ i ∈ ids, (c.decideDeferred id).Unblamed i := by
      intro i hi
      by_cases hne : i = id
      · exact hne ▸ hself
      · intro e he
        rw [get?_decideDeferred_of_ne hne] at he
        exact hids i (List.mem_cons_of_mem _ hi) e he
    have hdecided := ih hrest hch
    have hne : j ≠ id := by
      rintro rfl
      exact hself ch hdecided htheirs
    rwa [get?_decideDeferred_of_ne hne] at hdecided

/-- A call that asks for streams does not touch a channel whose stream the peer has ended, and it
ends none for the peer. -/
theorem Guarded.get?_of_theirs (h : c.Guarded) {k : Call} (hk : k.asks = true)
    (hch : (c.after k).channels.get? id = some ch) (htheirs : ch.initiator = some .theirs) :
    c.channels.get? id = some ch := by
  unfold Call.asks at hk
  split at hk
  next settings =>
    have hnoted : ({ c with reading := true }.noteSettings settings).channels = c.channels := by
      rw [noteSettings]
      split <;> rfl
    have hstarted : (({ c with reading := true }.noteSettings settings).startDeferred).channels.get?
        id = some ch := hch
    rw [← hnoted]
    refine get?_of_theirs_foldl_decideDeferred (fun i hi e he hends => ?_) hstarted htheirs
    obtain ⟨hopen, hwaits⟩ := List.mem_filter.mp hi
    obtain ⟨e', he', ho⟩ := mem_openChannels.mp hopen
    obtain rfl := Option.some.inj (he.symm.trans he')
    have ha : e.handshake = .awaitingSettings := by simpa [isAwaitingSettings, he] using hwaits
    rw [hnoted] at he
    cases (h.unended i e he ho ha).symm.trans hends
  next path subprotocol =>
    have hasked {e : Channel} (he : (c.addAsking path subprotocol).2.channels.get? id = some e)
        (hends : e.initiator = some .theirs) : c.channels.get? id = some e := by
      rw [addAsking_eq] at he
      rcases Table.get?_insert_cases he with ⟨-, rfl⟩ | he
      · cases hends
      · exact he
    have hunblamed : (c.addAsking path subprotocol).2.Unblamed c.nextChannel := by
      intro e he hends
      rw [get?_addAsking] at he
      obtain rfl := Option.some.inj he
      cases hends
    change (c.openStream path subprotocol).2.channels.get? id = some ch at hch
    rcases openStream_cases c path subprotocol with ⟨f, heq⟩ | ⟨-, -, -, -, heq⟩
    · rwa [heq] at hch
    · rw [heq] at hch
      dsimp only at hch
      split at hch
      · have hne : id ≠ c.nextChannel := by
          rintro rfl
          exact hunblamed.startHandshake ch hch htheirs
        exact hasked ((get?_startHandshake_of_ne hne).symm.trans hch) htheirs
      · exact hasked hch htheirs
  next => cases hk

/-! ## Calls after the closing -/

/-- A frame for a stream that was closed here changes nothing but the counters. -/
theorem after_frame_of_absorbed {f : Frame} (h : c.registry.get? f.stream = some .closed)
    (h0 : f.stream ≠ 0) : c.after (.frame f) = { c with
      reading := true
      stats := { c.stats with
        discardedFrames := c.stats.discardedFrames + 1
        discardedBytes := c.stats.discardedBytes + f.payloadSize } } := by
  change c.frameArrived f = _
  rw [frameArrived.eq_def]
  cases f with
  | settings | goAway => exact absurd rfl h0
  | _ => dsimp only; rw [h]; rfl

section Continuation

variable {config : Config} {encoder : Encoder} {ks ls : List Call} {l : Call}

/-- A deadline stays armed in a call that neither loses the connection nor passes it. -/
theorem mem_after (h : start config encoder = .ok c) (ho : c.CarefulRun (ks ++ [l]))
    (hlost : l ≠ .connectionLost) (hearly : ∀ now, l = .timePassed now → now < due)
    (hmem : (due, .registryRemoval s) ∈ (c.run ks).timers.entries) :
    (due, .registryRemoval s) ∈ ((c.run ks).after l).timers.entries := by
  obtain ⟨hbefore, hnow, -⟩ := carefulRun_append.mp ho
  have hpath := streamPath_after h ks l fun _ : True => hnow
  refine (hpath.induction (P := fun d => d.Guarded ∧ (due, .registryRemoval s) ∈ d.timers.entries)
    (fun d e hstep hd => ⟨hd.1.streamStep hstep, ?_⟩) ⟨guarded_run h hbefore, hmem⟩).2
  rcases hd.1.mem_streamStep hstep hd.2 with hmem | hk | ⟨now, hk, hle, -⟩
  · exact hmem
  · exact absurd hk hlost
  · exact absurd (hearly now hk) (Nat.not_lt.mpr hle)

theorem mem_run (h : start config encoder = .ok c) (ho : c.CarefulRun (ks ++ ls))
    (hlost : .connectionLost ∉ ls) (hearly : ∀ now, .timePassed now ∈ ls → now < due)
    (hmem : (due, .registryRemoval s) ∈ (c.run ks).timers.entries) :
    (due, .registryRemoval s) ∈ (c.run (ks ++ ls)).timers.entries := by
  induction ls using List.reverseRecOn with
  | nil => rwa [List.append_nil]
  | append_singleton ls l ih =>
    rw [← List.append_assoc] at ho ⊢
    have hrest := ih (carefulRun_append.mp ho).1
      (fun hin => hlost (List.mem_append_left _ hin))
      (fun now hin => hearly now (List.mem_append_left _ hin))
    rw [run_concat]
    exact mem_after h ho (fun heq => hlost (by simp [heq]))
      (fun now heq => hearly now (by simp [heq])) hrest

/-- When the time has passed a deadline, no such deadline is left. -/
theorem lt_of_mem_timePassed {now : Time} (h : (c.after (.timePassed now)).Guarded)
    (hmem : (due, .registryRemoval s) ∈ (c.after (.timePassed now)).timers.entries) : now < due :=
  h.timers.lt_of_popDue_eq_none (popDue_timePassed c now) hmem

/-- When the time passes the deadline of a stream, the stream is forgotten. -/
theorem get?_after_timePassed (h : start config encoder = .ok c) (ho : c.CarefulRun ks)
    {now : Time} (hle : due ≤ now)
    (hmem : (due, .registryRemoval s) ∈ (c.run ks).timers.entries) :
    ((c.run ks).after (.timePassed now)).registry.get? s = none := by
  have hpath := streamPath_after h ks (.timePassed now) fun _ : True =>
    ⟨fun _ => rfl, fun _ hd => absurd hd List.not_mem_nil⟩
  have hboth : ((c.run ks).after (.timePassed now)).Guarded ∧
      ((due, .registryRemoval s) ∈ ((c.run ks).after (.timePassed now)).timers.entries ∨
        ((c.run ks).after (.timePassed now)).registry.get? s = none) := by
    refine hpath.induction (P := fun d => d.Guarded ∧
      ((due, .registryRemoval s) ∈ d.timers.entries ∨ d.registry.get? s = none))
      (fun d e hstep hd => ⟨hd.1.streamStep hstep, ?_⟩) ⟨guarded_run h ho, .inl hmem⟩
    rcases hd.2 with hmem | hfree
    · rcases hd.1.mem_streamStep hstep hmem with hmem | hk | ⟨_, _, _, hfree⟩
      · exact .inl hmem
      · cases hk
      · exact .inr hfree
    · exact .inr (hstep.free rfl (fun ⟨_, _, _, hk⟩ => nomatch hk) hfree)
  refine hboth.2.resolve_left fun hmem => ?_
  exact absurd (lt_of_mem_timePassed hboth.1 hmem) (Nat.not_lt.mpr hle)

end Continuation

/-- However the connection is used, as long as it is not lost and the time does not pass the
deadline, a frame for the stream is absorbed: it is counted as discarded, and all else stays as it
was.  When the time passes the deadline, the stream is forgotten. -/
def AbsorbsUntil (c : Connection) (s : StreamId) (due : Time) : Prop :=
  ∀ ls, c.OrderlyRun ls → .connectionLost ∉ ls → (∀ now, .timePassed now ∈ ls → now < due) →
    (c.run ls).registry.get? s = some .closed ∧
    (∀ f, f.stream = s → (c.run ls).after (.frame f) = { c.run ls with
      reading := true
      stats := { (c.run ls).stats with
        discardedFrames := (c.run ls).stats.discardedFrames + 1
        discardedBytes := (c.run ls).stats.discardedBytes + f.payloadSize } }) ∧
    ∀ now, due ≤ now → ((c.run ls).after (.timePassed now)).registry.get? s = none

theorem absorbsUntil_of_mem {config : Config} {encoder : Encoder} (h : start config encoder = .ok c)
    {ks : List Call} (ho : c.CarefulRun ks) (h0 : s ≠ 0)
    (hmem : (due, .registryRemoval s) ∈ (c.run ks).timers.entries) :
    (c.run ks).AbsorbsUntil s due := by
  intro ls hls hlost hearly
  have hall : c.CarefulRun (ks ++ ls) := carefulRun_append.mpr ⟨ho, hls.careful⟩
  have hlater := mem_run h hall hlost hearly hmem
  have hclosed := ((guarded_run h hall).absorbing s).mpr ⟨due, hlater⟩
  have hfree := fun now (hle : due ≤ now) => get?_after_timePassed h hall hle hlater
  rw [run_append] at hclosed hfree
  refine ⟨hclosed, fun f hf => ?_, hfree⟩
  subst hf
  exact after_frame_of_absorbed hclosed h0

/-- Between the calls of a run, the registry remembers a stream as closed if and only if a deadline
is armed for forgetting it.  When a call closes a channel that has a stream:

* if the stream was ended here and the encoder was active then, its frames are absorbed until the
  time of closing and the grace period have passed, unless this very call has passed it already;
* if the stream was ended by the peer, it is forgotten, and no deadline is armed for it. -/
theorem closed_stream_absorbs_until_due {config : Config} {encoder : Encoder} {c : Connection}
    (h : start config encoder = .ok c) (ks : List Call) (ho : c.OrderlyRun ks) :
    (∀ s, (c.run ks).registry.get? s = some .closed ↔
      (c.run ks).timers.Armed (.registryRemoval s)) ∧
    ∀ k id, (c.run ks).Orderly k → .closed id ∉ (c.run ks).journal.entries →
      .closed id ∈ ((c.run ks).after k).journal.entries →
      let d := (c.run ks).after k
      let due := (c.run ks).clock + config.grace
      ∃ ch who, d.channels.get? id = some ch ∧ ch.closed = true ∧ ch.initiator = some who ∧
        (ch.stream ≠ 0 →
          (who = .ours → d.endedActive id = true → k ≠ .connectionLost →
            ((∀ now, k = .timePassed now → now < due) → d.AbsorbsUntil ch.stream due) ∧
            ∀ now, k = .timePassed now → due ≤ now → d.registry.get? ch.stream = none) ∧
          (who = .theirs → d.registry.get? ch.stream = none ∧
            ¬ d.timers.Armed (.registryRemoval ch.stream))) := by
  refine ⟨(guarded_run h ho.careful).absorbing, fun k id hk hopen hclosed => ?_⟩
  intro d due
  have hrun : c.CarefulRun (ks ++ [k]) :=
    carefulRun_append.mpr ⟨ho.careful, hk.careful, trivial⟩
  obtain ⟨hguarded, s, who, hretired⟩ := retired_after h hrun hopen hclosed
  obtain ⟨ch, hch, hshut, rfl, hwho⟩ := hretired.channel
  have hdue : (c.run ks).clock + (c.run ks).config.grace = due := by rw [config_run h]
  refine ⟨ch, who, hch, hshut, hwho, fun h0 => ⟨fun hours hactive hlost => ?_, fun htheirs => ?_⟩⟩
  · have hfate := hretired.absorbed hours hactive h0 hlost
    rw [hdue] at hfate
    refine ⟨fun hearly => ?_, fun now hnow hle => ?_⟩
    · have hmem := hfate.resolve_right fun ⟨now, hnow, hle, _⟩ =>
        absurd (hearly now hnow) (Nat.not_lt.mpr hle)
      rw [← run_concat] at hmem
      have habsorbs := absorbsUntil_of_mem h hrun h0 hmem
      rwa [run_concat] at habsorbs
    · subst hnow
      rcases hfate with hmem | ⟨_, _, _, hfree⟩
      · exact absurd (lt_of_mem_timePassed hguarded hmem) (Nat.not_lt.mpr hle)
      · exact hfree
  · have hfree : d.registry.get? ch.stream = none := by
      refine hretired.forgotten htheirs h0 (Bool.eq_false_iff.mpr fun hasks => ?_)
      have hbefore := (guarded_run h ho.careful).get?_of_theirs hasks hch (htheirs ▸ hwho)
      exact hopen ((sealed_run h ks).shut id ch hbefore hshut)
    refine ⟨hfree, fun harmed => ?_⟩
    cases hfree.symm.trans ((hguarded.absorbing _).mpr harmed)

/-- A client resets its stream at time 0.  Data that arrives before the grace period has passed is
counted, and nothing else happens. -/
theorem late_data_is_absorbed :
    let d := ((fresh {} .willing).run Call.opening).after (.close 1)
    d.AbsorbsUntil 3 10000 ∧
      d.after (.frame (.data 3 [1, 2] 0 true)) = { d with
        reading := true
        stats := { d.stats with discardedFrames := 1, discardedBytes := 2 } } := by
  intro d
  obtain ⟨ch, who, hch, -, hwho, hfate⟩ := (closed_stream_absorbs_until_due
    (rfl : start {} .willing = .ok (fresh {} .willing)) Call.opening (by decide)).2 (.close 1) 1
      (by decide) (by decide) (by decide)
  have hch : d.channels.get? 1 = some ch := hch
  have hseen : (d.channels.get? 1).map (fun ch => (ch.stream, ch.initiator)) =
      some (3, some .ours) := by decide
  rw [hch, Option.map_some, hwho] at hseen
  obtain ⟨hstream, hours⟩ := Prod.mk.inj (Option.some.inj hseen)
  rw [hstream] at hfate
  obtain ⟨habsorbs, -⟩ := (hfate (by decide)).1 (Option.some.inj hours) (by decide) nofun
  have hall : d.AbsorbsUntil 3 10000 := habsorbs nofun
  exact ⟨hall, (hall [] trivial List.not_mem_nil nofun).2.1 (.data 3 [1, 2] 0 true) rfl⟩

end Connection

end ChannelMux
