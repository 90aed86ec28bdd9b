import ChannelMux.Proofs.Accounts
import ChannelMux.Proofs.CorePaths

/-!
# Turns: when a channel is writable

A channel turns unwritable when its pending bytes pass the high watermark, and writable again when
they fall below the low one.  A turn is reported at once or put off, but turns of one channel are
reported in their order: a report that is put off is never overtaken (`turns_reportWritable`), and
no report of a channel is put off behind its removal (`Turning.ordered`).  So the reports that were
made and those that are put off are one sequence, and that alternates.
-/

namespace ChannelMux

/-- The turn that is reported. -/
def Happening.turn? : Happening → Option Bool
  | writability on => some on
  | _ => none

/-- The turn of a channel whose report is put off. -/
def Task.turnOf? (id : ChannelId) : Task → Option Bool
  | reportWritability j on => if j = id then some on else none
  | tearDown _ => none

/-- The turns of a channel that were reported. -/
def Journal.turnsOf (j : Journal) (id : ChannelId) : List Bool :=
  (j.eventsOf id).filterMap Happening.turn?

/-- The turns of a channel: those that were reported and then those whose report is put off. -/
def Connection.turns (c : Connection) (id : ChannelId) : List Bool :=
  c.journal.turnsOf id ++ c.tasks.filterMap (Task.turnOf? id)

/-- The first turns of a channel that is writable in the beginning: false, true, false, … -/
def alternating (n : Nat) : List Bool := (List.range n).map fun i => decide (i % 2 = 1)

example : alternating 3 = [false, true, false] := by decide

theorem alternating_succ (n : Nat) :
    alternating (n + 1) = alternating n ++ [decide (n % 2 = 1)] := by
  rw [alternating, List.range_succ, List.map_append]
  rfl

/-- A channel that has turned so many times. -/
theorem last_alternating (n : Nat) : (alternating n).getLast?.getD true = decide (n % 2 = 0) := by
  cases n with
  | zero => rfl
  | succ n =>
    rw [alternating_succ, List.getLast?_concat, Option.getD_some]
    have hparity : n % 2 = 1 ↔ (n + 1) % 2 = 0 := by omega
    exact decide_eq_decide.mpr hparity

/-- One more turn, from the last one. -/
theorem alternating_append {n : Nat} {on : Bool} (h : (alternating n).getLast?.getD true = !on) :
    alternating n ++ [on] = alternating (n + 1) := by
  rw [last_alternating] at h
  rw [alternating_succ]
  congr 2
  cases on with
  | true => simp at h ⊢; omega
  | false => simp at h ⊢; omega

/-- The turn of a channel that an entry reports. -/
def Entry.turnOf? (id : ChannelId) (e : Entry) : Option Bool :=
  (e.reportOf? id).bind Happening.turn?

namespace Journal

variable {j j' : Journal}

theorem turnsOf_eq (j : Journal) (id : ChannelId) :
    j.turnsOf id = j.entries.filterMap (Entry.turnOf? id) := by
  rw [turnsOf, eventsOf_eq, List.filterMap_filterMap]
  rfl

theorem turnsOf_push (j : Journal) (e : Entry) (id : ChannelId) :
    (j.push e).turnsOf id = j.turnsOf id ++ (e.turnOf? id).toList := by
  rw [turnsOf_eq, turnsOf_eq, entries_push, List.filterMap_append]
  cases h : e.turnOf? id <;> simp [h]

theorem turnsOf_wire (j : Journal) (owner : Option ChannelId) (e : WireEntry) (id : ChannelId) :
    (j.push (.wire owner e)).turnsOf id = j.turnsOf id :=
  (turnsOf_push ..).trans (List.append_nil _)

theorem turnsOf_report (j : Journal) (id : ChannelId) (stream : StreamId) (item : Inbound)
    (i : ChannelId) : (j.report id stream item).turnsOf i = j.turnsOf i := by
  cases item with
  | trailers => rfl
  | data payload endStream =>
    rw [report, turnsOf_wire, turnsOf_push, Entry.turnOf?, Entry.reportOf?]
    split <;> exact List.append_nil _

theorem turnOf?_of_isPlain {e : Entry} (h : e.isPlain = true) (id : ChannelId) :
    e.turnOf? id = none := by
  cases e with
  | event e =>
    rw [Entry.turnOf?, Entry.reportOf?]
    split
    · obtain ⟨_, what⟩ := e
      cases what with
      | writability => cases h
      | _ => rfl
    · rfl
  | wire | delivered | closed => rfl

theorem turnsOf_of_plain (h : j.Extends (fun e => e.isPlain = true) j') (id : ChannelId) :
    j'.turnsOf id = j.turnsOf id := by
  rw [turnsOf_eq, turnsOf_eq]
  exact h.filterMap_eq fun e he => turnOf?_of_isPlain he id

end Journal

/-- The encoder refuses a write. -/
def WireEntry.refusesData (e : WireEntry) : Bool :=
  match e.call with
  | .data _ _ _ endStream => !endStream && e.fault.isSome
  | _ => false

/-- The call reports the fate of a write. -/
def Call.isReport : Call → Bool
  | writeCompleted .. => true
  | _ => false

/-- The turn of a channel, as the list of the turns of any channel. -/
def turnFor (id : ChannelId) (on : Bool) (j : ChannelId) : List Bool := if j = id then [on] else []

namespace Connection

variable {strict roomy : Prop} {k : Cause} {c c' : Connection} {id j : ChannelId}
  {ch ch' : Channel} {s t : Stage}

theorem turns_addTask (c : Connection) (id : ChannelId) (on : Bool) (j : ChannelId) :
    (c.addTask (.reportWritability id on)).turns j = c.turns j ++ turnFor id on j := by
  rw [turns, turns, addTask]
  simp only [List.filterMap_append, List.append_assoc]
  congr 2
  rw [turnFor, List.filterMap_cons, Task.turnOf?]
  by_cases hj : j = id
  · simp [hj]
  · simp [hj, Ne.symm hj]

theorem turns_emit (c : Connection) (id : ChannelId) (on : Bool) (j : ChannelId)
    (hnone : j = id → c.tasks.filterMap (Task.turnOf? j) = []) :
    (c.emit id (.writability on)).turns j = c.turns j ++ turnFor id on j := by
  rw [turns, turns, turnFor, emit, note, Journal.turnsOf_push, Entry.turnOf?, Entry.reportOf?]
  by_cases hj : j = id
  · rw [if_pos hj.symm, if_pos hj, hnone hj]
    simp [Happening.turn?]
  · simp [hj, Ne.symm hj]

/-- The report of a turn does not overtake those that are put off. -/
theorem turns_reportWritable (c : Connection) (id j : ChannelId) :
    (c.reportWritable id).turns j = c.turns j ++ turnFor id true j := by
  rw [reportWritable]
  split
  · exact turns_addTask ..
  next hnone =>
    refine turns_emit c id true j ?_
    rintro rfl
    refine List.filterMap_eq_nil_iff.mpr fun t ht => ?_
    simp only [List.any_eq_true, not_exists, not_and] at hnone
    cases t with
    | tearDown => rfl
    | reportWritability i on =>
      have hi := hnone _ ht
      exact if_neg fun heq => hi (decide_eq_true heq)

end Connection

/-! ## Hysteresis -/

/-- The counter of an open channel is on the side of the watermarks that its bit tells.  The lower
one counts only where the connection has room whenever bytes are counted off. -/
structure Channel.Marked (config : Config) (roomy : Prop) (ch : Channel) : Prop where
  capped : ch.pendingBytes ≤ maxBytes
  high : ch.closed = false → ch.writable = true → ch.pendingBytes ≤ config.highWatermark
  low : roomy → ch.closed = false → ch.writable = false → config.lowWatermark ≤ ch.pendingBytes

/-- The second channel has not turned; if it is open, it counts what the first does. -/
structure Channel.Unturned (ch ch' : Channel) : Prop where
  writable : ch'.writable = ch.writable
  pendingBytes : ch'.pendingBytes ≤ ch.pendingBytes
  opened : ch'.closed = false → ch.closed = false ∧ ch'.pendingBytes = ch.pendingBytes

namespace Channel

variable {config : Config} {roomy : Prop} {ch ch' : Channel}

namespace Unturned

theorem of_core (h : ch'.core = ch.core) : ch.Unturned ch' where
  writable := congrArg Core.writable h
  pendingBytes := Nat.le_of_eq (congrArg Core.pendingBytes h)
  opened ho := ⟨(congrArg Core.closed h).symm.trans ho, congrArg Core.pendingBytes h⟩

theorem refl (ch : Channel) : ch.Unturned ch := .of_core rfl

theorem of_closed (hclosed : ch'.closed = true) (hwritable : ch'.writable = ch.writable)
    (hbytes : ch'.pendingBytes ≤ ch.pendingBytes) : ch.Unturned ch' :=
  ⟨hwritable, hbytes, fun ho => absurd (ho.symm.trans hclosed) (by decide)⟩

end Unturned

theorem Unturned.receive (ch : Channel) (item : Inbound) : ch.Unturned (ch.receive item) := by
  rw [Channel.receive]
  dsimp only
  split <;> exact ⟨rfl, Nat.le_refl _, fun ho => ⟨ho, rfl⟩⟩

namespace Marked

theorem unturned (h : ch.Marked config roomy) (hu : ch.Unturned ch') :
    ch'.Marked config roomy where
  capped := Nat.le_trans hu.pendingBytes h.capped
  high ho hw := by
    obtain ⟨ho, hbytes⟩ := hu.opened ho
    rw [hbytes]
    exact h.high ho (hu.writable ▸ hw)
  low hr ho hw := by
    obtain ⟨ho, hbytes⟩ := hu.opened ho
    rw [hbytes]
    exact h.low hr ho (hu.writable ▸ hw)

/-- Bytes are counted, and the channel turns unwritable above the high watermark. -/
theorem addPending (h : ch.Marked config roomy)
    (hmarks : config.lowWatermark ≤ config.highWatermark) (size : Nat) :
    (ch.addPending size config.highWatermark).1.Marked config roomy := by
  obtain ⟨hcapped, hhigh, hlow⟩ := h
  refine ⟨Nat.min_le_right .., ?_, ?_⟩
  · intro ho hw
    simp only [Channel.addPending, Bool.and_eq_true, Bool.not_eq_true', Bool.and_eq_false_iff,
      decide_eq_false_iff_not] at ho hw ⊢
    have hle := hhigh ho hw.1
    rcases hw.2 with (hnot | hnot) | hnot
    · exact absurd hle hnot
    · omega
    · exact absurd (hw.1.symm.trans hnot) (by decide)
  · intro hr ho hw
    simp only [Channel.addPending, Bool.and_eq_false_iff, Bool.not_eq_false', Bool.and_eq_true,
      decide_eq_true_eq] at ho hw ⊢
    rcases hw with hw | ⟨⟨-, hover⟩, -⟩
    · have hle := hlow hr ho hw
      omega
    · omega

/-- Bytes are counted off, and the channel turns writable below the low watermark, if the connection
has room. -/
theorem subPending (h : ch.Marked config roomy)
    (hmarks : config.lowWatermark ≤ config.highWatermark) (size : Nat) {room : Bool}
    (hroom : roomy → room = true) :
    (ch.subPending size config.lowWatermark room).1.Marked config roomy := by
  obtain ⟨hcapped, hhigh, hlow⟩ := h
  refine ⟨Nat.le_trans (Nat.sub_le ..) hcapped, ?_, ?_⟩
  · intro ho hw
    simp only [Channel.subPending, Bool.or_eq_true, Bool.and_eq_true, decide_eq_true_eq] at ho hw ⊢
    rcases hw with hw | ⟨⟨⟨-, hunder⟩, -⟩, -⟩
    · exact Nat.le_trans (Nat.sub_le ..) (hhigh ho hw)
    · omega
  · intro hr ho hw
    simp only [Channel.subPending, Bool.or_eq_false_iff, hroom hr] at ho hw ⊢
    have hle := hlow hr ho hw.1
    simp only [hw.1, hle, decide_true, Bool.true_and, Bool.and_true, Bool.not_false,
      decide_eq_false_iff_not, true_and] at hw
    omega

theorem recover (h : ch.Marked config roomy)
    (hmarks : config.lowWatermark ≤ config.highWatermark) :
    (ch.recover config.lowWatermark).1.Marked config roomy := by
  obtain ⟨hcapped, hhigh, hlow⟩ := h
  refine ⟨hcapped, ?_, ?_⟩
  · intro ho hw
    simp only [Channel.recover, Bool.or_eq_true, Bool.and_eq_true, decide_eq_true_eq] at ho hw ⊢
    rcases hw with hw | ⟨hunder, -⟩
    · exact hhigh ho hw
    · omega
  · intro hr ho hw
    simp only [Channel.recover, Bool.or_eq_false_iff] at ho hw ⊢
    exact hlow hr ho hw.1

end Marked

end Channel

namespace Connection

variable {config : Config} {strict roomy : Prop} {k : Cause} {c c' d : Connection}
  {id j : ChannelId} {ch ch' : Channel} {s t : Stage}

/-- What holds of the turns of all channels at any time. -/
structure Turning (config : Config) (roomy : Prop) (c : Connection) : Prop where
  same : c.config = config
  alternate : ∀ id, ∃ n, c.turns id = alternating n
  bit : ∀ id ch, c.channels.get? id = some ch → ch.writable = (c.turns id).getLast?.getD true
  marked : ∀ id ch, c.channels.get? id = some ch → ch.Marked config roomy
  ordered : c.tasks.Pairwise fun t u => ∀ id, t = .tearDown id → u.turnOf? id = none
  gone : ∀ id, c.channels.get? id = none → c.tasks.filterMap (Task.turnOf? id) = []
  unmade : ∀ id, c.nextChannel ≤ id → c.turns id = []

namespace Turning

/-- No channel turns, and nothing is put off but the removal of channels. -/
theorem of_unturned (h : Turning config roomy c) (hconfig : c'.config = c.config)
    (hnext : c.nextChannel ≤ c'.nextChannel)
    (hturns : ∀ id, c'.journal.turnsOf id = c.journal.turnsOf id)
    (hreports : ∀ id, c'.tasks.filterMap (Task.turnOf? id) = c.tasks.filterMap (Task.turnOf? id))
    (hordered : c'.tasks.Pairwise fun t u => ∀ id, t = .tearDown id → u.turnOf? id = none)
    (hchannels : c.channels.Matches Channel.Unturned c'.channels) : Turning config roomy c' := by
  have hsame (id : ChannelId) : c'.turns id = c.turns id := by
    rw [turns, turns, hturns, hreports]
  exact
    { same := hconfig.trans h.same
      alternate := fun id => hsame id ▸ h.alternate id
      bit := by
        intro id ch' hch'
        obtain ⟨ch, hch, hunturned⟩ := hchannels.back hch'
        rw [hsame, hunturned.writable]
        exact h.bit id ch hch
      marked := by
        intro id ch' hch'
        obtain ⟨ch, hch, hunturned⟩ := hchannels.back hch'
        exact (h.marked id ch hch).unturned hunturned
      ordered := hordered
      gone := by
        intro id hnone
        rw [hreports]
        refine h.gone id (Option.eq_none_iff_forall_ne_some.mpr fun ch hch => ?_)
        obtain ⟨ch', hch', -⟩ := hchannels.forth hch
        rw [hnone] at hch'
        cases hch'
      unmade := fun id hid => (hsame id).trans (h.unmade id (Nat.le_trans hnext hid)) }

/-- The same, where nothing is put off at all. -/
theorem quiet (h : Turning config roomy c) (hconfig : c'.config = c.config)
    (hnext : c.nextChannel ≤ c'.nextChannel)
    (hturns : ∀ id, c'.journal.turnsOf id = c.journal.turnsOf id) (htasks : c'.tasks = c.tasks)
    (hchannels : c.channels.Matches Channel.Unturned c'.channels) : Turning config roomy c' :=
  h.of_unturned hconfig hnext hturns (fun _ => by rw [htasks]) (htasks ▸ h.ordered) hchannels

/-- One channel may turn, and then the turn is reported or put off. -/
theorem of_one (h : Turning config roomy c) (ht : c.Tidy) (hch : c.channels.get? id = some ch)
    (ho : ch.closed = false) (on : Bool) (hchannels : c'.channels = c.channels.insert id ch')
    (hmarked : ch'.Marked config roomy) (hconfig : c'.config = c.config)
    (hnext : c'.nextChannel = c.nextChannel)
    (htasks : c'.tasks = c.tasks ∨ c'.tasks = c.tasks ++ [.reportWritability id on])
    (hturn : ch'.writable = ch.writable ∧ (∀ j, c'.turns j = c.turns j) ∨
      ch'.writable = on ∧ ch.writable = !on ∧ ∀ j, c'.turns j = c.turns j ++ turnFor id on j) :
    Turning config roomy c' := by
  have hother {j : ChannelId} (hj : j ≠ id) : c'.turns j = c.turns j := by
    rcases hturn with ⟨-, hturns⟩ | ⟨-, -, hturns⟩
    · exact hturns j
    · rw [hturns, turnFor, if_neg hj, List.append_nil]
  have hothers {j : ChannelId} (hj : j ≠ id) :
      c'.tasks.filterMap (Task.turnOf? j) = c.tasks.filterMap (Task.turnOf? j) := by
    rcases htasks with heq | heq
    · rw [heq]
    · rw [heq, List.filterMap_append, List.filterMap_cons, Task.turnOf?, if_neg (Ne.symm hj)]
      exact List.append_nil _
  refine
    { same := hconfig.trans h.same
      alternate := ?_
      bit := ?_
      marked := ?_
      ordered := ?_
      gone := ?_
      unmade := ?_ }
  · intro j
    obtain ⟨n, hn⟩ := h.alternate j
    by_cases hj : j = id
    · subst hj
      rcases hturn with ⟨-, hturns⟩ | ⟨-, hwas, hturns⟩
      · exact ⟨n, (hturns j).trans hn⟩
      · refine ⟨n + 1, ?_⟩
        rw [hturns, turnFor, if_pos rfl, hn]
        exact alternating_append (by rw [← hn, ← h.bit j ch hch, hwas])
    · exact ⟨n, (hother hj).trans hn⟩
  · intro j d hd
    rw [hchannels, Table.get?_insert] at hd
    split at hd
    next hj =>
      obtain rfl := Option.some.inj hd
      subst hj
      rcases hturn with ⟨hsame, hturns⟩ | ⟨hnow, -, hturns⟩
      · rw [hturns, hsame]
        exact h.bit j ch hch
      · rw [hturns, turnFor, if_pos rfl, List.getLast?_concat, hnow, Option.getD_some]
    next hj =>
      rw [hother hj]
      exact h.bit j d hd
  · intro j d hd
    rw [hchannels] at hd
    rcases Table.get?_insert_cases hd with ⟨-, rfl⟩ | hd
    · exact hmarked
    · exact h.marked j d hd
  · rcases htasks with heq | heq
    · exact heq ▸ h.ordered
    · rw [heq, List.pairwise_append]
      refine ⟨h.ordered, List.pairwise_singleton _ _, ?_⟩
      intro t htask u hu j heq
      subst heq
      rw [List.mem_singleton.mp hu, Task.turnOf?]
      refine if_neg ?_
      rintro rfl
      exact absurd (ho.symm.trans ((ht.doomed htask).2 ch hch)) (by decide)
  · intro j hnone
    rw [hchannels, Table.get?_insert] at hnone
    split at hnone
    next => cases hnone
    next hj => rw [hothers hj, h.gone j hnone]
  · intro j hj
    rw [hnext] at hj
    have hne : j ≠ id := Nat.ne_of_gt (Nat.lt_of_lt_of_le (ht.numbered hch) hj)
    rw [hother hne, h.unmade j hj]

/-- A channel that was open may turn writable. -/
theorem reportIf (h : Turning config roomy c) (ht : c.Tidy) (hch : c.channels.get? id = some ch)
    (ho : ch.closed = false) {d : Connection} {turns : Bool}
    (hchannels : d.channels = c.channels.insert id ch') (hmarked : ch'.Marked config roomy)
    (hconfig : d.config = c.config) (hnext : d.nextChannel = c.nextChannel)
    (hjournal : d.journal = c.journal) (htasks : d.tasks = c.tasks)
    (hwritable : ch'.writable = (ch.writable || turns))
    (hwas : turns = true → ch.writable = false) :
    Turning config roomy (d.reportIf id turns) := by
  have hsame (j : ChannelId) : d.turns j = c.turns j := by
    rw [Connection.turns, hjournal, htasks]
    rfl
  obtain ⟨_, _, heq, hreported, -⟩ := reportIf_eq d id turns
  rw [htasks] at hreported
  refine h.of_one ht hch ho true (by rw [heq]; exact hchannels) hmarked
    (by rw [heq]; exact hconfig) (by rw [heq]; exact hnext) (by rw [heq]; exact hreported) ?_
  cases turns with
  | false => exact .inl ⟨hwritable.trans (Bool.or_false _), hsame⟩
  | true =>
    refine .inr ⟨hwritable.trans (Bool.or_true _), hwas rfl, fun j => ?_⟩
    rw [← hsame j]
    exact turns_reportWritable d id j

theorem made (h : Turning config roomy c)
    (hchannels : c'.channels = c.channels.insert c.nextChannel ch) (hwritable : ch.writable = true)
    (hbytes : ch.pendingBytes = 0) (hconfig : c'.config = c.config)
    (hnext : c'.nextChannel = c.nextChannel + 1)
    (hturns : ∀ id, c'.journal.turnsOf id = c.journal.turnsOf id) (htasks : c'.tasks = c.tasks) :
    Turning config roomy c' := by
  have hsame (id : ChannelId) : c'.turns id = c.turns id := by rw [turns, turns, hturns, htasks]
  have hnew : ch.Marked config roomy := by
    refine ⟨hbytes ▸ Nat.zero_le _, fun _ _ => hbytes ▸ Nat.zero_le _, fun _ _ hw => ?_⟩
    exact absurd (hw.symm.trans hwritable) (by decide)
  refine
    { same := hconfig.trans h.same
      alternate := fun id => hsame id ▸ h.alternate id
      bit := ?_
      marked := ?_
      ordered := htasks ▸ h.ordered
      gone := ?_
      unmade := ?_ }
  · intro id d hd
    rw [hsame]
    rw [hchannels] at hd
    rcases Table.get?_insert_cases hd with ⟨rfl, rfl⟩ | hd
    · rw [h.unmade c.nextChannel (Nat.le_refl _), hwritable]
      rfl
    · exact h.bit id d hd
  · intro id d hd
    rw [hchannels] at hd
    rcases Table.get?_insert_cases hd with ⟨-, rfl⟩ | hd
    · exact hnew
    · exact h.marked id d hd
  · intro id hnone
    rw [hchannels, Table.get?_insert] at hnone
    split at hnone
    next => cases hnone
    next => rw [htasks, h.gone id hnone]
  · intro id hid
    rw [hnext] at hid
    rw [hsame, h.unmade id (Nat.le_of_succ_le hid)]

/-- A write is accepted, and its channel may turn unwritable. -/
theorem takenUp (h : Turning config roomy c) (ht : c.Tidy)
    (hmarks : config.lowWatermark ≤ config.highWatermark) (hch : c.channels.get? id = some ch)
    (ho : ch.closed = false) (size : Nat) :
    Turning config roomy ((c.issue .held).2.countBytes id ch size) := by
  have hmarked : (ch.addPending size c.config.highWatermark).1.Marked config roomy := by
    rw [h.same]
    exact (h.marked id ch hch).addPending hmarks size
  have hsame (j : ChannelId) : { (c.issue .held).2 with
      channels := c.channels.insert id (ch.addPending size c.config.highWatermark).1 }.turns j =
        c.turns j := rfl
  rw [countBytes]
  dsimp only
  split
  next hturns =>
    have hwas : ch.writable = true := by
      simp only [Channel.addPending, Bool.and_eq_true] at hturns
      exact hturns.2
    have hnow : (ch.addPending size c.config.highWatermark).1.writable = false := by
      change (ch.writable && !(ch.addPending size c.config.highWatermark).2) = false
      rw [show (ch.addPending size c.config.highWatermark).2 = true from hturns, hwas]
      rfl
    exact h.of_one ht hch ho false rfl hmarked rfl rfl (.inr rfl)
      (.inr ⟨hnow, hwas, fun j => (turns_addTask ..).trans (congrArg (· ++ _) (hsame j))⟩)
  next hturns =>
    have hnow : (ch.addPending size c.config.highWatermark).1.writable = ch.writable := by
      change (ch.writable && !(ch.addPending size c.config.highWatermark).2) = ch.writable
      rw [show (ch.addPending size c.config.highWatermark).2 = false from
        Bool.not_eq_true _ ▸ hturns]
      exact Bool.and_true _
    exact h.of_one ht hch ho false rfl hmarked rfl rfl (.inl rfl) (.inl ⟨hnow, hsame⟩)

/-- The fate of a write of an open channel is known. -/
theorem settled (h : Turning config roomy c) (ht : c.Tidy)
    (hmarks : config.lowWatermark ≤ config.highWatermark) {w : Inflight}
    (hch : c.channels.get? w.channel = some ch) (ho : ch.closed = false)
    (hroom : roomy → c.isWritable = true) (write : WriteId) (fault : Option WriteFault) :
    Turning config roomy (c.settleWrite write w fault) := by
  have hmarked : (ch.subPending w.size c.config.lowWatermark c.isWritable).1.Marked config
      roomy := by
    rw [h.same]
    exact (h.marked _ ch hch).subPending hmarks w.size hroom
  rw [settleWrite_exact write hch]
  refine h.reportIf ht hch ho rfl hmarked rfl rfl rfl rfl rfl ?_
  intro hturns
  simp only [Channel.subPending, Bool.and_eq_true, Bool.not_eq_true'] at hturns
  exact hturns.2

theorem recovered (h : Turning config roomy c) (ht : c.Tidy)
    (hmarks : config.lowWatermark ≤ config.highWatermark) (hch : c.channels.get? id = some ch)
    (ho : ch.closed = false) : Turning config roomy (c.recoverChannel id) := by
  have hmarked : (ch.recover c.config.lowWatermark).1.Marked config roomy := by
    rw [h.same]
    exact (h.marked id ch hch).recover hmarks
  rw [recoverChannel_exact hch]
  refine h.reportIf ht hch ho rfl hmarked rfl rfl rfl rfl rfl ?_
  intro hturns
  simp only [Channel.recover, Bool.and_eq_true, Bool.not_eq_true'] at hturns
  exact hturns.2

theorem tornDown (h : Turning config roomy c) {tasks : List Task}
    (htask : c.tasks = .tearDown id :: tasks) :
    Turning config roomy { c with tasks := tasks, channels := c.channels.erase id } := by
  have hordered := h.ordered
  rw [htask, List.pairwise_cons] at hordered
  have hreports (j : ChannelId) :
      tasks.filterMap (Task.turnOf? j) = c.tasks.filterMap (Task.turnOf? j) := by rw [htask]; rfl
  have hsame (j : ChannelId) :
      { c with tasks := tasks, channels := c.channels.erase id }.turns j = c.turns j := by
    rw [turns, turns, hreports]
  refine
    { same := h.same
      alternate := fun j => hsame j ▸ h.alternate j
      bit := ?_
      marked := ?_
      ordered := hordered.2
      gone := ?_
      unmade := fun j hj => (hsame j).trans (h.unmade j hj) }
  · intro j d hd
    rw [hsame]
    exact h.bit j d (Table.get?_of_erase hd)
  · intro j d hd
    exact h.marked j d (Table.get?_of_erase hd)
  · intro j hnone
    rw [Table.get?_erase] at hnone
    split at hnone
    next hj =>
      -- Whatever of the channel was put off was put off before its removal.
      refine List.filterMap_eq_nil_iff.mpr fun t ht => ?_
      exact hordered.1 t ht j (by rw [hj])
    next => rw [hreports, h.gone j hnone]

/-- A report that was put off is made. -/
theorem turned (h : Turning config roomy c) {on : Bool} {tasks : List Task}
    (htask : c.tasks = .reportWritability id on :: tasks) :
    Turning config roomy
      { c with tasks := tasks, journal := c.journal.push (.event ⟨id, .writability on⟩) } := by
  have hsame (j : ChannelId) : { c with
      tasks := tasks, journal := c.journal.push (.event ⟨id, .writability on⟩) }.turns j =
        c.turns j := by
    rw [turns, turns, Journal.turnsOf_push, htask, Entry.turnOf?, Entry.reportOf?,
      List.append_assoc]
    congr 1
    by_cases hj : id = j
    · simp [hj, Happening.turn?, Task.turnOf?]
    · simp [hj, Task.turnOf?]
  have hordered := h.ordered
  rw [htask, List.pairwise_cons] at hordered
  refine
    { same := h.same
      alternate := fun j => hsame j ▸ h.alternate j
      bit := fun j d hd => (h.bit j d hd).trans (by rw [hsame])
      marked := h.marked
      ordered := hordered.2
      gone := ?_
      unmade := fun j hj => (hsame j).trans (h.unmade j hj) }
  intro j hnone
  have hgone := h.gone j hnone
  rw [htask, List.filterMap_eq_nil_iff] at hgone
  exact List.filterMap_eq_nil_iff.mpr fun t ht => hgone t (List.mem_cons_of_mem _ ht)

theorem ended (h : Turning config roomy c) (hch : c.channels.get? id = some ch)
    {es : List Entry} (hes : ch.FailedStart id es) (he : Ended c id ch es c') :
    Turning config roomy c' := by
  have hsilent : ∀ j, es.filterMap (Entry.turnOf? j) = [] := by
    intro j
    cases hes <;> rfl
  obtain ⟨ch', hchannels, hover⟩ := he.channels
  refine h.of_unturned he.config (Nat.le_of_eq he.nextChannel.symm) ?_ ?_ ?_ ?_
  · intro j
    rw [Journal.turnsOf_of_plain he.journal, Journal.turnsOf_eq, Journal.turnsOf_eq,
      List.filterMap_append, hsilent, List.append_nil]
  · intro j
    rw [he.tasks, List.filterMap_append]
    exact List.append_nil _
  · rw [he.tasks, List.pairwise_append]
    refine ⟨h.ordered, List.pairwise_singleton _ _, fun t _ u hu j _ => ?_⟩
    rw [List.mem_singleton.mp hu]
    rfl
  · rw [hchannels]
    exact .insert .refl hch (.of_closed hover.closed hover.writable hover.pendingBytes)

/-- The encoder refuses a write of an open channel. -/
theorem bounced (h : Turning config roomy c) (ht : c.Tidy)
    (hmarks : config.lowWatermark ≤ config.highWatermark) {w : LooseWrite}
    (hch : c.channels.get? w.channel = some ch) (ho : ch.closed = false) {e : WireEntry}
    (hd : d = { c.enterWrite w.channel w.payload w.ticket with
      journal := c.journal.push (.wire (some w.channel) e) }) (write : WriteId) {v : Inflight}
    (hv : v.channel = w.channel) (fault : Option WriteFault)
    (hroom : roomy → c.journal.wire ++ [e] <+: (d.settleWrite write v fault).journal.wire →
      c.encoder.writable (c.journal.wire ++ [e]) = true) :
    Turning config roomy (d.settleWrite write v fault) := by
  have hwire : d.journal.wire = c.journal.wire ++ [e] := by rw [hd]; exact Journal.wire_push ..
  have hentered : Turning config roomy d := by
    rw [hd]
    exact h.quiet rfl (Nat.le_refl _) (fun _ => Journal.turnsOf_wire ..) rfl (.refl .refl _)
  have ht' : d.Tidy := by
    rw [hd]
    exact ht.of_eq rfl (Nat.le_refl _) fun _ ht => ht
  refine hentered.settled ht' hmarks (by rw [hd, hv]; exact hch) ho ?_ write fault
  intro hr
  have hroom := hroom hr (hwire ▸ (beside_settleWrite d write v fault).journal.wire)
  rw [isWritable, hwire, hd]
  exact hroom

/-- Every step keeps the turns in order.  Where the low watermark is to count, the connection has to
have room when the fate of a write is reported and when the encoder refuses one. -/
theorem coreStep (h : Turning config roomy s.conn) (ht : s.conn.Tidy)
    (hmarks : config.lowWatermark ≤ config.highWatermark)
    (howned : ∀ w e, k.conn.inflight.get? w = some e → k.conn.isOpen e.channel = true)
    (hsettled : roomy → k.call.isReport = true → k.conn.isWritable = true)
    (hbounced : roomy → ∀ e, s.conn.journal.wire ++ [e] <+: t.conn.journal.wire →
      e.refusesData = true → s.conn.encoder.writable (s.conn.journal.wire ++ [e]) = true)
    (hs : CoreStep strict k s t) : Turning config roomy t.conn := by
  cases hs with
  | plain ws hp =>
    exact h.quiet hp.config (Nat.le_of_eq hp.nextChannel.symm) (Journal.turnsOf_of_plain hp.journal)
      hp.tasks (hp.channels fun _ _ => .of_core)
  | asked path subprotocol =>
    rw [addAsking_eq]
    exact h.made rfl rfl rfl rfl rfl (fun _ => rfl) rfl
  | requested block ws hch =>
    refine h.quiet rfl (Nat.le_refl _) ?_ rfl
      (.insert .refl hch ⟨rfl, Nat.le_refl _, fun ho => ⟨ho, rfl⟩⟩)
    intro id
    rw [Journal.turnsOf_wire, Journal.turnsOf_wire]
  | enrolled => exact h.made rfl rfl rfl rfl rfl (fun _ => Journal.turnsOf_wire ..) rfl
  | turnedAway =>
    exact h.quiet rfl (Nat.le_succ _) (fun _ => Journal.turnsOf_wire ..) rfl (.refl .refl _)
  | weightCached weight ws hch =>
    exact h.quiet rfl (Nat.le_refl _) (fun _ => rfl) rfl
      (.insert .refl hch ⟨rfl, Nat.le_refl _, fun ho => ⟨ho, rfl⟩⟩)
  | received item ws hch =>
    exact h.quiet rfl (Nat.le_refl _) (fun _ => rfl) rfl (.insert .refl hch (.receive _ item))
  | handed ws hch =>
    exact h.quiet rfl (Nat.le_refl _) (fun _ => Journal.turnsOf_report ..) rfl
      (.insert .refl hch ⟨rfl, Nat.le_refl _, fun ho => ⟨ho, rfl⟩⟩)
  | takenUp _ _ hch ho => exact h.takenUp ht hmarks hch ho _
  | parked hch =>
    exact h.quiet rfl (Nat.le_refl _) (fun _ => rfl) rfl
      (.insert .refl hch ⟨rfl, Nat.le_refl _, fun ho => ⟨ho, rfl⟩⟩)
  | unparked subprotocol compression hch =>
    rw [markComplete, Table.modify_eq_insert hch]
    exact h.quiet rfl (Nat.le_refl _) (fun _ => rfl) rfl
      (.insert .refl hch ⟨rfl, Nat.le_refl _, fun ho => ⟨ho, rfl⟩⟩)
  | sent hch ho =>
    exact h.quiet rfl (Nat.le_refl _) (fun _ => Journal.turnsOf_wire ..) rfl (.refl .refl _)
  | bounced f hch ho =>
    exact h.bounced ht hmarks hch ho rfl _ rfl _ fun hr hprefix => hbounced hr _ hprefix rfl
  | @settled c write w fault ws hk hw =>
    subst hk
    obtain ⟨ch, hch, ho⟩ := isOpen_iff.mp (howned write w hw)
    exact h.settled ht hmarks hch ho (fun hr => hsettled hr rfl) write fault
  | recovered ws hch ho => exact h.recovered ht hmarks hch ho
  | ended ws hch _ hes he => exact h.ended hch hes he
  | gaveUp cause ws hch hclosed =>
    rw [failParked_eq hch]
    exact h.quiet rfl (Nat.le_refl _) (fun _ => rfl) rfl
      (.insert .refl hch (.of_closed hclosed rfl (Nat.sub_le ..)))
  | dropped | inflightLost | missed =>
    exact h.quiet rfl (Nat.le_refl _) (fun _ => rfl) rfl (.refl .refl _)
  | cleared =>
    exact h.quiet rfl (Nat.le_refl _) (fun _ => Journal.turnsOf_wire ..) rfl (.refl .refl _)
  | turned ws htask => exact h.turned htask
  | @unheard c id on tasks ws htask hgone =>
    -- The report would have been put off behind the removal of its channel.
    have hnone : c.channels.get? id = none := by simpa [Table.contains] using hgone
    have hreports := h.gone id hnone
    rw [htask, List.filterMap_cons, Task.turnOf?, if_pos rfl] at hreports
    cases hreports
  | tornDown ws htask => exact h.tornDown htask

end Turning

/-! ## Runs -/

/-- The connection has room whenever the fate of a write becomes known in the course of the call:
when the call reports it, and when the encoder refuses a write. -/
def Roomy (c : Connection) (k : Call) : Prop :=
  (k.isReport = true → c.isWritable = true) ∧
    ∀ n < (c.after k).journal.wire.length, c.journal.wire.length ≤ n →
      (c.after k).journal.wire[n]?.any WireEntry.refusesData = true →
        c.encoder.writable ((c.after k).journal.wire.take (n + 1)) = true

instance (c : Connection) (k : Call) : Decidable (c.Roomy k) :=
  inferInstanceAs (Decidable (_ ∧ _))

def RoomyRun : Connection → List Call → Prop
  | _, [] => True
  | c, k :: ks => c.Roomy k ∧ (c.after k).RoomyRun ks

instance instDecidableRoomyRun : (c : Connection) → (ks : List Call) → Decidable (c.RoomyRun ks)
  | _, [] => inferInstanceAs (Decidable True)
  | c, k :: ks =>
    have := instDecidableRoomyRun (c.after k) ks
    inferInstanceAs (Decidable (_ ∧ _))

theorem Roomy.refused {k : Call} (h : c.Roomy k) {log : List WireEntry} {e : WireEntry}
    (hfrom : c.journal.wire <+: log) (hto : log ++ [e] <+: (c.after k).journal.wire)
    (he : e.refusesData = true) : c.encoder.writable (log ++ [e]) = true := by
  obtain ⟨rest, hrest⟩ := hto
  have hlength : (log ++ [e]).length = log.length + 1 := List.length_append
  have hroom := h.2 log.length
  rw [← hrest, List.append_assoc, List.getElem?_append_right (Nat.le_refl _), ← List.append_assoc,
    ← hlength, List.take_left'] at hroom
  · refine hroom ?_ hfrom.length_le ?_
    · rw [List.length_append, hlength]
      omega
    · simpa using he
  · rfl

namespace Turning

theorem after (h : Turning config roomy c) (hc : c.Regular)
    (hmarks : config.lowWatermark ≤ config.highWatermark) {k : Call} (hroomy : roomy → c.Roomy k) :
    Turning config roomy (c.after k) := by
  by_cases hk : ∃ e, k = .setEncoder e
  · obtain ⟨e, rfl⟩ := hk
    exact h.quiet rfl (Nat.le_refl _) (fun _ => rfl) rfl (.refl .refl _)
  · -- Whatever the encoder has seen so far is a part of what it has seen in the end.
    have hall := CorePath.induction
      (P := fun u => u.conn.encoder = c.encoder ∧ c.journal.wire <+: u.conn.journal.wire ∧
        (u.conn.journal.wire <+: (c.after k).journal.wire → Turning config roomy u.conn)) ?_ hc.tidy
      (corePath_after hc.tidy k (False.elim : False → _))
      ⟨rfl, List.prefix_refl _, fun _ => h⟩
    · exact hall.2.2.2 (List.prefix_refl _)
    · intro u v hu hs ⟨hencoder, hfrom, hturning⟩
      have hwire := hs.history.wire
      refine ⟨(hs.encoder fun e he => hk ⟨e, he⟩).trans hencoder, hfrom.trans hwire, ?_⟩
      intro hto
      refine (hturning (hwire.trans hto)).coreStep hu hmarks hc.balanced.owned
        (fun hr => (hroomy hr).1) ?_ hs
      intro hr e he hrefuses
      rw [hencoder]
      exact (hroomy hr).refused hfrom (he.trans hto) hrefuses

theorem run (h : Turning config roomy c) (hc : c.Regular)
    (hmarks : config.lowWatermark ≤ config.highWatermark) {ks : List Call}
    (hroomy : roomy → c.RoomyRun ks) : Turning config roomy (c.run ks) := by
  induction ks generalizing c with
  | nil => exact h
  | cons k ks ih =>
    exact ih (h.after hc hmarks fun hr => (hroomy hr).1) (hc.after k) fun hr => (hroomy hr).2

end Turning

theorem turning_start {config : Config} {encoder : Encoder} (h : start config encoder = .ok c) :
    Turning config roomy c := by
  rw [(start_eq h).1]
  exact
    { same := rfl
      alternate := fun _ => ⟨0, rfl⟩
      bit := fun _ _ hch => nomatch hch
      marked := fun _ _ hch => nomatch hch
      ordered := List.Pairwise.nil
      gone := fun _ _ => rfl
      unmade := fun _ _ => rfl }

/-! ## Recovery -/

/-- A channel that is below the low watermark is writable. -/
def Recovered (c : Connection) (id : ChannelId) : Prop :=
  ∀ ch, c.channels.get? id = some ch → ch.pendingBytes < c.config.lowWatermark → ch.writable = true

theorem recovered_recoverChannel (h : j = id ∨ c.Recovered j) :
    (c.recoverChannel id).Recovered j := by
  cases hch : c.channels.get? id with
  | none =>
    rw [recoverChannel_of_none hch]
    refine h.elim ?_ fun h => h
    rintro rfl ch' hch'
    rw [hch] at hch'
    cases hch'
  | some ch =>
    obtain ⟨_, _, heq, -⟩ := recoverChannel_eq hch
    rw [heq]
    intro d hd hunder
    rw [Table.get?_insert] at hd
    split at hd
    next =>
      obtain rfl := Option.some.inj hd
      simp only [Channel.recover] at hunder ⊢
      cases hw : ch.writable <;> simp [hunder]
    next hj => exact h.resolve_left hj d hd hunder

theorem recovered_foldl (ids : List ChannelId) (c : Connection) (h : j ∈ ids ∨ c.Recovered j) :
    (ids.foldl recoverChannel c).Recovered j := by
  induction ids generalizing c with
  | nil => exact h.resolve_left List.not_mem_nil
  | cons id ids ih =>
    refine ih (c.recoverChannel id) ?_
    rcases h with h | h
    · exact (List.mem_cons.mp h).symm.imp_right fun hj => recovered_recoverChannel (.inl hj)
    · exact .inr (recovered_recoverChannel (.inr h))

theorem isOpen_foldl_recoverChannel (ids : List ChannelId) (c : Connection) (j : ChannelId) :
    (ids.foldl recoverChannel c).isOpen j = c.isOpen j := by
  induction ids generalizing c with
  | nil => rfl
  | cons id ids ih => rw [List.foldl_cons, ih, isOpen_recoverChannel]

/-- The turns of a channel alternate at any time of a run, whether they were reported or are put
off, and the last one is the channel's bit.  An open channel that is writable is not above the high
watermark, and one that is not is not below the low one, if the connection had room whenever the
fate of a write became known.  Once the connection has room again, every open channel below the low
watermark is writable. -/
theorem turns_alternate_within_watermarks {config : Config} {encoder : Encoder} {c : Connection}
    (h : start config encoder = .ok c) (ks : List Call) :
    (∀ id, ∃ n, (c.run ks).turns id = alternating n) ∧
    (∀ id ch, (c.run ks).channels.get? id = some ch →
      ch.writable = ((c.run ks).turns id).getLast?.getD true ∧
      (ch.closed = false → ch.writable = true → ch.pendingBytes ≤ config.highWatermark) ∧
      (c.RoomyRun ks → ch.closed = false → ch.writable = false →
        config.lowWatermark ≤ ch.pendingBytes)) ∧
    (∀ id ch, ((c.run ks).after (.writabilityChanged true)).channels.get? id = some ch →
      ch.closed = false → ch.pendingBytes < config.lowWatermark → ch.writable = true) := by
  have hmarks := (Config.validate_eq_ok_iff.mp (start_eq h).2).2.1
  have hregular := Regular.of_start h
  have hturning : Turning config (c.RoomyRun ks) (c.run ks) :=
    (turning_start h).run hregular hmarks fun hr => hr
  refine ⟨hturning.alternate, ?_, ?_⟩
  · intro id ch hch
    have hmarked := hturning.marked id ch hch
    exact ⟨hturning.bit id ch hch, hmarked.high, hmarked.low⟩
  · intro id ch hch ho hunder
    have hopen : (c.run ks).isOpen id = true := by
      rw [← isOpen_foldl_recoverChannel (c.run ks).openChannels]
      exact isOpen_iff.mpr ⟨ch, hch, ho⟩
    have hrecovered : ((c.run ks).after (.writabilityChanged true)).Recovered id :=
      recovered_foldl _ _ (.inl (mem_openChannels.mpr (isOpen_iff.mp hopen)))
    have hconfig := config_run h (ks ++ [.writabilityChanged true])
    rw [run_append] at hconfig
    refine hrecovered ch hch (Nat.lt_of_lt_of_eq hunder ?_)
    exact (congrArg Config.lowWatermark hconfig).symm

/-- A write that passes the high watermark turns its channel, and the low one is not reached. -/
theorem passed_watermark_turns_channel :
    ∃ ch, ((fresh { lowWatermark := 1, highWatermark := 1 } .willing).run
        (Call.opening ++ [.write 1 [7, 7]])).channels.get? 1 = some ch ∧
      ch.writable = false ∧ 1 ≤ ch.pendingBytes := by
  have hlaws := (turns_alternate_within_watermarks
    (rfl : start { lowWatermark := 1, highWatermark := 1 } .willing =
      .ok (fresh { lowWatermark := 1, highWatermark := 1 } .willing))
    (Call.opening ++ [.write 1 [7, 7]])).2.1 1 _ (by rfl)
  exact ⟨_, rfl, hlaws.1.trans (by decide), hlaws.2.2 (by decide) (by decide) (by decide)⟩

end Connection

end ChannelMux
