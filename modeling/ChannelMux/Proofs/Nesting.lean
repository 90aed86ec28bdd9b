import ChannelMux.Proofs.Pump
import ChannelMux.Proofs.Supplies

/-!
# Nesting: the pump calls itself

Delivering a channel ends a read, the end of a read may drain the batch, and draining the batch
delivers channels.  The functions that read break this circle: while the batch is drained, a full
batch is not drained again, so they pass no means of doing so.  Here the circle is left whole.  A
`Job` is `Performs`ed by performing those that it calls for, whatever they are, and it is noted
whenever a drain of the batch begins (`Moment`); that a job ends, and how, is then something to
prove.  `Pump` carries this proof: it says that a drain begins in a batch that is not being drained,
and leaves it empty.
-/

namespace ChannelMux

/-- What there is for the pump to do. -/
inductive Job where
  /-- Deliver the queue of a channel. -/
  | drain (id : ChannelId)
  /-- Complete the read of a channel or let it wait. -/
  | complete (id : ChannelId)
  | drainBatch
  /-- Complete the reads that were taken out of the batch. -/
  | resume (ids : List ChannelId)
deriving DecidableEq, Repr

/-- What is noted while the pump is at work. -/
inductive Moment where
  /-- A drain of the batch begins; the flag says whether the batch is being drained already. -/
  | begun (draining : Bool)
  /-- The batch was full and has been drained, and a channel asks again whether it may wait. -/
  | askedAgain (answer : ReadBatch.Admission)
deriving DecidableEq, Repr

/-- Drains are not nested, and after a drain there is room. -/
def Moment.IsProper : Moment → Prop
  | begun draining => draining = false
  | askedAgain answer => answer = .queued

/-- The item that a frame brings for a channel, unless it breaks a rule. -/
def Frame.item? (ch : Channel) : Frame → Option Inbound
  | data _ payload padding endStream =>
    if ch.dataViolation? padding = none then some (.data payload endStream) else none
  | headers _ _ endStream =>
    if ch.handshake ≠ .requestSent ∧ endStream = true ∧ ch.inboundClosed = false then some .trailers
    else none
  | reset .. | priority .. | windowUpdate .. | unknown .. | settings _ | goAway .. => none

/-- What remains of a call when the pump is done. -/
def Call.leaves : Call → Connection → Connection
  | readCycleEnded, c => { c with reading := false }
  | _, c => c

namespace Connection

/-- The read of the channel is to wait, and there is no room in the batch. -/
def overflows (c : Connection) (id : ChannelId) : Bool :=
  ((c.channels.get? id).any fun ch => !(ch.closed || ch.batched) && (c.reading && 0 < ch.budget)) &&
    (c.batch.enqueue id).1 = .full

/-- The read of the channel waits to be completed. -/
def waits (c : Connection) (id : ChannelId) : Bool :=
  (c.channels.get? id).any fun ch => !(ch.closed || !ch.batched)

/-- After its read was completed, the channel wants to deliver more. -/
def isHungry (c : Connection) (id : ChannelId) : Bool :=
  (c.channels.get? id).any Channel.isHungry

/-- The end of a drain: nothing is left to flush. -/
def sweep (c : Connection) : Connection :=
  { c with
    batch := c.batch.finishDrain
    channels := c.channels.mapEntries fun _ => flushed }.flush

/-- A job is performed.  What was noted meanwhile comes with the connection afterwards, and an
answer: whether a read was completed, if that was the job. -/
inductive Performs : Job → Connection → List Moment → Bool → Connection → Prop
  /-- There is nothing to deliver. -/
  | nothing {c : Connection} {id : ChannelId} :
      (c.deliver id).1 = 0 → Performs (.drain id) c [] false (c.deliver id).2
  | once {c d : Connection} {id : ChannelId} {ms : List Moment} {b : Bool} :
      (c.deliver id).1 ≠ 0 → Performs (.complete id) (c.deliver id).2 ms b d →
      (b && d.wantsMore id) = false → Performs (.drain id) c ms false d
  | again {c d e : Connection} {id : ChannelId} {ms ns : List Moment} {b b' : Bool} :
      (c.deliver id).1 ≠ 0 → Performs (.complete id) (c.deliver id).2 ms b d →
      (b && d.wantsMore id) = true → Performs (.drain id) d ns b' e →
      Performs (.drain id) c (ms ++ ns) b' e
  /-- The batch need not be drained, so it does not matter how it would be. -/
  | completed {c : Connection} {id : ChannelId} :
      c.overflows id = false →
      Performs (.complete id) c [] (completeRead (fun c => c) c id).1
        (completeRead (fun c => c) c id).2
  | crowded {c d : Connection} {id : ChannelId} {ms : List Moment} {b : Bool} :
      c.overflows id = true → Performs .drainBatch c ms b d →
      Performs (.complete id) c (ms ++ [.askedAgain (d.batch.enqueue id).1])
        (completeRead (fun _ => d) c id).1 (completeRead (fun _ => d) c id).2
  | idle {c : Connection} :
      c.batch.queue = [] →
      Performs .drainBatch c [.begun c.batch.draining] false
        { c with batch := c.batch.beginDrain.2.finishDrain }
  | emptied {c d : Connection} {ms : List Moment} {b : Bool} :
      c.batch.queue ≠ [] →
      Performs (.resume c.batch.queue) { c with batch := c.batch.beginDrain.2 } ms b d →
      Performs .drainBatch c (.begun c.batch.draining :: ms) false d.sweep
  | done {c : Connection} : Performs (.resume []) c [] false c
  | passedOver {c d : Connection} {id : ChannelId} {ids : List ChannelId} {ms : List Moment}
      {b : Bool} :
      c.waits id = false → Performs (.resume ids) c ms b d → Performs (.resume (id :: ids)) c ms b d
  | satisfied {c d : Connection} {id : ChannelId} {ids : List ChannelId} {ms : List Moment}
      {b : Bool} :
      c.waits id = true → (c.fireReadComplete id).isHungry id = false →
      Performs (.resume ids) (c.fireReadComplete id) ms b d →
      Performs (.resume (id :: ids)) c ms b d
  | hungry {c d e : Connection} {id : ChannelId} {ids : List ChannelId} {ms ns : List Moment}
      {b b' : Bool} :
      c.waits id = true → (c.fireReadComplete id).isHungry id = true →
      Performs (.drain id) (c.fireReadComplete id) ms b d → Performs (.resume ids) d ns b' e →
      Performs (.resume (id :: ids)) c (ms ++ ns) b' e

variable {c d : Connection} {id : ChannelId} {ch : Channel} {job : Job}
variable {ms : List Moment} {b : Bool}

/-- There is one way at most to perform a job. -/
theorem Performs.unique (h : Performs job c ms b d) {ms' : List Moment} {b' : Bool}
    {d' : Connection} (h' : Performs job c ms' b' d') : ms' = ms ∧ b' = b ∧ d' = d := by
  induction h generalizing ms' b' d' with
  | nothing hn =>
    cases h' with
    | nothing => exact ⟨rfl, rfl, rfl⟩
    | once hn' | again hn' => exact absurd hn hn'
  | once hn _ hstops ih =>
    cases h' with
    | nothing hn' => exact absurd hn' hn
    | once _ hcomplete' =>
      obtain ⟨rfl, -, rfl⟩ := ih hcomplete'
      exact ⟨rfl, rfl, rfl⟩
    | again _ hcomplete' hgoes' =>
      obtain ⟨-, rfl, rfl⟩ := ih hcomplete'
      exact absurd (hstops.symm.trans hgoes') Bool.false_ne_true
  | again hn _ hgoes _ ih ihrest =>
    cases h' with
    | nothing hn' => exact absurd hn' hn
    | once _ hcomplete' hstops' =>
      obtain ⟨-, rfl, rfl⟩ := ih hcomplete'
      exact absurd (hstops'.symm.trans hgoes) Bool.false_ne_true
    | again _ hcomplete' _ hdrain' =>
      obtain ⟨rfl, -, rfl⟩ := ih hcomplete'
      obtain ⟨rfl, rfl, rfl⟩ := ihrest hdrain'
      exact ⟨rfl, rfl, rfl⟩
  | completed hroom =>
    cases h' with
    | completed => exact ⟨rfl, rfl, rfl⟩
    | crowded hfull' => exact absurd (hroom.symm.trans hfull') Bool.false_ne_true
  | crowded hfull _ ih =>
    cases h' with
    | completed hroom' => exact absurd (hroom'.symm.trans hfull) Bool.false_ne_true
    | crowded _ hdrain' =>
      obtain ⟨rfl, -, rfl⟩ := ih hdrain'
      exact ⟨rfl, rfl, rfl⟩
  | idle hnil =>
    cases h' with
    | idle => exact ⟨rfl, rfl, rfl⟩
    | emptied hne' => exact absurd hnil hne'
  | emptied hne _ ih =>
    cases h' with
    | idle hnil' => exact absurd hnil' hne
    | emptied _ hresume' =>
      obtain ⟨rfl, -, rfl⟩ := ih hresume'
      exact ⟨rfl, rfl, rfl⟩
  | done => cases h' with | done => exact ⟨rfl, rfl, rfl⟩
  | passedOver hskip _ ih =>
    cases h' with
    | passedOver _ hrest' => exact ih hrest'
    | satisfied hwaits' | hungry hwaits' =>
      exact absurd (hskip.symm.trans hwaits') Bool.false_ne_true
  | satisfied hwaits hfed _ ih =>
    cases h' with
    | passedOver hskip' => exact absurd (hskip'.symm.trans hwaits) Bool.false_ne_true
    | satisfied _ _ hrest' => exact ih hrest'
    | hungry _ hhungry' => exact absurd (hfed.symm.trans hhungry') Bool.false_ne_true
  | hungry hwaits hhungry _ _ ih ihrest =>
    cases h' with
    | passedOver hskip' => exact absurd (hskip'.symm.trans hwaits) Bool.false_ne_true
    | satisfied _ hfed' => exact absurd (hfed'.symm.trans hhungry) Bool.false_ne_true
    | hungry _ _ hdrain' hrest' =>
      obtain ⟨rfl, -, rfl⟩ := ih hdrain'
      obtain ⟨rfl, rfl, rfl⟩ := ihrest hrest'
      exact ⟨rfl, rfl, rfl⟩

/-! ## The functions that read -/

/-- How a full batch is drained matters to a read only if there is no room for it. -/
theorem completeRead_congr {f g : Connection → Connection}
    (h : c.overflows id = true → f c = g c) : completeRead f c id = completeRead g c id := by
  rw [completeRead, completeRead]
  split
  · rfl
  next ch hch =>
    split
    · rfl
    next hgo =>
      have hjoin (hwait : (c.reading && decide (0 < ch.budget)) = true) :
          joinBatch f c id = joinBatch g c id := by
        rcases enqueue_cases c.batch id with ⟨hq, -⟩ | ⟨hq, -⟩ | ⟨hq, -⟩
        · rw [joinBatch_of_queued hq, joinBatch_of_queued hq]
        · have hover : c.overflows id = true := by
            rw [overflows, hch, hq]
            simp only [Option.any_some, hwait, Bool.not_eq_true _ ▸ hgo]
            rfl
          simp only [joinBatch, hq, h hover, if_true]
        · rw [joinBatch_of_draining hq, joinBatch_of_draining hq]
      by_cases hwait : (c.reading && decide (0 < ch.budget)) = true
      · rw [if_pos hwait, if_pos hwait, hjoin hwait]
      · rw [if_neg hwait, if_neg hwait]

theorem overflows_of_draining (h : c.batch.draining = true) : c.overflows id = false := by
  rw [overflows, ReadBatch.enqueue, if_pos h]
  exact Bool.and_false _

/-- The job ends, and everything that is noted meanwhile is proper. -/
def EndsWell (job : Job) (c : Connection) (b : Bool) (d : Connection) : Prop :=
  ∃ ms, Performs job c ms b d ∧ ∀ m ∈ ms, m.IsProper

theorem EndsWell.of_nil (h : Performs job c [] b d) : EndsWell job c b d :=
  ⟨[], h, fun _ hm => absurd hm List.not_mem_nil⟩

theorem endsWell_of_room (h : c.overflows id = false) (f : Connection → Connection) :
    EndsWell (.complete id) c (completeRead f c id).1 (completeRead f c id).2 := by
  have hsame : completeRead f c id = completeRead (fun c => c) c id :=
    completeRead_congr fun hover => absurd (h.symm.trans hover) Bool.false_ne_true
  rw [hsame]
  exact .of_nil (.completed h)

section

variable {r draining : Bool} {waiting busy : List ChannelId} {f : Connection → Connection}

/-- Reads one after another end: each but the last delivers something. -/
theorem endsWell_readRounds (hp : Pump ⟨r, draining, waiting, id :: busy⟩ c)
    (hf : draining = false → Pump.Empties r waiting f) (hid : id ∉ waiting)
    (hcomplete : ∀ {c : Connection}, Pump ⟨r, draining, waiting, id :: busy⟩ c →
      EndsWell (.complete id) c (completeRead f c id).1 (completeRead f c id).2)
    (rounds : Nat) (hrounds : ∀ ch, c.channels.get? id = some ch → ch.inbound.length < rounds) :
    EndsWell (.drain id) c false (readRounds f id rounds c) := by
  induction rounds generalizing c with
  | zero =>
    have hnone : c.channels.get? id = none := by
      cases h : c.channels.get? id with
      | none => rfl
      | some ch => exact absurd (hrounds ch h) (Nat.not_lt_zero _)
    have hdeliver : c.deliver id = (0, c) := by rw [deliver, hnone]
    have hnothing : Performs (.drain id) c [] false (c.deliver id).2 :=
      .nothing (by rw [hdeliver])
    rw [hdeliver] at hnothing
    exact .of_nil hnothing
  | succ rounds ih =>
    obtain ⟨hdelivered, hafter⟩ := hp.deliver hid
    rw [readRounds]
    dsimp only
    split
    next hn => exact .of_nil (.nothing hn)
    next hn =>
      have hends := hcomplete hdelivered
      rcases hread : completeRead f (c.deliver id).2 id with ⟨b, c₂⟩
      rw [hread] at hends
      obtain ⟨ms, hms, hproper⟩ := hends
      obtain ⟨hp₂, hlast⟩ := hdelivered.completeRead hf (fun ch h => (hafter ch h).1) hread
      dsimp only at hms ⊢
      split
      next hgoes =>
        have hless : ∀ ch, c₂.channels.get? id = some ch → ch.inbound.length < rounds := by
          intro ch₂ h₂
          have hread := hlast ch₂ h₂
          rw [if_pos (Bool.and_eq_true _ _ ▸ hgoes).1] at hread
          obtain ⟨-, ch₁, h₁, heq⟩ := hread
          obtain ⟨-, ch, h, -, hlen⟩ := hafter ch₁ h₁
          have hlt := hrounds ch h
          rw [heq]
          omega
        obtain ⟨ns, hns, hproper'⟩ := ih hp₂ hless
        exact ⟨_, .again hn hms hgoes hns, List.forall_mem_append.mpr ⟨hproper, hproper'⟩⟩
      next hstops => exact ⟨ms, .once hn hms (Bool.not_eq_true _ ▸ hstops), hproper⟩

theorem length_lt_inboundSize (c : Connection) (id : ChannelId) :
    ∀ ch, c.channels.get? id = some ch → ch.inbound.length < c.inboundSize id + 1 := by
  intro ch h
  rw [inboundSize, h]
  exact Nat.lt_succ_self _

/-- While the batch is drained, no drain begins. -/
theorem endsWell_resume {ids : List ChannelId} (hp : Pump ⟨r, true, ids, busy⟩ c) :
    EndsWell (.resume ids) c false (ids.foldl resume c) := by
  induction ids generalizing c with
  | nil => exact .of_nil .done
  | cons id ids ih =>
    obtain ⟨ch, h, hb⟩ := (hp.mem_iff id).mp (List.mem_append_right _ List.mem_cons_self)
    have hwaits : c.waits id = true := by
      rw [waits, h]
      simp [hp.opened h hb, hb]
    have hid : id ∉ ids := (List.nodup_cons.mp (List.nodup_append.mp hp.nodup).2.1).1
    have hfired := hp.fireWaiting h
    rw [← fireReadComplete_eq h] at hfired
    have hresume : c.resume id = if (c.fireReadComplete id).isHungry id then
        drainWith (fun c => c) (c.fireReadComplete id) id else c.fireReadComplete id := by
      rw [resume, h]
      dsimp only
      rw [if_neg (by simp [hp.opened h hb, hb])]
      rfl
    obtain ⟨ns, hns, hproper'⟩ := ih hp.resume
    rw [List.foldl_cons]
    cases hhungry : (c.fireReadComplete id).isHungry id with
    | false =>
      rw [hresume, if_neg (by rw [hhungry]; decide)] at hns ⊢
      exact ⟨ns, .satisfied hwaits hhungry hns, hproper'⟩
    | true =>
      rw [hresume, if_pos hhungry] at hns ⊢
      obtain ⟨ms, hms, hproper⟩ := endsWell_readRounds (f := fun c => c) hfired
        (fun hdraining => absurd hdraining.symm Bool.false_ne_true) hid
        (fun hp => endsWell_of_room (overflows_of_draining hp.draining) _) _
        (length_lt_inboundSize _ id)
      exact ⟨_, .hungry hwaits hhungry hms hns, List.forall_mem_append.mpr ⟨hproper, hproper'⟩⟩

theorem endsWell_drainBatch (hp : Pump ⟨r, false, [], busy⟩ c) :
    EndsWell .drainBatch c false c.drainBatch := by
  have hbegun : Moment.IsProper (.begun c.batch.draining) := hp.draining
  rw [drainBatch]
  dsimp only
  split
  next hnil => exact ⟨_, .idle hnil, List.forall_mem_singleton.mpr hbegun⟩
  next hne =>
    obtain ⟨ms, hms, hproper⟩ := endsWell_resume hp.beginDrain
    exact ⟨_, .emptied hne hms, List.forall_mem_cons.mpr ⟨hbegun, hproper⟩⟩

/-- A full batch that is not being drained is drained, and then has room. -/
theorem endsWell_completeRead (hp : Pump ⟨r, false, [], busy⟩ c)
    (hdrain : EndsWell .drainBatch c false c.drainBatch) :
    EndsWell (.complete id) c (completeRead drainBatch c id).1
      (completeRead drainBatch c id).2 := by
  cases hover : c.overflows id with
  | false => exact endsWell_of_room hover drainBatch
  | true =>
    obtain ⟨ms, hms, hproper⟩ := hdrain
    obtain ⟨hp', hnil, -⟩ := Pump.empties_drainBatch hp
    have hroom : ¬ c.drainBatch.batch.capacity ≤ c.drainBatch.batch.queue.length := by
      rw [hnil]
      exact Nat.not_le_of_lt hp'.capacity
    have hanswer : (c.drainBatch.batch.enqueue id).1 = .queued := by
      rw [ReadBatch.enqueue, hp'.draining, if_neg Bool.false_ne_true, if_neg hroom]
    have hsame : completeRead drainBatch c id = completeRead (fun _ => c.drainBatch) c id :=
      completeRead_congr fun _ => rfl
    rw [hsame]
    exact ⟨_, .crowded hover hms,
      List.forall_mem_append.mpr ⟨hproper, List.forall_mem_singleton.mpr hanswer⟩⟩

theorem endsWell_drain (hp : Pump ⟨r, false, [], id :: busy⟩ c) :
    EndsWell (.drain id) c false (c.drain id) :=
  endsWell_readRounds hp (fun _ => Pump.empties_drainBatch) List.not_mem_nil
    (fun hp => endsWell_completeRead hp (endsWell_drainBatch hp)) _ (length_lt_inboundSize c id)

end

/-! ## Where a call enters the pump -/

/-- The channel for which a frame brings an item. -/
def brought? (c : Connection) (f : Frame) : Option (ChannelId × Channel × Inbound) :=
  match c.registry.get? f.stream with
  | some (.active id) =>
    match c.channels.get? id with
    | some ch => (f.item? ch).map fun item => (id, ch, item)
    | none => none
  | some .closed | none => none

/-- What a call has the pump do, and with which connection, if it reads. -/
def errand? (c : Connection) : Call → Option (Job × Connection)
  | .frame f =>
    match c.brought? f with
    | some (id, ch, item) =>
      if ch.demand = .idle then none
      else some (.drain id,
        { c with reading := true, channels := c.channels.insert id (ch.receive item) })
    | none => none
  | .readCycleEnded => some (.drainBatch, c)
  | .beginRead id =>
    match c.channels.get? id with
    | some ch =>
      if ch.closed = false ∧ ch.demand = .idle then
        some (.drain id, c.updateChannel id (·.requestRead c.config.messagesPerRead))
      else none
    | none => none
  | .setAutoRead id on =>
    match c.channels.get? id with
    | some ch =>
      if on = true ∧ ch.demand = .idle then
        some (.drain id,
          (c.updateChannel id fun ch => { ch with autoRead := true }).updateChannel id
            (·.requestRead c.config.messagesPerRead))
      else none
    | none => none
  | _ => none

/-! ### Frames -/

theorem brought?_eq_some {f : Frame} {item : Inbound} :
    c.brought? f = some (id, ch, item) ↔ c.registry.get? f.stream = some (.active id) ∧
      c.channels.get? id = some ch ∧ f.item? ch = some item := by
  rw [brought?]
  split
  next j hj =>
    split
    next e he =>
      rw [hj]
      constructor
      · intro h
        obtain ⟨i, hi, heq⟩ := Option.map_eq_some_iff.mp h
        obtain ⟨rfl, rfl, rfl⟩ : j = id ∧ e = ch ∧ i = item := by simpa using heq
        exact ⟨rfl, he, hi⟩
      · rintro ⟨hid, hch, hi⟩
        obtain rfl : j = id := by simpa using hid
        obtain rfl := Option.some.inj (he.symm.trans hch)
        rw [hi]
        rfl
    next hnone =>
      refine ⟨nofun, ?_⟩
      rintro ⟨hid, hch, -⟩
      obtain rfl : j = id := by simpa using hj.symm.trans hid
      exact nomatch hnone.symm.trans hch
  next hclosed => exact ⟨nofun, fun h => nomatch hclosed.symm.trans h.1⟩
  next hnone => exact ⟨nofun, fun h => nomatch hnone.symm.trans h.1⟩

/-- An item that arrives is received. -/
theorem frameArrived_of_brought {f : Frame} {item : Inbound}
    (h : c.brought? f = some (id, ch, item)) :
    c.frameArrived f = { c with reading := true }.receive id ch item := by
  obtain ⟨hid, hch, hitem⟩ := brought?_eq_some.mp h
  cases f with
  | data stream payload padding endStream =>
    simp only [Frame.item?, Option.ite_none_right_eq_some, Option.some.injEq] at hitem
    obtain ⟨hkept, rfl⟩ := hitem
    simp only [frameArrived, hid, channelFrame, dataArrived, hch, hkept]
  | headers stream block endStream =>
    simp only [Frame.item?, Option.ite_none_right_eq_some, Option.some.injEq] at hitem
    obtain ⟨⟨hanswered, rfl, hopen⟩, rfl⟩ := hitem
    simp only [frameArrived, hid, channelFrame, headersArrived, hch, if_neg hanswered, hopen]
    rfl
  | _ => cases hitem

/-- Without an item for the channel nothing is delivered to it. -/
theorem apart_channelFrame (h : c.channels.get? id = some ch) {f : Frame}
    (hitem : f.item? ch = none) (hg : f.isGeneral = false) :
    c.journal.Apart (c.channelFrame id f).journal := by
  cases f with
  | data stream payload padding endStream =>
    simp only [Frame.item?, ite_eq_right_iff, reduceCtorEq, imp_false] at hitem
    rw [channelFrame, dataArrived, h]
    dsimp only
    split
    · exact ((steady_unflushedPath (flushedPath_failChannel _ id _).aloud).journal :)
    next hkept => exact absurd hkept hitem
  | headers stream block endStream =>
    simp only [Frame.item?, ite_eq_right_iff, reduceCtorEq, imp_false] at hitem
    rw [channelFrame, headersArrived, h]
    dsimp only
    split
    · exact (steady_unflushedPath (flushedPath_responseArrived c id block endStream).aloud).journal
    next hasked =>
      split
      · exact (steady_unflushedPath (flushedPath_failChannel c id _).aloud).journal
      next hends =>
        rw [not_or, Classical.not_not, Bool.not_eq_true] at hends
        exact absurd ⟨hasked, hends⟩ hitem
  | reset _ reason =>
      exact (steady_unflushedPath (flushedPath_resetArrived c id reason).aloud).journal
  | priority => exact (Journal.Apart.refl _).push rfl
  | windowUpdate | unknown => exact .refl _
  | settings | goAway => cases hg

/-- Nothing is delivered on the arrival of a frame that brings no item. -/
theorem apart_frameArrived (ht : c.Tidy) {f : Frame} (h : c.brought? f = none) :
    c.journal.Apart (c.frameArrived f).journal := by
  have harrival := arrival ht f
  generalize hd : c.frameArrived f = d at harrival
  cases harrival with
  | passed _ hflushed => exact (steady_unflushedPath hflushed.aloud).journal.push rfl
  | dropped _ hbegun hflushed =>
    exact (((steady_unflushedPath hbegun.path).trans (steady_discard ..)).trans
      (steady_unflushedPath hflushed.aloud)).journal
  | heeded _ hflushed => exact (steady_unflushedPath hflushed.aloud).journal
  | @queued id ch item hf hid hch _ =>
    -- the channel is there, and yet there is no item for it
    have hitem : f.item? ch = none := by
      cases hitem : f.item? ch with
      | none => rfl
      | some item => exact nomatch h.symm.trans (brought?_eq_some.mpr ⟨hid, hch, hitem⟩)
    have hg : f.isGeneral = false := (Bool.or_eq_false_iff.mp hf).1
    have hframe : c.frameArrived f = { c with reading := true }.channelFrame id f := by
      cases f with
      | settings | goAway => cases hg
      | _ => simp only [frameArrived, hid]
    rw [← hd, hframe]
    exact (apart_channelFrame (c := { c with reading := true }) hch hitem hg :)

/-! ### Calls -/

/-- The pump does what the call enters it for, and delivers no more than there is. -/
structure Enters (c : Connection) (k : Call) (job : Job) (d : Connection) : Prop where
  ends : ∃ e, EndsWell job d false e ∧ c.after k = k.leaves e
  supply : (c.after k).supply ≤ c.supply + 1

theorem after_onChannel (h : c.channels.get? id = some ch) (f : Reply × Connection) :
    (c.onChannel id f).2 = f.2 := by
  rw [onChannel, Table.contains, h]
  rfl

theorem apart_onChannel {f : Reply × Connection} (h : c.journal.Apart f.2.journal) :
    c.journal.Apart (c.onChannel id f).2.journal := by
  rw [onChannel]
  split
  · exact h
  · exact .refl _

theorem enters_frame (hp : c.AtRest) {f : Frame} (h : c.errand? (.frame f) = some (job, d)) :
    Enters c (.frame f) job d := by
  rw [errand?] at h
  split at h
  next id ch item hbrought =>
    obtain ⟨-, hch, -⟩ := brought?_eq_some.mp hbrought
    simp only [Option.ite_none_left_eq_some, Option.some.injEq, Prod.mk.injEq] at h
    obtain ⟨hwanted, rfl, rfl⟩ := h
    have hbeside : Beside c { c with reading := true } :=
      { Beside.refl c with reading := fun _ => rfl }
    have hbegun : Pump ⟨true, false, [], []⟩ { c with reading := true } := Pump.beside hp hbeside
    have hafter : c.after (.frame f) = drain
        { c with reading := true, channels := c.channels.insert id (ch.receive item) } id := by
      change c.frameArrived f = _
      rw [frameArrived_of_brought hbrought, receive]
      exact if_neg hwanted
    have hsupply : supply
        { c with reading := true, channels := c.channels.insert id (ch.receive item) } =
          c.supply + 1 := by
      have hqueue := queuedItems_insert hch (ch.receive item)
      have hlonger : (ch.receive item).inbound.length = ch.inbound.length + 1 := by
        rw [Channel.receive]
        dsimp only
        split <;> exact List.length_append
      rw [supply, supply, queuedItems]
      dsimp only
      omega
    refine ⟨⟨_, endsWell_drain (hbegun.received hch item).1, hafter⟩, ?_⟩
    rw [hafter, ← hsupply]
    exact supply_readPath (readPath_drain _ id)
  next => cases h

theorem enters_readCycleEnded (hp : c.AtRest) : Enters c .readCycleEnded .drainBatch c where
  ends := ⟨_, endsWell_drainBatch hp, rfl⟩
  supply := Nat.le_succ_of_le (supply_readPath (readPath_readCycleEnded c))

theorem enters_beginRead (hp : c.AtRest) (h : c.errand? (.beginRead id) = some (job, d)) :
    Enters c (.beginRead id) job d := by
  rw [errand?] at h
  split at h
  next ch hch =>
    simp only [Option.ite_none_right_eq_some, Option.some.injEq, Prod.mk.injEq] at h
    obtain ⟨⟨ho, hidle⟩, rfl, rfl⟩ := h
    have hasked := (Pump.requestRead hp List.not_mem_nil hch).1
    have hafter : c.after (.beginRead id) =
        (c.updateChannel id (·.requestRead c.config.messagesPerRead)).drain id := by
      refine (after_onChannel hch _).trans ?_
      simp only [beginRead, hch, ho, hidle, Bool.false_eq_true, if_false, if_true]
    refine ⟨⟨_, endsWell_drain hasked, hafter⟩, ?_⟩
    rw [hafter]
    exact Nat.le_succ_of_le (supply_readPath
      ((ReadStep.requested c id).path.trans (readPath_drain _ id)))
  next => cases h

theorem enters_setAutoRead (hp : c.AtRest) {on : Bool}
    (h : c.errand? (.setAutoRead id on) = some (job, d)) :
    Enters c (.setAutoRead id on) job d := by
  rw [errand?] at h
  split at h
  next ch hch =>
    simp only [Option.ite_none_right_eq_some, Option.some.injEq, Prod.mk.injEq] at h
    obtain ⟨⟨rfl, hidle⟩, rfl, rfl⟩ := h
    obtain ⟨hset, hch'⟩ := Pump.automated hp hch true
    have hasked := (Pump.requestRead hset List.not_mem_nil hch').1
    have hafter : c.after (.setAutoRead id true) =
        ((c.updateChannel id fun ch => { ch with autoRead := true }).updateChannel id
          (·.requestRead c.config.messagesPerRead)).drain id := by
      refine (after_onChannel hch _).trans ?_
      simp only [setAutoRead, hch, hidle, Bool.true_and, decide_true, if_true]
      rfl
    refine ⟨⟨_, endsWell_drain hasked, hafter⟩, ?_⟩
    rw [hafter]
    exact Nat.le_succ_of_le (supply_readPath
      (((ReadStep.automated c id true).path.tail (.requested _ id)).trans (readPath_drain _ id)))
  next => cases h

theorem enters_of_errand (hp : c.AtRest) {k : Call} (h : c.errand? k = some (job, d)) :
    Enters c k job d := by
  cases k with
  | frame f => exact enters_frame hp h
  | readCycleEnded =>
    obtain ⟨rfl, rfl⟩ := Prod.mk.inj (Option.some.inj h)
    exact enters_readCycleEnded hp
  | beginRead id => exact enters_beginRead hp h
  | setAutoRead id on => exact enters_setAutoRead hp h
  | _ => cases h

theorem journal_beginRead (h : c.errand? (.beginRead id) = none) :
    (c.beginRead id).journal = c.journal := by
  rw [errand?] at h
  rw [beginRead]
  split
  · rfl
  next ch hch =>
    simp only [hch, ite_eq_right_iff, reduceCtorEq, imp_false, not_and] at h
    split
    · rfl
    next ho =>
      dsimp only
      rw [if_neg (h (Bool.not_eq_true _ ▸ ho))]
      rfl

theorem journal_setAutoRead {on : Bool} (h : c.errand? (.setAutoRead id on) = none) :
    (c.setAutoRead id on).journal = c.journal := by
  rw [errand?] at h
  rw [setAutoRead]
  split
  · rfl
  next ch hch =>
    simp only [hch, ite_eq_right_iff, reduceCtorEq, imp_false] at h
    dsimp only
    rw [if_neg (by simpa using h)]
    rfl

/-- A call that does not enter the pump delivers nothing. -/
theorem apart_of_no_errand (ht : c.Tidy) {k : Call} (h : c.errand? k = none) :
    c.journal.Apart (c.after k).journal := by
  cases hreads : k.reads with
  | false => exact (steady_unflushedPath (unflushedPath_after ht hreads)).journal
  | true =>
    cases k with
    | frame f =>
      rw [errand?] at h
      split at h
      next id ch item hbrought =>
        simp only [ite_eq_left_iff, reduceCtorEq, imp_false, Classical.not_not] at h
        change c.journal.Apart (c.frameArrived f).journal
        rw [frameArrived_of_brought hbrought, receive]
        dsimp only
        rw [if_pos h]
        exact .refl _
      next hbrought => exact apart_frameArrived ht hbrought
    | readCycleEnded => cases h
    | beginRead id => exact apart_onChannel (.of_eq (congrArg _ (journal_beginRead h)))
    | setAutoRead id on => exact apart_onChannel (.of_eq (congrArg _ (journal_setAutoRead h)))
    | _ => cases hreads

/-- The pump ends and does not nest.

Whenever a call reads, there is one way to perform the job for which it enters the pump, and the
call does nothing else: each drain of the batch begins while the batch is not being drained, a
channel that asks again after the batch was drained may wait, and no drain is going on any more when
the call returns.  A call delivers no more than the items that waited before it and the one that it
may bring; a call that does not enter the pump delivers nothing. -/
theorem pump_ends_and_never_nests {config : Config} {encoder : Encoder}
    (h : start config encoder = .ok c) (ks : List Call) (k : Call) :
    (∀ job d, (c.run ks).errand? k = some (job, d) → ∃ ms e, Performs job d ms false e ∧
      (∀ ms' b e', Performs job d ms' b e' → ms' = ms ∧ b = false ∧ e' = e) ∧
      (∀ m ∈ ms, m.IsProper) ∧ (c.run ks).after k = k.leaves e) ∧
    ((c.run ks).errand? k = none → (c.run ks).journal.Apart ((c.run ks).after k).journal) ∧
    ((c.run ks).after k).batch.draining = false ∧
    ((c.run ks).after k).journal.deliveries ≤
      (c.run ks).journal.deliveries + (c.run ks).queuedItems + 1 := by
  have hp := atRest_run h ks
  have ht := tidy_run h ks
  refine ⟨?_, apart_of_no_errand ht, ?_, ?_⟩
  · intro job d herrand
    obtain ⟨e, ⟨ms, hms, hproper⟩, hafter⟩ := (enters_of_errand hp herrand).ends
    exact ⟨ms, e, hms, fun _ _ _ h' => hms.unique h', hproper, hafter⟩
  · rw [← run_concat]
    exact (atRest_run h (ks ++ [k])).draining
  · cases herrand : (c.run ks).errand? k with
    | none =>
      rw [(apart_of_no_errand ht herrand).deliveries_eq]
      omega
    | some errand =>
      have hsupply := (enters_of_errand hp herrand).supply
      rw [supply, supply] at hsupply
      omega

/-- There is room for one read in the batch, and two channels want to wait: the batch is drained for
the second. -/
theorem full_batch_is_drained_early :
    let c := (fresh { batchCapacity := 1 } .willing).run (Call.opening ++
      [.openStream "/chat" none, .frame (.headers 11 (.ofStatus 200) false),
        .frame (.data 3 [1] 0 false)])
    let k := Call.frame (.data 11 [2] 0 false)
    c.batch.queue = [1] ∧ (c.after k).batch.queue = [2] ∧
      ∃ d ms e, c.errand? k = some (.drain 2, d) ∧ Performs (.drain 2) d ms false e ∧
        ms = [.begun false, .askedAgain .queued] ∧ (∀ m ∈ ms, m.IsProper) ∧ c.after k = k.leaves e ∧
        (c.after k).journal.deliveries ≤ c.journal.deliveries + c.queuedItems + 1 := by
  intro c k
  obtain ⟨hends, -, -, hbound⟩ := pump_ends_and_never_nests
    (rfl : start { batchCapacity := 1 } .willing = .ok (fresh { batchCapacity := 1 } .willing))
    (Call.opening ++ [.openStream "/chat" none, .frame (.headers 11 (.ofStatus 200) false),
      .frame (.data 3 [1] 0 false)]) k
  let d := ((c.errand? k).get (by decide)).2
  obtain ⟨ms, e, hms, hunique, hproper, hafter⟩ :=
    hends (.drain 2) d (rfl : c.errand? k = some (.drain 2, d))
  have hresumed : Performs (.resume [1])
      { (d.deliver 2).2 with batch := (d.deliver 2).2.batch.beginDrain.2 } [] false _ :=
    .satisfied (by decide) (by decide) .done
  have hdrained : Performs .drainBatch (d.deliver 2).2 [.begun false] false _ :=
    .emptied (by decide) hresumed
  have hcompleted : Performs (.complete 2) (d.deliver 2).2
      [.begun false, .askedAgain .queued] _ _ := .crowded (by decide) hdrained
  have hnoted : Performs (.drain 2) d [.begun false, .askedAgain .queued] false _ :=
    .once (by decide) hcompleted (by decide)
  exact ⟨by decide, by decide, d, ms, e, rfl, hms, (hunique _ _ _ hnoted).1.symm, hproper, hafter,
    hbound⟩

end Connection

end ChannelMux
