import ChannelMux.Proofs.Frames
import Mathlib.Tactic.ByContra

/-!
# Reads: the steps of which reading is made

Delivering, completing a read and draining the batch call one another.  Here each of them gets one
equation (`deliver_eq`, `fireReadComplete_eq`), and whatever reads is taken apart into `ReadStep`s
(`ReadPath`).  How many items a read has delivered so far cannot be seen from the connection, so it
is counted in the journal, by `Journal.tally`.
-/

namespace ChannelMux

/-! ## Tallies -/

/-- How many items a channel was given by the read that is going on, and by the last read that
gave it any. -/
structure Tally where
  current : Nat := 0
  last : Nat := 0
deriving DecidableEq, Repr

namespace Tally

def deliver (t : Tally) : Tally := ⟨t.current + 1, t.current + 1⟩

def complete (t : Tally) : Tally := { t with current := 0 }

/-- Deliver a number of items. -/
def advance (t : Tally) (n : Nat) : Tally := if n = 0 then t else ⟨t.current + n, t.current + n⟩

theorem advance_deliver (t : Tally) (n : Nat) : t.deliver.advance n = t.advance (n + 1) := by
  rw [advance, advance, if_neg n.succ_ne_zero]
  split
  next h => rw [h]; rfl
  next => rw [deliver, Nat.add_assoc, Nat.add_comm 1 n]

@[simp] theorem current_advance (t : Tally) (n : Nat) : (t.advance n).current = t.current + n := by
  rw [advance]
  split
  next h => rw [h, Nat.add_zero]
  next => rfl

theorem last_advance (t : Tally) {n : Nat} (h : n ≠ 0) : (t.advance n).last = t.current + n := by
  rw [advance, if_neg h]

end Tally

/-- Continue the tally of a channel. -/
def Entry.tally (id : ChannelId) (t : Tally) : Entry → Tally
  | delivered j _ => if j = id then t.deliver else t
  | event e => if e = ⟨id, .readComplete⟩ then t.complete else t
  | wire .. | closed _ => t

theorem Entry.tally_of_not_isReading {e : Entry} (h : e.isReading = false) (id : ChannelId)
    (t : Tally) : e.tally id t = t := by
  cases e with
  | wire owner entry => rfl
  | closed j => rfl
  | delivered j item => cases h
  | event e =>
    apply if_neg
    intro he
    rw [he] at h
    cases h

namespace Journal

variable {j j' j'' : Journal} {id : ChannelId}

def tally (j : Journal) (id : ChannelId) : Tally := j.entries.foldl (Entry.tally id) {}

@[simp] theorem tally_push (j : Journal) (e : Entry) (id : ChannelId) :
    (j.push e).tally id = e.tally id (j.tally id) := by
  rw [tally, entries_push, List.foldl_append]
  rfl

theorem Apart.tally_eq (h : j.Apart j') (id : ChannelId) : j'.tally id = j.tally id := by
  obtain ⟨es, hes, hP⟩ := h
  rw [tally, tally, hes, List.foldl_append]
  clear hes
  generalize j.entries.foldl (Entry.tally id) {} = t
  induction es with
  | nil => rfl
  | cons e es ih =>
    rw [List.foldl_cons, Entry.tally_of_not_isReading (hP e List.mem_cons_self)]
    exact ih fun d hd => hP d (List.mem_cons_of_mem _ hd)

/-- A channel is given a number of items, and no other channel is given any. -/
def Hands (id : ChannelId) (n : Nat) (j j' : Journal) : Prop :=
  ∀ i, j'.tally i = if i = id then (j.tally i).advance n else j.tally i

theorem Hands.of_apart (h : j.Apart j') : j.Hands id 0 j' := by
  intro i
  rw [h.tally_eq]
  split <;> rfl

theorem Hands.next {n : Nat} (h : j.Hands id 1 j') (h' : j'.Hands id n j'') :
    j.Hands id (n + 1) j'' := by
  intro i
  rw [h' i, h i]
  split
  · exact (j.tally i).advance_deliver n
  · rfl

theorem Hands.apart {n : Nat} (h : j.Hands id n j') (h' : j'.Apart j'') : j.Hands id n j'' :=
  fun i => by rw [h'.tally_eq, h i]

end Journal

/-! ## One read -/

/-- A channel after the first items of its queue were delivered. -/
def Channel.handed (ch : Channel) (n : Nat) (reported : Bool) : Channel :=
  { ch with inbound := ch.inbound.drop n, budget := ch.budget - n, endReported := reported }

namespace Connection

variable {c : Connection} {id : ChannelId} {ch : Channel}

def handed (c : Connection) (id : ChannelId) (ch : Channel) (n : Nat) (reported : Bool)
    (journal : Journal) : Connection :=
  { c with channels := c.channels.insert id (ch.handed n reported), journal := journal }

@[simp] theorem get?_handed (c : Connection) (id : ChannelId) (ch : Channel) (n : Nat)
    (reported : Bool) (journal : Journal) :
    (c.handed id ch n reported journal).channels.get? id = some (ch.handed n reported) := by
  rw [handed, Table.get?_insert_self]

theorem handed_zero (h : c.channels.get? id = some ch) :
    c.handed id ch 0 ch.endReported c.journal = c := by
  have hself := Table.insert_self h
  rw [handed]
  exact congrArg (fun t => { c with channels := t }) hself

theorem handOver_eq (h : c.channels.get? id = some ch) {item : Inbound} {rest : List Inbound}
    (hq : ch.inbound = item :: rest) (stream : StreamId) :
    ∃ reported journal, c.handOver id stream item rest = c.handed id ch 1 reported journal ∧
      c.journal.Hands id 1 journal := by
  have hdrop : ch.inbound.drop 1 = rest := by rw [hq]; rfl
  have hhand : c.journal.Hands id 1 (c.journal.push (.delivered id item)) := by
    intro i
    rw [Journal.tally_push]
    change (if id = i then _ else _) = _
    by_cases hi : i = id
    · rw [if_pos hi, if_pos hi.symm]; rfl
    · rw [if_neg hi, if_neg (Ne.symm hi)]
  obtain ⟨_⟩ := c
  simp only at h hhand
  cases item with
  | data payload endStream =>
    simp only [handOver, note, emit, tell, h, updateChannel, Table.modify_eq_insert h, handed,
      Channel.handed, hdrop]
    split
    · exact ⟨_, _, rfl, hhand.apart ((((Journal.Apart.refl _).push rfl).push rfl).push rfl)⟩
    · exact ⟨_, _, rfl, hhand.apart (((Journal.Apart.refl _).push rfl).push rfl)⟩
  | trailers =>
    simp only [handOver, note, emit, h, updateChannel, Table.modify_eq_insert h, handed,
      Channel.handed, hdrop]
    split
    · exact ⟨_, _, rfl, hhand.apart ((Journal.Apart.refl _).push rfl)⟩
    · exact ⟨_, _, rfl, hhand⟩

theorem handed_handed (c : Connection) (id : ChannelId) (ch : Channel) (m n : Nat)
    (r r' : Bool) (j j' : Journal) :
    (c.handed id ch m r j).handed id (ch.handed m r) n r' j' = c.handed id ch (m + n) r' j' := by
  simp only [handed, Channel.handed, Table.insert_insert, List.drop_drop, Nat.sub_sub]

/-- A read delivers all there is or all that its budget allows; only in the first case does the
channel settle. -/
theorem deliverItems_eq (h : c.channels.get? id = some ch)
    (hb : ch.budget = 0 → ch.inbound = []) (stream : StreamId) :
    ∃ n reported journal,
      deliverItems id stream ch.budget ch.inbound c =
        (n, if ch.inbound.length < ch.budget ∨ ch.inbound = [] then
          (c.handed id ch n reported journal).settle id
        else c.handed id ch n reported journal) ∧
      n = min ch.inbound.length ch.budget ∧ c.journal.Hands id n journal := by
  obtain ⟨items, hitems⟩ : ∃ items, items = ch.inbound := ⟨_, rfl⟩
  induction items generalizing c ch with
  | nil =>
    refine ⟨0, ch.endReported, c.journal, ?_, ?_, .of_apart (.refl _)⟩
    · rw [← hitems, deliverItems, if_pos (.inr rfl), handed_zero h]
    · rw [← hitems]; rfl
  | cons item rest ih =>
    have hpos : ch.budget ≠ 0 := fun hz => List.cons_ne_nil item rest (hitems.trans (hb hz))
    obtain ⟨reported, journal, hover, hhand⟩ := handOver_eq h hitems.symm stream
    have hlen : ch.inbound.length = rest.length + 1 := by rw [← hitems]; rfl
    have hne : ch.inbound ≠ [] := hitems ▸ List.cons_ne_nil item rest
    rw [← hitems, deliverItems, hitems]
    simp only [hover]
    split
    next hone =>
      refine ⟨1, reported, journal, ?_, by omega, hhand⟩
      rw [if_neg (not_or.mpr ⟨by omega, hne⟩)]
    next hmore =>
      have hrest : rest = ch.inbound.drop 1 := by rw [← hitems]; rfl
      obtain ⟨n, reported', journal', heq, hn, hhand'⟩ :=
        ih (get?_handed ..) (fun hz => absurd hz (by simp only [Channel.handed]; omega)) hrest
      simp only [handed_handed, Nat.add_comm 1 n] at heq
      simp only [Channel.handed] at heq hn
      refine ⟨n + 1, reported', journal', ?_, ?_, hhand.next hhand'⟩
      · have hsettles : ((ch.inbound.drop 1).length < ch.budget - 1 ∨ ch.inbound.drop 1 = []) ↔
            (ch.inbound.length < ch.budget ∨ ch.inbound = []) := by
          rw [← hrest, ← List.length_eq_zero_iff, ← List.length_eq_zero_iff, hlen]
          omega
        rw [hrest, heq]
        simp only [hsettles]
      · simp only [← hrest] at hn
        omega

end Connection

/-- A read is going on and either may still deliver or has nothing to deliver. -/
structure Channel.Ready (ch : Channel) : Prop where
  opened : ch.closed = false
  wanted : ch.demand ≠ .idle
  allowed : ch.budget = 0 → ch.inbound = []

namespace Connection

variable {c c' d : Connection} {id : ChannelId} {ch : Channel}

/-- What a delivery comes to: how many items were delivered, and the connection afterwards. -/
inductive Delivery (c : Connection) (id : ChannelId) : Nat → Connection → Prop
  | refused : (∀ ch, c.channels.get? id = some ch → ¬ ch.Ready) → Delivery c id 0 c
  /-- The channel stays open, though its queue may be empty. -/
  | handed {ch : Channel} {n : Nat} {reported unflushed : Bool} {journal : Journal} :
      c.channels.get? id = some ch → ch.Ready → n = min ch.inbound.length ch.budget →
      c.journal.Hands id n journal →
      (ch.inbound.length < ch.budget ∨ ch.inbound = [] → ch.isStreamClosed = false) →
      Delivery c id n { c with
        channels := c.channels.insert id { ch.handed n reported with unflushed := unflushed }
        journal := journal }
  /-- Everything was delivered before the budget was spent, and the stream is finished. -/
  | closed {ch : Channel} {n : Nat} {reported : Bool} {journal : Journal} :
      c.channels.get? id = some ch → ch.Ready → n = min ch.inbound.length ch.budget →
      c.journal.Hands id n journal → ch.inbound.length < ch.budget ∨ ch.inbound = [] →
      ch.isStreamClosed = true →
      Delivery c id n ((c.handed id ch n reported journal).close id .remote)

/-- Settling closes a channel, or touches what was sent and nothing else. -/
theorem settle_eq (h : c.channels.get? id = some ch) :
    ch.isStreamClosed = true ∧ c.settle id = c.close id .remote ∨
      ch.isStreamClosed = false ∧ ∃ unflushed journal,
        c.settle id = { c with
          channels := c.channels.insert id { ch with unflushed := unflushed }
          journal := journal } ∧ c.journal.Apart journal := by
  rw [settle, h]
  simp only
  split
  next hs => exact .inl ⟨hs, rfl⟩
  next hs =>
    refine .inr ⟨Bool.not_eq_true _ ▸ hs, ?_⟩
    split
    · rw [updateChannel_eq h]
      exact ⟨_, _, rfl, (Journal.Apart.refl _).push rfl⟩
    · refine ⟨ch.unflushed, c.journal, ?_, .refl _⟩
      exact (congrArg (fun t => { c with channels := t }) (Table.insert_self h)).symm

theorem delivery_of_ready (h : c.channels.get? id = some ch) (hr : ch.Ready) :
    Delivery c id (c.deliver id).1 (c.deliver id).2 := by
  have hguard : ¬ (ch.closed = true ∨ ch.demand = .idle ∨ ch.budget = 0 ∧ ch.inbound ≠ []) := by
    rintro (hc | hd | ⟨hz, hne⟩)
    · exact absurd (hr.opened.symm.trans hc) Bool.false_ne_true
    · exact hr.wanted hd
    · exact hne (hr.allowed hz)
  obtain ⟨n, reported, journal, heq, hn, hhand⟩ := deliverItems_eq h hr.allowed ch.stream
  have hstays : ch.handed n reported =
      { ch.handed n reported with unflushed := (ch.handed n reported).unflushed } := rfl
  rw [deliver, h]
  simp only
  rw [if_neg hguard, heq]
  dsimp only
  split
  next hall =>
    rcases settle_eq (get?_handed c id ch n reported journal) with
      ⟨hs, heq⟩ | ⟨hs, unflushed, journal', heq, hapart⟩
    · rw [heq]
      exact .closed h hr hn hhand hall hs
    · rw [heq, handed, Table.insert_insert]
      exact .handed h hr hn (hhand.apart hapart) fun _ => hs
  next hspent =>
    rw [handed, hstays]
    exact .handed h hr hn hhand fun hall => absurd hall hspent

theorem delivery (c : Connection) (id : ChannelId) :
    Delivery c id (c.deliver id).1 (c.deliver id).2 := by
  by_cases hr : ∃ ch, c.channels.get? id = some ch ∧ ch.Ready
  · obtain ⟨ch, h, hr⟩ := hr
    exact delivery_of_ready h hr
  · have hnot : ∀ ch, c.channels.get? id = some ch → ¬ ch.Ready := fun ch h hready =>
      hr ⟨ch, h, hready⟩
    have heq : c.deliver id = (0, c) := by
      rw [deliver]
      split
      · rfl
      next ch h =>
        apply if_pos
        by_contra hguard
        rw [not_or, not_or] at hguard
        exact hnot ch h ⟨Bool.not_eq_true _ ▸ hguard.1, hguard.2.1, fun hz =>
          by_contra fun hne => hguard.2.2 ⟨hz, hne⟩⟩
    rw [heq]
    exact .refused hnot

/-- A delivery hands items over one after another, and settles if it has delivered them all. -/
theorem deliver_rel {R : Connection → Connection → Prop} (hrefl : ∀ c, R c c)
    (htrans : ∀ {c d e}, R c d → R d e → R c e)
    (hover : ∀ c stream item rest, R c (handOver c id stream item rest))
    (hsettle : ∀ c, R c (c.settle id)) (c : Connection) : R c (c.deliver id).2 := by
  have hitems (stream : StreamId) (budget : Nat) (items : List Inbound) (c : Connection) :
      R c (deliverItems id stream budget items c).2 := by
    induction items generalizing c budget with
    | nil => exact hsettle c
    | cons item rest ih =>
      have hfirst := hover c stream item rest
      rw [deliverItems]
      dsimp only
      split
      · exact hfirst
      · exact htrans hfirst (ih _ _)
  rw [deliver]
  split
  · exact hrefl c
  · split
    · exact hrefl c
    · exact hitems ..

theorem fireReadComplete_eq (h : c.channels.get? id = some ch) :
    c.fireReadComplete id = { c with
      channels := c.channels.insert id (ch.finishRead c.config.messagesPerRead)
      journal := c.journal.push (.event ⟨id, .readComplete⟩) } := by
  rw [fireReadComplete, h]
  simp only
  rw [updateChannel_eq h]
  rfl

/-! ## Steps -/

/-- A step of reading.  Between two steps a channel may be in the middle of a read. -/
inductive ReadStep : Connection → Connection → Prop
  | requested (c : Connection) (id : ChannelId) :
      ReadStep c (c.updateChannel id (·.requestRead c.config.messagesPerRead))
  | automated (c : Connection) (id : ChannelId) (on : Bool) :
      ReadStep c (c.updateChannel id fun ch => { ch with autoRead := on })
  | delivered (c : Connection) (id : ChannelId) : ReadStep c (c.deliver id).2
  | completed (c : Connection) (id : ChannelId) :
      c.isOpen id = true → ReadStep c (c.fireReadComplete id)
  | queued {c : Connection} {id : ChannelId} {batch : ReadBatch} :
      c.batch.enqueue id = (.queued, batch) →
      ReadStep c ({ c with batch := batch }.updateChannel id fun ch => { ch with batched := true })
  | drainBegun (c : Connection) : ReadStep c { c with batch := c.batch.beginDrain.2 }
  | drainFinished (c : Connection) : ReadStep c { c with batch := c.batch.finishDrain }
  | swept (c : Connection) :
      ReadStep c { c with channels := c.channels.mapEntries fun _ => flushed }.flush
  | cycleEnded (c : Connection) : ReadStep c { c with reading := false }

def ReadPath : Connection → Connection → Prop := Relation.ReflTransGen ReadStep

namespace ReadPath

theorem refl (c : Connection) : ReadPath c c := Relation.ReflTransGen.refl

theorem trans (h : ReadPath c c') (h' : ReadPath c' d) : ReadPath c d :=
  Relation.ReflTransGen.trans h h'

theorem tail (h : ReadPath c c') (h' : ReadStep c' d) : ReadPath c d :=
  Relation.ReflTransGen.tail h h'

theorem foldl (f : Connection → ChannelId → Connection) (hf : ∀ c id, ReadPath c (f c id))
    (ids : List ChannelId) (c : Connection) : ReadPath c (ids.foldl f c) := by
  induction ids generalizing c with
  | nil => exact refl c
  | cons id ids ih => exact (hf c id).trans (ih _)

end ReadPath

theorem ReadStep.path (h : ReadStep c c') : ReadPath c c' := (ReadPath.refl c).tail h

/-! ## Waiting in the batch -/

theorem enqueue_cases (b : ReadBatch) (id : ChannelId) :
    b.enqueue id = (.queued, { b with queue := b.queue ++ [id] }) ∧ b.draining = false ∧
        b.queue.length < b.capacity ∨
      b.enqueue id = (.full, b) ∧ b.draining = false ∧ b.capacity ≤ b.queue.length ∨
      b.enqueue id = (.draining, b) ∧ b.draining = true := by
  unfold ReadBatch.enqueue
  split
  next h => exact .inr (.inr ⟨rfl, h⟩)
  next h =>
    split
    next hfull => exact .inr (.inl ⟨rfl, Bool.not_eq_true _ ▸ h, hfull⟩)
    next hfull => exact .inl ⟨rfl, Bool.not_eq_true _ ▸ h, Nat.lt_of_not_le hfull⟩

section

variable {f : Connection → Connection} {batch : ReadBatch}

theorem joinBatch_of_queued (h : c.batch.enqueue id = (.queued, batch)) :
    joinBatch f c id =
      (true, { c with batch := batch }.updateChannel id fun ch => { ch with batched := true }) := by
  simp only [joinBatch, h, reduceCtorEq, if_false, if_true]

theorem joinBatch_of_draining (h : c.batch.enqueue id = (.draining, c.batch)) :
    joinBatch f c id = (false, c) := by
  simp only [joinBatch, h, reduceCtorEq, if_false]

/-- A full batch is drained first, after which there is room, unless that drain failed. -/
theorem joinBatch_of_full (h : c.batch.enqueue id = (.full, c.batch)) :
    (∃ batch, (f c).batch.enqueue id = (.queued, batch) ∧
        joinBatch f c id =
          (true, { f c with batch := batch }.updateChannel id
            fun ch => { ch with batched := true })) ∨
      ((f c).batch.draining = true ∨ (f c).batch.capacity ≤ (f c).batch.queue.length) ∧
        joinBatch f c id = (false, f c) := by
  rcases enqueue_cases (f c).batch id with ⟨h', -⟩ | ⟨h', -, hfull⟩ | ⟨h', hdrain⟩
  · exact .inl ⟨_, h', by simp only [joinBatch, h, h', if_true]⟩
  · exact .inr ⟨.inr hfull, by simp only [joinBatch, h, h', reduceCtorEq, if_true, if_false]⟩
  · exact .inr ⟨.inl hdrain, by simp only [joinBatch, h, h', reduceCtorEq, if_true, if_false]⟩

end

/-! ## Other channels -/

section

variable {j : ChannelId}

theorem get?_deliver_of_ne (hj : j ≠ id) :
    (c.deliver id).2.channels.get? j = c.channels.get? j := by
  have hdelivery := delivery c id
  generalize (c.deliver id).1 = n at hdelivery
  generalize (c.deliver id).2 = d at hdelivery ⊢
  cases hdelivery with
  | refused _ => rfl
  | handed _ _ _ _ _ => exact Table.get?_insert_of_ne hj ..
  | closed _ _ _ _ _ _ =>
    rw [get?_close_of_ne hj, handed, Table.get?_insert_of_ne hj]

theorem get?_fireReadComplete_of_ne (hj : j ≠ id) :
    (c.fireReadComplete id).channels.get? j = c.channels.get? j := by
  cases h : c.channels.get? id with
  | none => rw [fireReadComplete, h]
  | some ch => rw [fireReadComplete_eq h, Table.get?_insert_of_ne hj]

/-- While the batch is drained, a read completes without touching another channel. -/
theorem get?_completeRead_of_ne (hj : j ≠ id) :
    (completeRead (fun c => c) c id).2.channels.get? j = c.channels.get? j := by
  have hjoin : (joinBatch (fun c => c) c id).2.channels.get? j = c.channels.get? j := by
    rcases enqueue_cases c.batch id with ⟨hq, -⟩ | ⟨hq, -⟩ | ⟨hq, -⟩
    · rw [joinBatch_of_queued hq]
      exact get?_updateChannel_of_ne hj _
    · rcases joinBatch_of_full hq with ⟨batch, -, heq⟩ | ⟨-, heq⟩
      · rw [heq]
        exact get?_updateChannel_of_ne hj _
      · rw [heq]
    · rw [joinBatch_of_draining hq]
  rw [completeRead]
  split
  · rfl
  · split
    · rfl
    · split
      next ch _ _ waits d heq =>
        have hd : d.channels.get? j = c.channels.get? j := by
          split at heq
          · rw [heq] at hjoin; exact hjoin
          · rw [← (Prod.mk.inj heq).2]
        split
        · exact hd
        · exact (get?_fireReadComplete_of_ne hj).trans hd

theorem get?_readRounds_of_ne (hj : j ≠ id) (rounds : Nat) :
    (readRounds (fun c => c) id rounds c).channels.get? j = c.channels.get? j := by
  induction rounds generalizing c with
  | zero => rfl
  | succ rounds ih =>
    have hdelivered := get?_deliver_of_ne (c := c) hj
    have hcompleted := (get?_completeRead_of_ne (c := (c.deliver id).2) hj).trans hdelivered
    rw [readRounds]
    dsimp only
    split
    · exact hdelivered
    · split
      · exact ih.trans hcompleted
      · exact hcompleted

theorem get?_resume_of_ne (hj : j ≠ id) :
    (c.resume id).channels.get? j = c.channels.get? j := by
  rw [resume]
  split
  · rfl
  · split
    · rfl
    · dsimp only
      split
      · exact (get?_readRounds_of_ne hj _).trans (get?_fireReadComplete_of_ne hj)
      · exact get?_fireReadComplete_of_ne hj

theorem get?_foldl_resume_of_notMem (ids : List ChannelId) (hj : j ∉ ids) :
    (ids.foldl resume c).channels.get? j = c.channels.get? j := by
  induction ids generalizing c with
  | nil => rfl
  | cons id ids ih =>
    rw [List.mem_cons, not_or] at hj
    exact (ih hj.2).trans (get?_resume_of_ne hj.1)

/-- A read that does not wait is not resumed. -/
theorem resume_of_unbatched (h : c.channels.get? id = some ch) (hb : ch.batched = false) :
    c.resume id = c := by
  rw [resume, h]
  simp [hb]

/-- Draining the batch leaves a channel open whose read does not wait. -/
theorem isOpen_drainBatch (h : c.channels.get? id = some ch) (ho : ch.closed = false)
    (hb : ch.batched = false) : c.drainBatch.isOpen id = true := by
  have hkept (ids : List ChannelId) (d : Connection) (hd : d.channels.get? id = some ch) :
      (ids.foldl resume d).channels.get? id = some ch := by
    induction ids generalizing d with
    | nil => exact hd
    | cons i ids ih =>
      refine ih _ ?_
      by_cases hi : id = i
      · rw [← hi, resume_of_unbatched hd hb, hd]
      · rw [get?_resume_of_ne hi, hd]
  rw [drainBatch]
  dsimp only
  split
  · exact isOpen_iff.mpr ⟨ch, h, ho⟩
  · refine isOpen_iff.mpr ⟨flushed ch, ?_, ho⟩
    have hwaited := hkept c.batch.beginDrain.1 { c with batch := c.batch.beginDrain.2 } h
    exact (Table.get?_mapEntries ..).trans (by rw [hwaited]; rfl)

end

/-! ## What reads is made of steps -/

section

variable {drainFull : Connection → Connection} (hd : ∀ c, ReadPath c (drainFull c))
  (hstays : ∀ {c : Connection} {id : ChannelId} {ch : Channel}, c.channels.get? id = some ch →
    ch.closed = false → ch.batched = false → (drainFull c).isOpen id = true)

include hstays in
/-- A channel whose read does not wait after all is still there. -/
theorem isOpen_of_joinBatch (h : c.channels.get? id = some ch) (ho : ch.closed = false)
    (hb : ch.batched = false) (hjoin : joinBatch drainFull c id = (false, d)) :
    d.isOpen id = true := by
  have hopen := isOpen_iff.mpr ⟨ch, h, ho⟩
  rcases enqueue_cases c.batch id with ⟨hq, -⟩ | ⟨hq, -⟩ | ⟨hq, -⟩
  · rw [joinBatch_of_queued hq] at hjoin
    cases (Prod.mk.inj hjoin).1
  · rcases joinBatch_of_full (f := drainFull) hq with ⟨batch, -, heq⟩ | ⟨-, heq⟩
    · rw [heq] at hjoin
      cases (Prod.mk.inj hjoin).1
    · rw [heq] at hjoin
      rw [← (Prod.mk.inj hjoin).2]
      exact hstays h ho hb
  · rw [joinBatch_of_draining hq] at hjoin
    rwa [← (Prod.mk.inj hjoin).2]

include hd

theorem readPath_joinBatch (c : Connection) (id : ChannelId) :
    ReadPath c (joinBatch drainFull c id).2 := by
  rcases enqueue_cases c.batch id with ⟨hq, -⟩ | ⟨hq, -⟩ | ⟨hq, -⟩
  · rw [joinBatch_of_queued hq]
    exact (ReadStep.queued hq).path
  · rcases joinBatch_of_full hq with ⟨batch, hq', heq⟩ | ⟨-, heq⟩
    · rw [heq]
      exact (hd c).tail (.queued hq')
    · rw [heq]
      exact hd c
  · rw [joinBatch_of_draining hq]
    exact .refl _

include hstays

theorem readPath_completeRead (c : Connection) (id : ChannelId) :
    ReadPath c (completeRead drainFull c id).2 := by
  rw [completeRead]
  split
  · exact .refl _
  next ch h =>
    split
    · exact .refl _
    next hfree =>
      simp only [Bool.or_eq_true, not_or, Bool.not_eq_true] at hfree
      have hjoin := readPath_joinBatch hd c id
      split
      next waits d heq =>
        have hwaits : ReadPath c d ∧ (waits = false → d.isOpen id = true) := by
          split at heq
          · refine ⟨by rw [heq] at hjoin; exact hjoin, ?_⟩
            rintro rfl
            exact isOpen_of_joinBatch hstays h hfree.1 hfree.2 heq
          · rw [← (Prod.mk.inj heq).2]
            exact ⟨.refl _, fun _ => isOpen_iff.mpr ⟨ch, h, hfree.1⟩⟩
        split
        · exact hwaits.1
        next hnot => exact hwaits.1.tail (.completed d id (hwaits.2 (Bool.not_eq_true _ ▸ hnot)))

theorem readPath_readRounds (id : ChannelId) (rounds : Nat) (c : Connection) :
    ReadPath c (readRounds drainFull id rounds c) := by
  induction rounds generalizing c with
  | zero => exact .refl _
  | succ rounds ih =>
    have hdeliver := (ReadStep.delivered c id).path
    have hcomplete := readPath_completeRead hd hstays (c.deliver id).2 id
    rw [readRounds]
    simp only
    split
    · exact hdeliver
    · split
      · exact (hdeliver.trans hcomplete).trans (ih _)
      · exact hdeliver.trans hcomplete

theorem readPath_drainWith (c : Connection) (id : ChannelId) :
    ReadPath c (drainWith drainFull c id) :=
  readPath_readRounds hd hstays id _ c

end

theorem readPath_resume (c : Connection) (id : ChannelId) : ReadPath c (c.resume id) := by
  rw [resume]
  split
  · exact .refl _
  next ch h =>
    split
    · exact .refl _
    next hfree =>
      simp only [Bool.or_eq_true, not_or, Bool.not_eq_true] at hfree
      have hfire := (ReadStep.completed c id (isOpen_iff.mpr ⟨ch, h, hfree.1⟩)).path
      dsimp only
      split
      · exact hfire.trans (readPath_drainWith (fun c => .refl c)
          (fun h ho _ => isOpen_iff.mpr ⟨_, h, ho⟩) _ id)
      · exact hfire

theorem readPath_drainBatch (c : Connection) : ReadPath c c.drainBatch := by
  have hbegin := (ReadStep.drainBegun c).path
  rw [drainBatch]
  dsimp only
  split
  · exact hbegin.tail (.drainFinished _)
  · exact ((hbegin.trans (.foldl resume readPath_resume _ _)).tail (.drainFinished _)).tail
      (.swept _)

theorem readPath_drain (c : Connection) (id : ChannelId) : ReadPath c (c.drain id) :=
  readPath_drainWith readPath_drainBatch isOpen_drainBatch c id

theorem readPath_beginRead (c : Connection) (id : ChannelId) : ReadPath c (c.beginRead id) := by
  have hask := (ReadStep.requested c id).path
  rw [beginRead]
  split
  · exact .refl _
  · split
    · exact .refl _
    · dsimp only
      split
      · exact hask.trans (readPath_drain _ id)
      · exact hask

theorem readPath_setAutoRead (c : Connection) (id : ChannelId) (on : Bool) :
    ReadPath c (c.setAutoRead id on) := by
  have hset := (ReadStep.automated c id on).path
  rw [setAutoRead]
  split
  · exact .refl _
  · dsimp only
    split
    · exact (hset.tail (.requested _ id)).trans (readPath_drain _ id)
    · exact hset

/-- What follows on the arrival of an item. -/
theorem readPath_receive (c : Connection) (id : ChannelId) (ch : Channel) (item : Inbound) :
    ReadPath { c with channels := c.channels.insert id (ch.receive item) }
      (c.receive id ch item) := by
  rw [receive]
  split
  · exact .refl _
  · exact readPath_drain _ id

theorem readPath_readCycleEnded (c : Connection) : ReadPath c c.readCycleEnded :=
  (readPath_drainBatch c).tail (.cycleEnded _)

end Connection

/-! ## What reading leaves alone -/

/-- A channel without what reading changes of it. -/
def Channel.unread (ch : Channel) : Channel :=
  { ch with
    demand := .idle, inbound := [], budget := 0, batched := false, autoRead := false,
    inboundClosed := false, endReported := false, unflushed := false, initiator := none }

/-- Two channels differ at most in what reading changes. -/
def Channel.Alike (ch ch' : Channel) : Prop := ch'.unread = ch.unread

namespace Channel.Alike

variable {ch ch' : Channel}

theorem refl (ch : Channel) : ch.Alike ch := rfl

theorem eq (h : ch.Alike ch') : ch'.unread = ch.unread := h

theorem stream (h : ch.Alike ch') : ch'.stream = ch.stream := (congrArg Channel.stream h.eq :)

theorem closed (h : ch.Alike ch') : ch'.closed = ch.closed := (congrArg Channel.closed h.eq :)

theorem handshake (h : ch.Alike ch') : ch'.handshake = ch.handshake :=
  (congrArg Channel.handshake h.eq :)

theorem parked (h : ch.Alike ch') : ch'.parked = ch.parked := (congrArg Channel.parked h.eq :)

end Channel.Alike

namespace Connection

variable {c c' d : Connection} {id : ChannelId} {ch ch' : Channel}

/-- Nothing has changed but the reading side of channels, and of the connection. -/
structure Quiet (c c' : Connection) : Prop where
  config : c'.config = c.config
  registry : c'.registry = c.registry
  ledger : c'.ledger = c.ledger
  inflight : c'.inflight = c.inflight
  nextWrite : c'.nextWrite = c.nextWrite
  nextChannel : c'.nextChannel = c.nextChannel
  tasks : c'.tasks = c.tasks
  channels : c.channels.Matches Channel.Alike c'.channels

namespace Quiet

theorem refl (c : Connection) : Quiet c c :=
  ⟨rfl, rfl, rfl, rfl, rfl, rfl, rfl, .refl Channel.Alike.refl _⟩

theorem insert (h : c.channels.get? id = some ch) (ch' : Channel) (hch : ch.Alike ch')
    (journal : Journal) :
    Quiet c { c with channels := c.channels.insert id ch', journal := journal } :=
  ⟨rfl, rfl, rfl, rfl, rfl, rfl, rfl, .insert Channel.Alike.refl h hch⟩

theorem update (c : Connection) (id : ChannelId) {f : Channel → Channel}
    (hf : ∀ ch : Channel, ch.Alike (f ch)) : Quiet c (c.updateChannel id f) :=
  ⟨rfl, rfl, rfl, rfl, rfl, rfl, rfl, .modify Channel.Alike.refl _ _ fun ch _ => hf ch⟩

end Quiet

theorem alike_requestRead (ch : Channel) (budget : Nat) : ch.Alike (ch.requestRead budget) := by
  rw [Channel.requestRead]
  split <;> rfl

theorem alike_receive (ch : Channel) (item : Inbound) : ch.Alike (ch.receive item) := by
  rw [Channel.receive]
  dsimp only
  split <;> rfl

/-- A step of reading is quiet, or quiet up to the closing of a channel at its end. -/
theorem ReadStep.quiet_or_closes (h : ReadStep c c') :
    Quiet c c' ∨ ∃ d id, Quiet c d ∧ c' = d.close id .remote := by
  cases h with
  | requested id => exact .inl (.update c id fun ch => alike_requestRead ch _)
  | automated id on => exact .inl (.update c id fun _ => rfl)
  | completed id =>
    refine .inl ?_
    cases h : c.channels.get? id with
    | none => rw [fireReadComplete, h]; exact .refl c
    | some ch => rw [fireReadComplete_eq h]; exact .insert h _ (by rfl) _
  | queued hq =>
    exact .inl ⟨rfl, rfl, rfl, rfl, rfl, rfl, rfl, .modify Channel.Alike.refl _ _ fun _ _ => rfl⟩
  | drainBegun | drainFinished | cycleEnded =>
    exact .inl ⟨rfl, rfl, rfl, rfl, rfl, rfl, rfl, .refl Channel.Alike.refl _⟩
  | swept =>
    exact .inl ⟨rfl, rfl, rfl, rfl, rfl, rfl, rfl, .mapEntries _ fun _ _ => rfl⟩
  | delivered id =>
    have hdelivery := delivery c id
    generalize (c.deliver id).1 = n at hdelivery
    generalize (c.deliver id).2 = d at hdelivery ⊢
    cases hdelivery with
    | refused _ => exact .inl (.refl c)
    | handed h _ _ _ _ => exact .inl (.insert h _ (by rfl) _)
    | closed h _ _ _ _ _ => exact .inr ⟨_, id, .insert h _ (by rfl) _, rfl⟩

/-- What quiet steps and closing keep, reading keeps. -/
theorem ReadPath.induction {P : Connection → Prop} (quiet : ∀ c d, Quiet c d → P c → P d)
    (close : ∀ c id, P c → P (c.close id .remote)) (h : ReadPath c c') (hc : P c) : P c' := by
  induction h with
  | refl => exact hc
  | tail _ hstep ih =>
    rcases hstep.quiet_or_closes with hq | ⟨d, id, hq, rfl⟩
    · exact quiet _ _ hq ih
    · exact close d id (quiet _ _ hq ih)

end Connection

end ChannelMux
