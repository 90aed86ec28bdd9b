import ChannelMux.Proofs.Reads

/-!
# Tally steps: what completes has delivered

A read completes when it has delivered something, at once or when the batch is drained in which it
waits.  The steps of reading do not say so, since the reason lies in the past: it is the tally of
the channel that shows that its current read has delivered an item.  A `TallyStep` is a step of
reading that knows this.  What was delivered just now may have to wait for the batch to be drained,
so it matters that draining the batch does nothing to a channel that does not wait in it.
-/

namespace ChannelMux

namespace Connection

variable {c c' d : Connection} {id j : ChannelId} {ch : Channel}

/-- Whoever waits in the batch was given something by the read that waits. -/
def Earned (c : Connection) : Prop :=
  ∀ id ch, c.channels.get? id = some ch → ch.closed = false → ch.batched = true →
    0 < (c.journal.tally id).current

/-- A step of a read that is going on. -/
inductive TallyStep : Connection → Connection → Prop
  | delivered (c : Connection) (id : ChannelId) : TallyStep c (c.deliver id).2
  | completed {c : Connection} {id : ChannelId} :
      c.isOpen id = true → 0 < (c.journal.tally id).current → TallyStep c (c.fireReadComplete id)
  | queued {c : Connection} {id : ChannelId} {batch : ReadBatch} :
      c.batch.enqueue id = (.queued, batch) → 0 < (c.journal.tally id).current →
      TallyStep c ({ c with batch := batch }.updateChannel id fun ch => { ch with batched := true })
  | drainBegun (c : Connection) : TallyStep c { c with batch := c.batch.beginDrain.2 }
  | drainFinished (c : Connection) : TallyStep c { c with batch := c.batch.finishDrain }
  | swept (c : Connection) :
      TallyStep c { c with channels := c.channels.mapEntries fun _ => flushed }.flush
  | cycleEnded (c : Connection) : TallyStep c { c with reading := false }

def TallyPath : Connection → Connection → Prop := Relation.ReflTransGen TallyStep

theorem TallyStep.readStep (h : TallyStep c d) : ReadStep c d := by
  cases h with
  | delivered id => exact .delivered c id
  | completed ho => exact .completed c _ ho
  | queued hq => exact .queued hq
  | drainBegun => exact .drainBegun c
  | drainFinished => exact .drainFinished c
  | swept => exact .swept c
  | cycleEnded => exact .cycleEnded c

namespace TallyPath

theorem refl (c : Connection) : TallyPath c c := Relation.ReflTransGen.refl

theorem trans (h : TallyPath c c') (h' : TallyPath c' d) : TallyPath c d :=
  Relation.ReflTransGen.trans h h'

theorem tail (h : TallyPath c c') (h' : TallyStep c' d) : TallyPath c d :=
  Relation.ReflTransGen.tail h h'

end TallyPath

theorem TallyStep.path (h : TallyStep c d) : TallyPath c d := Relation.ReflTransGen.single h

/-! ## What is delivered and completed -/

/-- A delivery gives as many items to one channel as it says, and none to another. -/
theorem hands_deliver (c : Connection) (id : ChannelId) :
    c.journal.Hands id (c.deliver id).1 (c.deliver id).2.journal := by
  have hdelivery := delivery c id
  generalize (c.deliver id).1 = n at hdelivery ⊢
  generalize (c.deliver id).2 = d at hdelivery ⊢
  cases hdelivery with
  | refused => exact .of_apart (.refl _)
  | handed _ _ _ hhands => exact hhands
  | @closed ch _ reported journal h hr _ hhands =>
    refine hhands.apart ?_
    have hopen : (ch.handed n reported).closed = false := hr.opened
    obtain ⟨_, _, _, _, heq, -, hapart⟩ :=
      close_eq (get?_handed c id ch n reported journal) hopen .remote
    rw [heq]
    exact hapart

/-- A channel that is open after a delivery wants to read as it did, and waits in the batch if it
did. -/
theorem back_deliver {ch' : Channel} (hch' : (c.deliver id).2.channels.get? j = some ch')
    (ho : ch'.closed = false) :
    ∃ ch, c.channels.get? j = some ch ∧ ch.closed = false ∧ ch'.batched = ch.batched ∧
      ch'.autoRead = ch.autoRead ∧ ch'.demand = ch.demand := by
  by_cases hj : j = id
  · subst hj
    have hdelivery := delivery c j
    generalize (c.deliver j).1 = n at hdelivery
    generalize (c.deliver j).2 = d at hdelivery hch'
    cases hdelivery with
    | refused => exact ⟨ch', hch', ho, rfl, rfl, rfl⟩
    | @handed ch _ _ _ _ h hr =>
      obtain rfl := Option.some.inj ((Table.get?_insert_self ..).symm.trans hch')
      exact ⟨ch, h, hr.opened, rfl, rfl, rfl⟩
    | @closed ch _ reported journal =>
      have hshut := isOpen_close_self (c.handed j ch n reported journal) j .remote
      rw [isOpen_of_get? hch', ho] at hshut
      cases hshut
  · exact ⟨ch', (get?_deliver_of_ne hj).symm.trans hch', ho, rfl, rfl, rfl⟩

theorem tally_fireReadComplete (c : Connection) (id j : ChannelId) :
    (c.fireReadComplete id).journal.tally j = if j = id ∧ (c.channels.get? id).isSome then
      (c.journal.tally j).complete else c.journal.tally j := by
  cases h : c.channels.get? id with
  | none =>
    rw [fireReadComplete, h]
    simp
  | some ch =>
    rw [fireReadComplete_eq h, Journal.tally_push]
    simp only [Option.isSome_some, and_true]
    change (if _ then _ else _) = _
    by_cases hj : j = id
    · rw [hj, if_pos rfl, if_pos rfl]
    · rw [if_neg hj, if_neg fun he => hj (congrArg Event.channel he).symm]

/-! ## Other channels -/

theorem tally_deliver_of_ne (hj : j ≠ id) :
    (c.deliver id).2.journal.tally j = c.journal.tally j :=
  (hands_deliver c id j).trans (if_neg hj)

theorem tally_fireReadComplete_of_ne (hj : j ≠ id) :
    (c.fireReadComplete id).journal.tally j = c.journal.tally j :=
  (tally_fireReadComplete c id j).trans (if_neg fun h => hj h.1)

/-- While the batch is drained, nothing is told when a read waits. -/
theorem journal_joinBatch (c : Connection) (id : ChannelId) :
    (joinBatch (fun c => c) c id).2.journal = c.journal := by
  rcases enqueue_cases c.batch id with ⟨hq, -⟩ | ⟨hq, -⟩ | ⟨hq, -⟩
  · rw [joinBatch_of_queued hq]
    rfl
  · rcases joinBatch_of_full (f := fun c => c) hq with ⟨batch, -, heq⟩ | ⟨-, heq⟩
    · rw [heq]
      rfl
    · rw [heq]
  · rw [joinBatch_of_draining hq]

theorem tally_completeRead_of_ne (hj : j ≠ id) :
    (completeRead (fun c => c) c id).2.journal.tally j = c.journal.tally j := by
  have hjoin := journal_joinBatch c id
  rw [completeRead]
  split
  · rfl
  · split
    · rfl
    · split
      next waits d heq =>
        have hd : d.journal = c.journal := by
          split at heq
          · rw [heq] at hjoin
            exact hjoin
          · rw [← (Prod.mk.inj heq).2]
        split
        · rw [hd]
        · rw [tally_fireReadComplete_of_ne hj, hd]

theorem tally_readRounds_of_ne (hj : j ≠ id) (rounds : Nat) :
    (readRounds (fun c => c) id rounds c).journal.tally j = c.journal.tally j := by
  induction rounds generalizing c with
  | zero => rfl
  | succ rounds ih =>
    have hdelivered := tally_deliver_of_ne (c := c) hj
    have hcompleted := (tally_completeRead_of_ne (c := (c.deliver id).2) hj).trans hdelivered
    rw [readRounds]
    dsimp only
    split
    · exact hdelivered
    · split
      · exact ih.trans hcompleted
      · exact hcompleted

theorem tally_resume_of_ne (hj : j ≠ id) : (c.resume id).journal.tally j = c.journal.tally j := by
  rw [resume]
  split
  · rfl
  · split
    · rfl
    · dsimp only
      split
      · exact (tally_readRounds_of_ne hj _).trans (tally_fireReadComplete_of_ne hj)
      · exact tally_fireReadComplete_of_ne hj

/-- Draining the batch gives nothing to a channel whose read does not wait. -/
theorem tally_drainBatch (h : c.channels.get? id = some ch) (hb : ch.batched = false) :
    c.drainBatch.journal.tally id = c.journal.tally id := by
  have hspared (ids : List ChannelId) (d : Connection) (hd : d.channels.get? id = some ch) :
      (ids.foldl resume d).journal.tally id = d.journal.tally id := by
    induction ids generalizing d with
    | nil => rfl
    | cons i ids ih =>
      rw [List.foldl_cons]
      by_cases hi : id = i
      · subst hi
        rw [resume_of_unbatched hd hb]
        exact ih d hd
      · exact (ih _ ((get?_resume_of_ne hi).trans hd)).trans (tally_resume_of_ne hi)
  rw [drainBatch]
  dsimp only
  split
  · rfl
  · refine (Journal.Apart.tally_eq (Journal.Apart.push (.refl _) (by rfl)) id).trans ?_
    exact hspared c.batch.beginDrain.1 { c with batch := c.batch.beginDrain.2 } h

/-! ## What has been earned -/

namespace Earned

/-- Nobody joins the batch, and nothing is taken back. -/
theorem of_back (hc : c.Earned)
    (htally : ∀ id, (c.journal.tally id).current ≤ (d.journal.tally id).current)
    (hback : ∀ id ch', d.channels.get? id = some ch' → ch'.closed = false → ch'.batched = true →
      ∃ ch, c.channels.get? id = some ch ∧ ch.closed = false ∧ ch.batched = true) : d.Earned := by
  intro id ch' hch' ho hb
  obtain ⟨ch, hch, ho, hb⟩ := hback id ch' hch' ho hb
  exact Nat.lt_of_lt_of_le (hc id ch hch ho hb) (htally id)

theorem delivered (hc : c.Earned) (id : ChannelId) : (c.deliver id).2.Earned := by
  refine hc.of_back ?_ ?_
  · intro i
    rw [hands_deliver c id i]
    split
    · rw [Tally.current_advance]
      omega
    · exact Nat.le_refl _
  · intro i ch' hch' ho hb
    obtain ⟨ch, hch, ho, hbatched, -⟩ := back_deliver hch' ho
    exact ⟨ch, hch, ho, hbatched.symm.trans hb⟩

theorem completed (hc : c.Earned) (id : ChannelId) : (c.fireReadComplete id).Earned := by
  intro i ch' hch' ho hb
  by_cases hi : i = id
  · subst hi
    cases h : c.channels.get? i with
    | none =>
      rw [fireReadComplete, h] at hch' ⊢
      exact hc i ch' hch' ho hb
    | some ch =>
      rw [fireReadComplete_eq h] at hch'
      obtain rfl := Option.some.inj ((Table.get?_insert_self ..).symm.trans hch')
      cases hb
  · rw [tally_fireReadComplete_of_ne hi]
    exact hc i ch' ((get?_fireReadComplete_of_ne hi).symm.trans hch') ho hb

theorem tallyStep (hc : c.Earned) (h : TallyStep c d) : d.Earned := by
  cases h with
  | delivered id => exact hc.delivered id
  | completed => exact hc.completed _
  | @queued id batch _ hpos =>
    intro i ch' hch' ho hb
    by_cases hi : i = id
    · exact hi ▸ hpos
    · exact hc i ch' ((get?_updateChannel_of_ne hi _).symm.trans hch') ho hb
  | drainBegun | drainFinished | cycleEnded => exact hc
  | swept =>
    refine hc.of_back (fun i => ?_) fun i ch' hch' ho hb => ?_
    · have hflushed : c.journal.Apart (c.journal.push (.wire none ⟨.flush, none⟩)) :=
        (Journal.Apart.refl _).push rfl
      exact Nat.le_of_eq (congrArg Tally.current (hflushed.tally_eq i).symm)
    · have hmapped : (c.channels.get? i).map flushed = some ch' :=
        (Table.get?_mapEntries ..).symm.trans hch'
      obtain ⟨ch, hch, rfl⟩ := Option.map_eq_some_iff.mp hmapped
      exact ⟨ch, hch, ho, hb⟩

theorem tallyPath (hc : c.Earned) (h : TallyPath c d) : d.Earned := by
  induction h with
  | refl => exact hc
  | tail _ hstep ih => exact ih.tallyStep hstep

end Earned

theorem tallyPath_foldl (f : Connection → ChannelId → Connection)
    (hf : ∀ c id, c.Earned → TallyPath c (f c id)) (ids : List ChannelId) (hc : c.Earned) :
    TallyPath c (ids.foldl f c) := by
  induction ids generalizing c with
  | nil => exact .refl c
  | cons id ids ih => exact (hf c id hc).trans (ih (hc.tallyPath (hf c id hc)))

/-! ## What is made of tally steps -/

section

variable {drainFull : Connection → Connection} (hd : ∀ c, c.Earned → TallyPath c (drainFull c))
  (hspares : ∀ {c : Connection} {id : ChannelId} {ch : Channel}, c.channels.get? id = some ch →
    ch.closed = false → ch.batched = false →
      (drainFull c).isOpen id = true ∧ (drainFull c).journal.tally id = c.journal.tally id)
include hd hspares

/-- A read that does not wait after all can still be completed. -/
theorem tallyPath_joinBatch (hc : c.Earned) (h : c.channels.get? id = some ch)
    (ho : ch.closed = false) (hb : ch.batched = false)
    (hpos : 0 < (c.journal.tally id).current) :
    TallyPath c (joinBatch drainFull c id).2 ∧ ((joinBatch drainFull c id).1 = false →
      (joinBatch drainFull c id).2.isOpen id = true ∧
        0 < ((joinBatch drainFull c id).2.journal.tally id).current) := by
  obtain ⟨hopen, htally⟩ := hspares h ho hb
  rcases enqueue_cases c.batch id with ⟨hq, -⟩ | ⟨hq, -⟩ | ⟨hq, -⟩
  · rw [joinBatch_of_queued hq]
    exact ⟨(TallyStep.queued hq hpos).path, fun h => Bool.noConfusion h⟩
  · rw [← htally] at hpos
    rcases joinBatch_of_full (f := drainFull) hq with ⟨batch, hq', heq⟩ | ⟨-, heq⟩
    · rw [heq]
      exact ⟨(hd c hc).tail (.queued hq' hpos), fun h => Bool.noConfusion h⟩
    · rw [heq]
      exact ⟨hd c hc, fun _ => ⟨hopen, hpos⟩⟩
  · rw [joinBatch_of_draining hq]
    exact ⟨.refl c, fun _ => ⟨isOpen_iff.mpr ⟨ch, h, ho⟩, hpos⟩⟩

theorem tallyPath_completeRead (hc : c.Earned) (hpos : 0 < (c.journal.tally id).current) :
    TallyPath c (completeRead drainFull c id).2 := by
  rw [completeRead]
  split
  · exact .refl c
  next ch h =>
    split
    · exact .refl c
    next hfree =>
      simp only [Bool.or_eq_true, not_or, Bool.not_eq_true] at hfree
      obtain ⟨hpath, hstill⟩ := tallyPath_joinBatch hd hspares hc h hfree.1 hfree.2 hpos
      split
      next waits d heq =>
        have hwaits : TallyPath c d ∧ (waits = false →
            d.isOpen id = true ∧ 0 < (d.journal.tally id).current) := by
          split at heq
          · rw [heq] at hpath hstill
            exact ⟨hpath, hstill⟩
          · rw [← (Prod.mk.inj heq).2]
            exact ⟨.refl c, fun _ => ⟨isOpen_iff.mpr ⟨ch, h, hfree.1⟩, hpos⟩⟩
        split
        · exact hwaits.1
        next hnot =>
          obtain ⟨ho, hpos⟩ := hwaits.2 (Bool.not_eq_true _ ▸ hnot)
          exact hwaits.1.tail (.completed ho hpos)

theorem tallyPath_readRounds (hc : c.Earned) (id : ChannelId) (rounds : Nat) :
    TallyPath c (readRounds drainFull id rounds c) := by
  induction rounds generalizing c with
  | zero => exact .refl c
  | succ rounds ih =>
    have hdelivered := (TallyStep.delivered c id).path
    rw [readRounds]
    dsimp only
    split
    · exact hdelivered
    next hsome =>
      have hpos : 0 < ((c.deliver id).2.journal.tally id).current := by
        rw [hands_deliver c id id, if_pos rfl, Tally.current_advance]
        omega
      have hcompleted := hdelivered.trans
        (tallyPath_completeRead hd hspares (hc.tallyPath hdelivered) hpos)
      split
      · exact hcompleted.trans (ih (hc.tallyPath hcompleted))
      · exact hcompleted

theorem tallyPath_drainWith (hc : c.Earned) (id : ChannelId) :
    TallyPath c (drainWith drainFull c id) :=
  tallyPath_readRounds hd hspares hc id _

end

theorem tallyPath_resume (hc : c.Earned) (id : ChannelId) : TallyPath c (c.resume id) := by
  rw [resume]
  split
  · exact .refl c
  next ch h =>
    split
    · exact .refl c
    next hfree =>
      simp only [Bool.or_eq_true, not_or, Bool.not_eq_true, Bool.not_eq_false'] at hfree
      have hfired : TallyPath c (c.fireReadComplete id) :=
        (TallyStep.completed (isOpen_iff.mpr ⟨ch, h, hfree.1⟩) (hc id ch h hfree.1 hfree.2)).path
      dsimp only
      split
      · exact hfired.trans (tallyPath_drainWith (fun c _ => .refl c)
          (fun h ho _ => ⟨isOpen_iff.mpr ⟨_, h, ho⟩, rfl⟩) (hc.tallyPath hfired) id)
      · exact hfired

theorem tallyPath_drainBatch (hc : c.Earned) : TallyPath c c.drainBatch := by
  have hbegun := (TallyStep.drainBegun c).path
  rw [drainBatch]
  dsimp only
  split
  · exact hbegun.tail (.drainFinished _)
  · have hresumed := hbegun.trans
      (tallyPath_foldl resume (fun _ id h => tallyPath_resume h id) c.batch.beginDrain.1
        (hc.tallyPath hbegun))
    exact (hresumed.tail (.drainFinished _)).tail (.swept _)

theorem tallyPath_drain (hc : c.Earned) (id : ChannelId) : TallyPath c (c.drain id) :=
  tallyPath_drainWith (fun _ h => tallyPath_drainBatch h)
    (fun h ho hb => ⟨isOpen_drainBatch h ho hb, tally_drainBatch h hb⟩) hc id

theorem tallyPath_readCycleEnded (hc : c.Earned) : TallyPath c c.readCycleEnded :=
  (tallyPath_drainBatch hc).tail (.cycleEnded _)

end Connection

end ChannelMux
