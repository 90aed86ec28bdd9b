import ChannelMux.Proofs.ReadEffects

/-!
# Pacing: nothing is delivered that was not asked for

One read delivers at most as many items as the configuration allows, and it completes after it has
delivered one.  Both are laws about an entry of the journal and those before it (`Entry.InPace`).

A channel that does not read by itself reads when it is asked to.  Its demand says how many reads it
still owes, and each of them completes once; so there are never more completions than requests
(`Connection.Afforded`).
-/

namespace ChannelMux

/-! ## The pace of a history -/

namespace Entry

/-- An item is delivered to the channel. -/
def deliversTo (id : ChannelId) : Entry → Bool
  | delivered j _ => j = id
  | wire .. | event _ | closed _ => false

/-- A read of the channel is completed. -/
def completion (id : ChannelId) : Entry := event ⟨id, .readComplete⟩

/-- How many items were delivered to a channel since a read of it was completed. -/
def sinceCompletion (id : ChannelId) (es : List Entry) : Nat :=
  (es.foldl (Entry.tally id) {}).current

/-- A read delivers no more items than the limit, and it completes after it has delivered one. -/
def InPace (limit : Nat) (es : List Entry) : Entry → Prop
  | delivered id _ => sinceCompletion id es < limit
  | event e => e.what = .readComplete → 0 < sinceCompletion e.channel es
  | wire .. | closed _ => True

variable {id : ChannelId} {es fs : List Entry} {limit : Nat}

theorem sinceCompletion_concat (id : ChannelId) (es : List Entry) (e : Entry) :
    sinceCompletion id (es ++ [e]) = if e = completion id then 0
      else sinceCompletion id es + if e.deliversTo id then 1 else 0 := by
  rw [sinceCompletion, List.foldl_append, List.foldl_cons, List.foldl_nil]
  cases e with
  | wire | closed => rfl
  | delivered j item =>
    by_cases hj : j = id
    · simp [Entry.tally, completion, deliversTo, hj, Tally.deliver, sinceCompletion]
    · simp [Entry.tally, completion, deliversTo, hj, sinceCompletion]
  | event e =>
    by_cases he : e = ⟨id, .readComplete⟩
    · simp [Entry.tally, completion, he, Tally.complete]
    · simp [Entry.tally, completion, deliversTo, he, sinceCompletion]

/-- Where no read completes, what is delivered adds up. -/
theorem sinceCompletion_append (hnone : completion id ∉ fs) :
    sinceCompletion id (es ++ fs) = sinceCompletion id es + fs.countP (deliversTo id) := by
  induction fs using List.reverseRecOn with
  | nil => simp
  | append_singleton fs e ih =>
    rw [List.mem_append, not_or, List.mem_singleton] at hnone
    rw [← List.append_assoc, sinceCompletion_concat, if_neg (Ne.symm hnone.2), ih hnone.1,
      List.countP_append, List.countP_singleton]
    omega

/-- If something was delivered since a read completed, there was a last delivery. -/
theorem exists_delivered (hpos : 0 < sinceCompletion id es) :
    ∃ xs item ys, es = xs ++ delivered id item :: ys ∧ completion id ∉ ys := by
  induction es using List.reverseRecOn with
  | nil => cases hpos
  | append_singleton es e ih =>
    rw [sinceCompletion_concat] at hpos
    split at hpos
    · cases hpos
    next hnot =>
      by_cases he : e.deliversTo id = true
      · cases e with
        | delivered j item =>
          obtain rfl : j = id := of_decide_eq_true he
          exact ⟨es, item, [], rfl, List.not_mem_nil⟩
        | wire | event | closed => cases he
      · rw [if_neg he] at hpos
        obtain ⟨xs, item, ys, rfl, hys⟩ := ih hpos
        refine ⟨xs, item, ys ++ [e], List.append_assoc .., ?_⟩
        rw [List.mem_append, not_or, List.mem_singleton]
        exact ⟨hys, Ne.symm hnot⟩

theorem inPace_of_not_isReading {e : Entry} (h : e.isReading = false) : e.InPace limit es := by
  cases e with
  | wire | closed => trivial
  | delivered => cases h
  | event e =>
    intro hwhat
    exact absurd (decide_eq_true hwhat) (Bool.eq_false_iff.mp h)

end Entry

namespace Journal

variable {j j' : Journal} {id : ChannelId} {limit : Nat} {es : List Entry}

/-- How often a read of the channel was completed. -/
def completed (j : Journal) (id : ChannelId) : Nat := j.entries.count (.completion id)

/-- How many items were delivered to the channel. -/
def served (j : Journal) (id : ChannelId) : Nat := j.entries.countP (Entry.deliversTo id)

/-- A read never delivers more than its limit, and so all reads together deliver no more than the
limit for each that was completed and what the last one has delivered. -/
theorem Obeys.served_le (h : j.Obeys (Entry.InPace limit)) (id : ChannelId)
    (hes : es <+: j.entries) :
    Entry.sinceCompletion id es ≤ limit ∧ es.countP (Entry.deliversTo id) ≤
      limit * es.count (.completion id) + Entry.sinceCompletion id es := by
  induction es using List.reverseRecOn with
  | nil => exact ⟨Nat.zero_le _, Nat.zero_le _⟩
  | append_singleton es e ih =>
    obtain ⟨hlimit, hserved⟩ := ih ((List.prefix_append es [e]).trans hes)
    obtain ⟨zs, hzs⟩ := hes
    have hlaw : e.InPace limit es := h es e zs (by rw [← hzs, List.append_assoc]; rfl)
    rw [Entry.sinceCompletion_concat, List.countP_append, List.countP_singleton, List.count_append,
      List.count_singleton]
    by_cases hcompletion : e = .completion id
    · subst hcompletion
      have hnot : (Entry.completion id).deliversTo id = false := rfl
      simp only [hnot, if_true, Bool.false_eq_true, if_false, beq_self_eq_true, Nat.add_zero,
        Nat.mul_add, Nat.mul_one]
      omega
    · have hbeq : (e == Entry.completion id) = false := by simpa using hcompletion
      rw [if_neg hcompletion]
      by_cases hdelivers : e.deliversTo id = true
      · cases e with
        | delivered i item =>
          obtain rfl : i = id := of_decide_eq_true hdelivers
          have hroom : Entry.sinceCompletion i es < limit := hlaw
          simp only [hdelivers, if_true, hbeq, Bool.false_eq_true, if_false, Nat.add_zero]
          omega
        | wire | event | closed => cases hdelivers
      · simp only [hdelivers, Bool.false_eq_true, if_false, hbeq, Nat.add_zero]
        omega

/-- Where nothing is read, the pace is kept. -/
theorem Obeys.apart (h : j.Obeys (Entry.InPace limit)) (h' : j.Apart j') :
    j'.Obeys (Entry.InPace limit) :=
  h.continued h' fun _ _ he => Entry.inPace_of_not_isReading he

theorem completed_push (j : Journal) (e : Entry) (id : ChannelId) :
    (j.push e).completed id = j.completed id + if e = .completion id then 1 else 0 := by
  rw [completed, completed, entries_push, List.count_append, List.count_singleton]
  simp only [beq_iff_eq]

theorem Apart.completed_eq (h : j.Apart j') (id : ChannelId) :
    j'.completed id = j.completed id := by
  obtain ⟨es, hes, hall⟩ := h
  have hnone : es.count (.completion id) = 0 := by
    rw [List.count_eq_zero]
    intro hmem
    exact absurd (hall _ hmem) (by simp [Entry.completion, Entry.isReading])
  rw [completed, completed, hes, List.count_append, hnone, Nat.add_zero]

end Journal

/-- How many reads a channel still owes. -/
def Demand.reads : Demand → Nat
  | idle => 0
  | inProgress => 1
  | requested => 2

/-- The call asks the channel to read. -/
def Call.begins (id : ChannelId) : Call → Bool
  | beginRead j => j = id
  | _ => false

namespace Connection

variable {c d : Connection} {id : ChannelId}

/-! ## The pace of reads -/

/-- A delivery tells of items and of nothing that is completed. -/
theorem apart_handOver (c : Connection) (id : ChannelId) (stream : StreamId) (item : Inbound)
    (rest : List Inbound) :
    (c.journal.push (.delivered id item)).Apart (c.handOver id stream item rest).journal := by
  have hended (d : Connection) (reports : Bool)
      (hd : (c.journal.push (.delivered id item)).Apart d.journal) :
      (c.journal.push (.delivered id item)).Apart
        (if reports then d.emit id (.remoteClosed .endOfStream) else d).journal := by
    cases reports with
    | false => exact hd
    | true => exact hd.push rfl
  cases item with
  | data payload endStream => exact hended _ _ (((Journal.Apart.refl _).push rfl).push rfl)
  | trailers => exact hended _ _ (.refl _)

theorem apart_settle (c : Connection) (id : ChannelId) :
    c.journal.Apart (c.settle id).journal := by
  cases h : c.channels.get? id with
  | none =>
    rw [settle, h]
    exact .refl _
  | some ch =>
    rcases settle_eq h with ⟨-, heq⟩ | ⟨-, _, _, heq, hapart⟩
    · rw [heq]
      exact (close_unmoved c id .remote).2.2
    · rw [heq]
      exact hapart

/-- Items are delivered one by one while the budget lasts, and no read completes meanwhile. -/
theorem paced_deliverItems {limit budget : Nat} {items : List Inbound} (stream : StreamId)
    (h : c.journal.Obeys (Entry.InPace limit))
    (hroom : items ≠ [] → budget + (c.journal.tally id).current ≤ limit)
    (hbudget : budget = 0 → items = []) :
    (deliverItems id stream budget items c).2.journal.Obeys (Entry.InPace limit) ∧
      ∀ i, (deliverItems id stream budget items c).2.journal.completed i =
        c.journal.completed i := by
  induction items generalizing c budget with
  | nil => exact ⟨h.apart (apart_settle c id), (apart_settle c id).completed_eq⟩
  | cons item rest ih =>
    have hpos : budget ≠ 0 := fun hz => List.cons_ne_nil item rest (hbudget hz)
    have hroom := hroom (List.cons_ne_nil item rest)
    have hlaw : (Entry.delivered id item).InPace limit c.journal.entries := by
      change (c.journal.tally id).current < limit
      omega
    have hover := apart_handOver c id stream item rest
    have hpushed : (c.handOver id stream item rest).journal.Obeys (Entry.InPace limit) :=
      (h.push hlaw).apart hover
    have hcompleted (i : ChannelId) : (c.handOver id stream item rest).journal.completed i =
        c.journal.completed i := by
      have hnot : ¬ Entry.delivered id item = .completion i := by
        intro he
        cases he
      rw [hover.completed_eq, Journal.completed_push, if_neg hnot, Nat.add_zero]
    rw [deliverItems]
    dsimp only
    split
    · exact ⟨hpushed, hcompleted⟩
    next hmore =>
      have htally : ((c.handOver id stream item rest).journal.tally id).current =
          (c.journal.tally id).current + 1 := by
        rw [hover.tally_eq, Journal.tally_push]
        change (if id = id then _ else _ : Tally).current = _
        rw [if_pos rfl]
        rfl
      have hleft : budget - 1 + ((c.handOver id stream item rest).journal.tally id).current ≤
          limit := by
        rw [htally]
        omega
      obtain ⟨hobeys, hnone⟩ := ih hpushed (fun _ => hleft) fun hz => absurd hz (by omega)
      exact ⟨hobeys, fun i => (hnone i).trans (hcompleted i)⟩

theorem paced_deliver (hc : c.Counted)
    (h : c.journal.Obeys (Entry.InPace c.config.messagesPerRead)) (id : ChannelId) :
    (c.deliver id).2.journal.Obeys (Entry.InPace c.config.messagesPerRead) ∧
      ∀ i, (c.deliver id).2.journal.completed i = c.journal.completed i := by
  rw [deliver]
  split
  · exact ⟨h, fun _ => rfl⟩
  next ch hch =>
    split
    · exact ⟨h, fun _ => rfl⟩
    next hguard =>
      rw [not_or, not_or, Bool.not_eq_true] at hguard
      obtain ⟨ho, hwanted, hallowed⟩ := hguard
      have hsum := (hc.channels id ch hch ho).reading hwanted
      exact paced_deliverItems ch.stream h (fun _ => Nat.le_of_eq hsum) fun hz =>
        by_contra fun hne => hallowed ⟨hz, hne⟩

/-- Reads keep their pace, and those that wait have delivered something. -/
structure Paced (c : Connection) : Prop where
  obeys : c.journal.Obeys (Entry.InPace c.config.messagesPerRead)
  earned : c.Earned

namespace Paced

theorem tallyStep (hp : c.Paced) (hc : c.Counted) (h : TallyStep c d) : d.Paced := by
  refine ⟨?_, hp.earned.tallyStep h⟩
  rw [h.config]
  cases h with
  | delivered id => exact (paced_deliver hc hp.obeys id).1
  | @completed id ho hpos =>
    obtain ⟨ch, hch, -⟩ := isOpen_iff.mp ho
    rw [fireReadComplete_eq hch]
    exact hp.obeys.push fun _ => hpos
  | queued | drainBegun | drainFinished | cycleEnded => exact hp.obeys
  | swept => exact hp.obeys.push trivial

theorem steady (hp : c.Paced) (h : Steady c d) : d.Paced :=
  ⟨h.config.symm ▸ hp.obeys.apart h.journal, hp.earned.steady h⟩

theorem prompt {k : Call} (hp : c.Paced) (h : Prompt c k d) : d.Paced := by
  refine ⟨?_, hp.earned.prompt h⟩
  cases h with
  | steady h => exact (hp.steady h).obeys
  | begun | automated | roused => exact hp.obeys

theorem readEffect {k : Call} (hp : c.Paced) (h : ReadEffect c k d) : d.Paced := by
  cases h with
  | steady h => exact hp.steady h
  | reads hprompt ht hc hpath =>
    exact hpath.induction (P := Paced) (fun hc hstep hp => hp.tallyStep hc hstep) ht hc
      (hp.prompt hprompt)

end Paced

theorem paced_run {config : Config} {encoder : Encoder} (h : start config encoder = .ok c)
    (ks : List Call) : (c.run ks).Paced := by
  induction ks using List.reverseRecOn with
  | nil =>
    obtain rfl := (start_eq h).1
    refine ⟨fun xs e ys heq => ?_, fun _ _ hch => nomatch hch⟩
    exact absurd heq.symm (List.append_ne_nil_of_right_ne_nil xs (List.cons_ne_nil e ys))
  | append_singleton ks k ih =>
    rw [run_concat]
    exact ih.readEffect (readEffect_after (tidy_run h ks) (counted_run h ks) ih.earned k)

/-! ## Channels that read only when they are asked to -/

/-- A channel that was asked to read a number of times does not read more often: it has completed
that many reads at most, with those that it owes and with the one that has begun to deliver. -/
structure Afforded (id : ChannelId) (asked : Nat) (c : Connection) : Prop where
  manual : ∀ ch, c.channels.get? id = some ch → ch.closed = false → ch.autoRead = false
  owed : ∀ ch, c.channels.get? id = some ch → ch.closed = false →
    c.journal.completed id + ch.demand.reads ≤ asked
  begun : c.journal.completed id + min 1 (c.journal.tally id).current ≤ asked

theorem requestRead_owes (ch : Channel) (budget : Nat) :
    (ch.requestRead budget).closed = ch.closed ∧
      (ch.autoRead = false → (ch.requestRead budget).autoRead = false) ∧
      (ch.requestRead budget).demand.reads ≤ ch.demand.reads + 1 := by
  rw [Channel.requestRead]
  cases ch.demand with
  | idle => exact ⟨rfl, fun h => h, Nat.le_refl 1⟩
  | inProgress => exact ⟨rfl, fun h => h, Nat.le_refl 2⟩
  | requested => exact ⟨rfl, fun h => h, Nat.le_succ 2⟩

namespace Afforded

variable {asked : Nat}

/-- The channel owes what it owed, or nothing yet. -/
theorem of_back (h : Afforded id asked c)
    (hcompleted : d.journal.completed id = c.journal.completed id)
    (htally : (d.journal.tally id).current = (c.journal.tally id).current)
    (hback : ∀ ch', d.channels.get? id = some ch' → ch'.closed = false →
      (ch'.autoRead = false ∧ ch'.demand = .idle) ∨
        ∃ ch, c.channels.get? id = some ch ∧ ch.closed = false ∧ ch'.autoRead = ch.autoRead ∧
          ch'.demand = ch.demand) : Afforded id asked d where
  manual ch' hch' ho := by
    rcases hback ch' hch' ho with ⟨hmanual, -⟩ | ⟨ch, hch, ho, hmanual, -⟩
    · exact hmanual
    · exact hmanual.trans (h.manual ch hch ho)
  owed ch' hch' ho := by
    rcases hback ch' hch' ho with ⟨-, hidle⟩ | ⟨ch, hch, ho, -, hdemand⟩
    · rw [hcompleted, hidle]
      exact Nat.le_trans (Nat.le_add_right ..) h.begun
    · rw [hcompleted, hdemand]
      exact h.owed ch hch ho
  begun := by
    rw [hcompleted, htally]
    exact h.begun

/-- Nothing has happened to the channel. -/
theorem of_eq (h : Afforded id asked c)
    (hcompleted : d.journal.completed id = c.journal.completed id)
    (htally : d.journal.tally id = c.journal.tally id)
    (hchannel : d.channels.get? id = c.channels.get? id) : Afforded id asked d :=
  h.of_back hcompleted (congrArg Tally.current htally) fun ch' hch' ho =>
    .inr ⟨ch', hchannel ▸ hch', ho, rfl, rfl⟩

theorem steady (h : Afforded id asked c) (hmanual : c.config.autoRead = false)
    (hs : Steady c d) : Afforded id asked d := by
  refine h.of_back (hs.journal.completed_eq id) (congrArg Tally.current (hs.journal.tally_eq id)) ?_
  intro ch' hch' ho
  rcases hs.channels id ch' hch' ho with hnew | ⟨ch, hch, ho, hpaces⟩
  · exact .inl ⟨hnew.autoRead.trans hmanual, hnew.demand hmanual⟩
  · exact .inr ⟨ch, hch, ho, hpaces.autoRead, hpaces.demand⟩

theorem mono (h : Afforded id asked c) {more : Nat} (hle : asked ≤ more) : Afforded id more c where
  manual := h.manual
  owed ch hch ho := Nat.le_trans (h.owed ch hch ho) hle
  begun := Nat.le_trans h.begun hle

/-- The channel may owe as many reads more as it is asked for. -/
theorem update (h : Afforded id asked c) {f : Channel → Channel} {more : Nat}
    (hf : ∀ ch : Channel, (f ch).closed = ch.closed ∧
      (ch.autoRead = false → (f ch).autoRead = false) ∧
      (f ch).demand.reads ≤ ch.demand.reads + more) :
    Afforded id (asked + more) (c.updateChannel id f) := by
  have hback (ch' : Channel) (hch' : (c.updateChannel id f).channels.get? id = some ch') :
      ∃ ch, c.channels.get? id = some ch ∧ f ch = ch' := by
    rw [get?_updateChannel, if_pos rfl] at hch'
    exact Option.map_eq_some_iff.mp hch'
  refine ⟨?_, ?_, Nat.le_trans h.begun (Nat.le_add_right ..)⟩
  · intro ch' hch' ho
    obtain ⟨ch, hch, rfl⟩ := hback ch' hch'
    obtain ⟨hclosed, hmanual, -⟩ := hf ch
    exact hmanual (h.manual ch hch (hclosed.symm.trans ho))
  · intro ch' hch' ho
    obtain ⟨ch, hch, rfl⟩ := hback ch' hch'
    obtain ⟨hclosed, -, hreads⟩ := hf ch
    have howed := h.owed ch hch (hclosed.symm.trans ho)
    change c.journal.completed id + _ ≤ asked + more
    omega

/-- Who is given something has a read to complete. -/
theorem delivered (h : Afforded id asked c) (hc : c.Counted)
    (hobeys : c.journal.Obeys (Entry.InPace c.config.messagesPerRead)) (j : ChannelId) :
    Afforded id asked (c.deliver j).2 := by
  have hcompleted := (paced_deliver hc hobeys j).2 id
  have howed {ch : Channel} (hch : c.channels.get? j = some ch) (hr : ch.Ready) (hj : id = j) :
      c.journal.completed id + 1 ≤ asked := by
    have howed := h.owed ch (hj ▸ hch) hr.opened
    have hwanted := hr.wanted
    cases hdemand : ch.demand with
    | idle => exact absurd hdemand hwanted
    | inProgress | requested =>
      rw [hdemand, Demand.reads] at howed
      omega
  refine ⟨?_, ?_, ?_⟩
  · intro ch' hch' ho
    obtain ⟨ch, hch, ho, -, hauto, -⟩ := back_deliver hch' ho
    exact hauto.trans (h.manual ch hch ho)
  · intro ch' hch' ho
    obtain ⟨ch, hch, ho, -, -, hdemand⟩ := back_deliver hch' ho
    rw [hcompleted, hdemand]
    exact h.owed ch hch ho
  · rw [hcompleted]
    by_cases hj : id = j
    · have hdelivery := delivery c j
      generalize (c.deliver j).1 = n at hdelivery
      generalize (c.deliver j).2 = d at hdelivery ⊢
      cases hdelivery with
      | refused => exact h.begun
      | handed hch hr | closed hch hr =>
        have hbegun := howed hch hr hj
        omega
    · rw [tally_deliver_of_ne hj]
      exact h.begun

/-- What a read completes is taken from what is owed. -/
theorem completed (h : Afforded id asked c) (hc : c.Counted) {j : ChannelId}
    (ho : c.isOpen j = true) (hpos : 0 < (c.journal.tally j).current) :
    Afforded id asked (c.fireReadComplete j) := by
  obtain ⟨ch, hch, hopen⟩ := isOpen_iff.mp ho
  have hcompleted : (c.fireReadComplete j).journal.completed id =
      c.journal.completed id + if Entry.completion j = .completion id then 1 else 0 := by
    rw [fireReadComplete_eq hch]
    exact Journal.completed_push ..
  by_cases hj : id = j
  · subst hj
    have hmanual := h.manual ch hch hopen
    have howed := h.owed ch hch hopen
    have hwanted : ch.demand ≠ .idle := fun hidle =>
      Nat.ne_of_gt hpos ((hc.channels id ch hch hopen).resting hidle)
    have hreads : ch.demandAfterRead.reads + 1 = ch.demand.reads := by
      rw [Channel.demandAfterRead, hmanual]
      cases hdemand : ch.demand with
      | idle => exact absurd hdemand hwanted
      | inProgress | requested => rfl
    rw [if_pos rfl] at hcompleted
    have hafter (ch' : Channel) (hch' : (c.fireReadComplete id).channels.get? id = some ch') :
        ch.finishRead c.config.messagesPerRead = ch' := by
      rw [fireReadComplete_eq hch] at hch'
      exact Option.some.inj ((Table.get?_insert_self ..).symm.trans hch')
    refine ⟨?_, ?_, ?_⟩
    · rintro ch' hch' -
      obtain rfl := hafter ch' hch'
      exact hmanual
    · rintro ch' hch' -
      obtain rfl := hafter ch' hch'
      change _ + ch.demandAfterRead.reads ≤ asked
      omega
    · rw [tally_fireReadComplete, if_pos ⟨rfl, Option.isSome_of_eq_some hch⟩]
      change _ + min 1 0 ≤ asked
      omega
  · have hother : ¬ Entry.completion j = .completion id := fun he =>
      hj (congrArg Event.channel (Entry.event.inj he)).symm
    rw [if_neg hother] at hcompleted
    exact h.of_eq hcompleted (tally_fireReadComplete_of_ne hj) (get?_fireReadComplete_of_ne hj)

theorem tallyStep (h : Afforded id asked c) (hp : c.Paced) (hc : c.Counted)
    (hstep : TallyStep c d) :
    Afforded id asked d := by
  cases hstep with
  | delivered j => exact h.delivered hc hp.obeys j
  | completed ho hpos => exact h.completed hc ho hpos
  | @queued j batch =>
    have hbatch : Afforded id asked { c with batch := batch } := h.of_eq rfl rfl rfl
    by_cases hj : id = j
    · subst hj
      have hmarked : Afforded id (asked + 0) _ := hbatch.update (f := fun ch =>
        { ch with batched := true }) fun _ => ⟨rfl, fun h => h, Nat.le_refl _⟩
      exact hmarked
    · exact hbatch.of_eq rfl rfl (get?_updateChannel_of_ne hj _)
  | drainBegun | drainFinished | cycleEnded => exact h.of_eq rfl rfl rfl
  | swept =>
    have hflushed : c.journal.Apart (c.journal.push (.wire none ⟨.flush, none⟩)) :=
      (Journal.Apart.refl _).push rfl
    refine h.of_back (hflushed.completed_eq id) (congrArg Tally.current (hflushed.tally_eq id)) ?_
    intro ch' hch' ho
    have hmapped : (c.channels.get? id).map flushed = some ch' :=
      (Table.get?_mapEntries ..).symm.trans hch'
    obtain ⟨ch, hch, rfl⟩ := Option.map_eq_some_iff.mp hmapped
    exact .inr ⟨ch, hch, ho, rfl, rfl⟩

theorem prompt {k : Call} (h : Afforded id asked c) (hmanual : c.config.autoRead = false)
    (hp : Prompt c k d) (hnot : c.channels.contains id = true → k ≠ .setAutoRead id true) :
    Afforded id (asked + if c.channels.contains id && k.begins id then 1 else 0) d := by
  have hother (e : Connection) {j : ChannelId} (he : Afforded id asked e) (hj : id ≠ j)
      (f : Channel → Channel) : Afforded id asked (e.updateChannel j f) :=
    he.of_eq rfl rfl (get?_updateChannel_of_ne hj f)
  cases hp with
  | steady hs => exact (h.steady hmanual hs).mono (Nat.le_add_right ..)
  | @begun j hk hcontains =>
    subst hk
    by_cases hj : id = j
    · subst hj
      rw [hcontains, Call.begins, if_pos (by simp)]
      exact h.update fun ch => requestRead_owes ch _
    · exact (hother c h hj _).mono (Nat.le_add_right ..)
  | @automated j on hk hcontains =>
    refine Afforded.mono ?_ (Nat.le_add_right ..)
    by_cases hj : id = j
    · subst hj
      obtain rfl : on = false := by
        cases on with
        | false => rfl
        | true => exact absurd hk (hnot hcontains)
      have hset : Afforded id (asked + 0) _ := h.update (f := fun ch =>
        { ch with autoRead := false }) fun _ => ⟨rfl, fun _ => rfl, Nat.le_refl _⟩
      exact hset
    · exact hother c h hj _
  | @roused j hk hcontains =>
    have hj : id ≠ j := by
      rintro rfl
      exact hnot hcontains hk
    exact (hother _ (hother c h hj _) hj _).mono (Nat.le_add_right ..)

theorem readEffect {k : Call} (h : Afforded id asked c) (hp : c.Paced)
    (hmanual : c.config.autoRead = false) (ht : ReadEffect c k d)
    (hnot : c.channels.contains id = true → k ≠ .setAutoRead id true) :
    Afforded id (asked + if c.channels.contains id && k.begins id then 1 else 0) d := by
  cases ht with
  | steady hs => exact (h.steady hmanual hs).mono (Nat.le_add_right ..)
  | reads hprompt htidy hc hpath =>
    exact (hpath.induction (P := fun d => Paced d ∧ Afforded id _ d)
      (fun hc hstep hd => ⟨hd.1.tallyStep hc hstep, hd.2.tallyStep hd.1 hc hstep⟩) htidy hc
      ⟨hp.prompt hprompt, h.prompt hmanual hprompt hnot⟩).2

end Afforded

/-! ## Runs -/

/-- The calls made while the channel is there. -/
def lifetime (id : ChannelId) : Connection → List Call → List Call
  | _, [] => []
  | c, k :: ks =>
    (if c.channels.contains id then [k] else []) ++ lifetime id (c.after k) ks

theorem lifetime_concat (id : ChannelId) (c : Connection) (ks : List Call) (k : Call) :
    lifetime id c (ks ++ [k]) =
      lifetime id c ks ++ if (c.run ks).channels.contains id then [k] else [] := by
  induction ks generalizing c with
  | nil => rw [List.nil_append, lifetime, lifetime, lifetime, List.append_nil]; rfl
  | cons l ks ih => rw [List.cons_append, lifetime, lifetime, ih, List.append_assoc]; rfl

/-- A channel that does not read by itself reads as often as it is asked to, at most. -/
theorem afforded_run {config : Config} {encoder : Encoder} (h : start config encoder = .ok c)
    (hmanual : config.autoRead = false) {ks : List Call}
    (hnot : .setAutoRead id true ∉ lifetime id c ks) :
    Afforded id ((lifetime id c ks).countP (Call.begins id)) (c.run ks) := by
  induction ks using List.reverseRecOn with
  | nil =>
    obtain rfl := (start_eq h).1
    exact ⟨fun _ hch => (nomatch hch), fun _ hch => (nomatch hch), Nat.le_refl 0⟩
  | append_singleton ks k ih =>
    rw [lifetime_concat, List.mem_append, not_or] at hnot
    have hpaced := paced_run h ks
    have heffect := readEffect_after (tidy_run h ks) (counted_run h ks) hpaced.earned k
    have hafter := (ih hnot.1).readEffect hpaced ((config_run h ks) ▸ hmanual) heffect ?_
    · rw [run_concat, lifetime_concat, List.countP_append]
      split
      next hthere =>
        simp only [hthere, Bool.true_and] at hafter
        rwa [List.countP_singleton]
      next hgone =>
        rw [if_neg (by simp [hgone])] at hafter
        exact hafter
    · rintro hthere rfl
      rw [if_pos hthere] at hnot
      exact hnot.2 List.mem_cons_self

/-- Between two completed reads of a channel, before the first and after the last, no more items are
delivered to it than the limit allows, and no read completes that has not delivered one.  A channel
that does not read by itself and is never told to completes no more reads than were begun on it, and
is delivered no more items than these may deliver. -/
theorem reads_are_paced {config : Config} {encoder : Encoder} {c : Connection}
    (h : start config encoder = .ok c) (ks : List Call) (id : ChannelId) :
    (∀ xs ys zs, (c.run ks).journal.entries = xs ++ ys ++ zs → .completion id ∉ ys →
      ys.countP (Entry.deliversTo id) ≤ config.messagesPerRead) ∧
    (∀ xs zs, (c.run ks).journal.entries = xs ++ .completion id :: zs →
      ∃ ws item ys, xs = ws ++ .delivered id item :: ys ∧ .completion id ∉ ys) ∧
    (config.autoRead = false → .setAutoRead id true ∉ lifetime id c ks →
      (c.run ks).journal.completed id ≤ (lifetime id c ks).countP (Call.begins id) ∧
      (c.run ks).journal.served id ≤
        config.messagesPerRead * (lifetime id c ks).countP (Call.begins id)) := by
  have hobeys := (paced_run h ks).obeys
  rw [config_run h ks] at hobeys
  refine ⟨?_, ?_, ?_⟩
  · intro xs ys zs heq hnone
    have hprefix : xs ++ ys <+: (c.run ks).journal.entries := ⟨zs, heq.symm⟩
    have hlimit := (hobeys.served_le id hprefix).1
    rw [Entry.sinceCompletion_append hnone] at hlimit
    omega
  · intro xs zs heq
    exact Entry.exists_delivered (hobeys xs _ zs heq rfl)
  · intro hmanual hnot
    have hafforded := (afforded_run h hmanual hnot).begun
    generalize (lifetime id c ks).countP (Call.begins id) = asked at hafforded ⊢
    refine ⟨by omega, ?_⟩
    obtain ⟨hlimit, hserved⟩ := hobeys.served_le id List.prefix_rfl
    -- The read that goes on is one of those that were begun if it has delivered anything.
    have hcurrent : ((c.run ks).journal.tally id).current ≤
        config.messagesPerRead * min 1 ((c.run ks).journal.tally id).current := by
      rcases Nat.eq_zero_or_pos ((c.run ks).journal.tally id).current with hzero | hpos
      · rw [hzero]
        exact Nat.zero_le _
      · rw [Nat.min_eq_left hpos, Nat.mul_one]
        exact hlimit
    calc (c.run ks).journal.served id
        ≤ config.messagesPerRead * (c.run ks).journal.completed id +
            ((c.run ks).journal.tally id).current := hserved
      _ ≤ config.messagesPerRead * (c.run ks).journal.completed id +
            config.messagesPerRead * min 1 ((c.run ks).journal.tally id).current :=
          Nat.add_le_add_left hcurrent _
      _ = config.messagesPerRead * ((c.run ks).journal.completed id +
            min 1 ((c.run ks).journal.tally id).current) := (Nat.mul_add ..).symm
      _ ≤ config.messagesPerRead * asked := Nat.mul_le_mul_left _ hafforded

/-- A client whose channels do not read by themselves, and whose reads deliver two items each. -/
def waiting : Connection := fresh { autoRead := false, messagesPerRead := 2 } .willing

/-- Three items arrive for a channel that is asked to read once. -/
def askedOnce : List Call := Call.opening ++ [.beginRead 1, .frame (.data 3 [1] 0 false),
  .frame (.data 3 [2] 0 false), .frame (.data 3 [3] 0 false), .readCycleEnded]

/-- The read delivers two of them and completes, and the third waits for the next request. -/
theorem asked_once_reads_once :
    (waiting.run askedOnce).journal.entries[12]? = some (.completion 1) ∧
    ((waiting.run askedOnce).journal.entries.take 12).countP (Entry.deliversTo 1) ≤ 2 ∧
    (∃ ws item ys, (waiting.run askedOnce).journal.entries.take 12 =
      ws ++ .delivered 1 item :: ys ∧ .completion 1 ∉ ys) ∧
    (waiting.run askedOnce).journal.completed 1 ≤ 1 ∧
    (waiting.run askedOnce).journal.served 1 ≤ 2 := by
  have hcalls : lifetime 1 waiting askedOnce = [.frame (.headers 3 (.ofStatus 200) false),
      .beginRead 1, .frame (.data 3 [1] 0 false), .frame (.data 3 [2] 0 false),
      .frame (.data 3 [3] 0 false), .readCycleEnded] := rfl
  have hstart : start { autoRead := false, messagesPerRead := 2 } .willing = .ok waiting := rfl
  obtain ⟨hbound, hserves, hasked⟩ := reads_are_paced hstart askedOnce 1
  refine ⟨by decide, ?_, ?_, ?_⟩
  · exact hbound [] _ ((waiting.run askedOnce).journal.entries.drop 12)
      (List.take_append_drop ..).symm (by decide)
  · exact hserves _ ((waiting.run askedOnce).journal.entries.drop 13) (by decide)
  · have hreads := hasked rfl (by rw [hcalls]; simp)
    rw [hcalls] at hreads
    exact hreads

end Connection

end ChannelMux
