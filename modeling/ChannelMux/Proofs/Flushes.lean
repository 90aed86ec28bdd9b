import ChannelMux.Proofs.Finishing
import ChannelMux.Proofs.FlushedSteps

/-!
# Flushes: nothing lies with the encoder unnoticed

The peer sees a frame when the encoder is flushed.  Every call flushes what it had the encoder
take, with one exception: the payload of a write stays with the encoder until the application asks
for a flush, and the channel notes that it has something to flush (`Channel.unflushed`).  The note
is taken back in several places, for one channel or for all of them, and in each of them the encoder
is flushed as well.
-/

namespace ChannelMux

/-! ## What is flushed -/

namespace Entry

/-- The encoder is flushed. -/
def isFlush : Entry → Bool
  | wire _ e => e.call = .flush
  | event _ | delivered .. | closed _ => false

/-- Each frame that the encoder took is followed by a flush. -/
def Flushed (es : List Entry) : Prop :=
  ∀ xs e ys, es = xs ++ e :: ys → e.isTaken = true → ys.any isFlush = true

variable {es fs : List Entry}

theorem Flushed.append (h : Flushed es) (h' : Flushed fs) : Flushed (es ++ fs) := by
  intro xs e ys heq he
  obtain ⟨zs, -, hzs⟩ | ⟨zs, hzs, rfl⟩ := mem_pieces heq
  · exact h' zs e ys hzs he
  · rw [List.any_append, h xs e zs hzs he, Bool.true_or]

/-- Where no frame is taken there is nothing to flush. -/
theorem flushed_of_silent (h : ∀ e ∈ es, e.isTaken = false) : Flushed es := by
  rintro xs e ys rfl he
  have hsilent := h e (List.mem_append_right xs List.mem_cons_self)
  exact absurd (hsilent.symm.trans he) (by decide)

/-- A flush at the end flushes everything. -/
theorem flushed_concat (es : List Entry) : Flushed (es ++ [.wire none ⟨.flush, none⟩]) := by
  intro xs e ys heq he
  cases ys using List.reverseRecOn with
  | nil =>
    have hlast := (List.append_inj' heq rfl).2
    obtain rfl := (List.cons.inj hlast).1
    cases he
  | append_singleton ys d =>
    rw [← List.cons_append, ← List.append_assoc] at heq
    have hlast := (List.append_inj' heq rfl).2
    rw [← (List.cons.inj hlast).1]
    simp [isFlush]

end Entry

/-- A payload of the channel was taken by the encoder, which has not been flushed since. -/
def Journal.Lies (j : Journal) (id : ChannelId) : Prop :=
  ∃ xs write stream payload ys,
    j.entries = xs ++ .wire (some id) ⟨.data write stream payload false, none⟩ :: ys ∧
      ys.any Entry.isFlush = false

namespace Connection

variable {c c' d : Connection} {id : ChannelId} {ch : Channel}

/-! ## Steps -/

/-- A channel that is open after some step was there before, with no less noted, or it is new. -/
def Noted (c d : Connection) : Prop :=
  ∀ id ch', d.channels.get? id = some ch' → ch'.closed = false → c.nextChannel ≤ id ∨
    ∃ ch, c.channels.get? id = some ch ∧ ch.closed = false ∧
      (ch.unflushed = true → ch'.unflushed = true)

/-- All frames taken are flushed, and if nothing was flushed then no note was taken back. -/
structure Flushes (c d : Connection) (es : List Entry) : Prop where
  entries : d.journal.entries = c.journal.entries ++ es
  flushed : Entry.Flushed es
  nextChannel : c.nextChannel ≤ d.nextChannel
  noted : es.any Entry.isFlush = false → Noted c d

/-- The same, whatever was entered. -/
def Clears (c d : Connection) : Prop := ∃ es, Flushes c d es

namespace Noted

theorem refl (c : Connection) : Noted c c :=
  fun _ ch h ho => .inr ⟨ch, h, ho, fun hu => hu⟩

theorem trans (h : Noted c c') (hnext : c.nextChannel ≤ c'.nextChannel) (h' : Noted c' d) :
    Noted c d := by
  intro id ch'' hch'' ho
  rcases h' id ch'' hch'' ho with hnew | ⟨ch', hch', ho', hkept'⟩
  · exact .inl (Nat.le_trans hnext hnew)
  · rcases h id ch' hch' ho' with hnew | ⟨ch, hch, ho, hkept⟩
    · exact .inl hnew
    · exact .inr ⟨ch, hch, ho, fun hu => hkept' (hkept hu)⟩

/-- Channels stay as they were as far as closing and flushing are concerned. -/
theorem of_matches {R : Channel → Channel → Prop}
    (hR : ∀ ch ch', R ch ch' → ch'.closed = ch.closed ∧ ch'.unflushed = ch.unflushed)
    (h : c.channels.Matches R d.channels) : Noted c d := by
  intro id ch' hch' ho
  obtain ⟨ch, hch, hrel⟩ := h.back hch'
  obtain ⟨hclosed, hunflushed⟩ := hR ch ch' hrel
  exact .inr ⟨ch, hch, hclosed.symm.trans ho, hunflushed.trans⟩

end Noted

namespace Clears

theorem of_silent (hjournal : c.journal.Extends (fun e => e.isTaken = false) d.journal)
    (hnext : c.nextChannel ≤ d.nextChannel) (hnoted : Noted c d) : Clears c d := by
  obtain ⟨es, hes, hsilent⟩ := hjournal
  exact ⟨es, hes, Entry.flushed_of_silent hsilent, hnext, fun _ => hnoted⟩

theorem refl (c : Connection) : Clears c c := of_silent (.refl _) (Nat.le_refl _) (.refl c)

theorem trans (h : Clears c c') (h' : Clears c' d) : Clears c d := by
  obtain ⟨es, hes⟩ := h
  obtain ⟨fs, hfs⟩ := h'
  refine ⟨es ++ fs, ?_, hes.flushed.append hfs.flushed,
    Nat.le_trans hes.nextChannel hfs.nextChannel, ?_⟩
  · rw [hfs.entries, hes.entries, List.append_assoc]
  · intro hnone
    rw [List.any_append, Bool.or_eq_false_iff] at hnone
    exact (hes.noted hnone.1).trans hes.nextChannel (hfs.noted hnone.2)

/-- Whatever has been said is flushed. -/
theorem of_flush (h : c.journal.entries <+: d.journal.entries)
    (hnext : c.nextChannel ≤ d.nextChannel) : Clears c d.flush := by
  obtain ⟨es, hes⟩ := h
  refine ⟨es ++ [.wire none ⟨.flush, none⟩], ?_, Entry.flushed_concat es, hnext, ?_⟩
  · change d.journal.entries ++ _ = _
    rw [← hes, List.append_assoc]
  · intro hnone
    simp [Entry.isFlush] at hnone

theorem update (c : Connection) (id : ChannelId) {f : Channel → Channel}
    (hf : ∀ ch : Channel, (f ch).closed = ch.closed ∧ (f ch).unflushed = ch.unflushed) :
    Clears c (c.updateChannel id f) :=
  of_silent (.refl _) (Nat.le_refl _) <|
    .of_matches (R := fun ch ch' => ch'.closed = ch.closed ∧ ch'.unflushed = ch.unflushed)
      (fun _ _ h => h) (.modify (fun _ => ⟨rfl, rfl⟩) _ _ fun ch _ => hf ch)

theorem note (c : Connection) {e : Entry} (he : e.isTaken = false) : Clears c (c.note e) :=
  of_silent (Journal.extends_push _ he) (Nat.le_refl _) (.refl c)

theorem tells (h : Tells false c d) : Clears c d :=
  of_silent (h.journal.mono fun _ he => he.taken rfl) h.nextChannel <|
    .of_matches (fun _ _ hk => ⟨hk.closed, hk.unflushed rfl⟩) h.channels

/-- The frame that closes a channel is flushed. -/
theorem close (c : Connection) (id : ChannelId) (kind : CloseKind) :
    Clears c (c.close id kind) := by
  rcases close_cases c id kind with ⟨-, heq⟩ | ⟨ch, h, ho⟩
  · rw [heq]
    exact refl c
  · obtain ⟨es, hes, hclosing⟩ := closing_close h ho kind
    have hnext : (c.close id kind).nextChannel = c.nextChannel := (close_unmoved c id kind).2.1
    have hnoted : Noted c (c.close id kind) := fun j e hj hopen =>
      .inr ⟨e, get?_of_open_close hj hopen, hopen, fun hu => hu⟩
    have hclosed : Entry.Flushed [.closed id] :=
      Entry.flushed_of_silent fun e he => List.mem_singleton.mp he ▸ rfl
    refine ⟨es ++ [.closed id], hes, .append ?_ hclosed, Nat.le_of_eq hnext.symm, fun _ => hnoted⟩
    cases hclosing with
    | silent => exact Entry.flushed_of_silent fun e he => absurd he List.not_mem_nil
    | framed => exact Entry.flushed_concat [_]

end Clears

/-! ## Flushed steps -/

theorem UnflushedStep.entries {loud : Bool} (h : UnflushedStep loud c d) :
    c.journal.entries <+: d.journal.entries := by
  cases h with
  | told h =>
    obtain ⟨es, hes, -⟩ := h.journal
    exact ⟨es, hes.symm⟩
  | made | tornDown => exact List.prefix_refl _
  | closed kind => exact prefix_close _ _ kind

theorem UnflushedStep.nextChannel {loud : Bool} (h : UnflushedStep loud c d) :
    c.nextChannel ≤ d.nextChannel := by
  cases h with
  | told h => exact h.nextChannel
  | made => exact Nat.le_succ _
  | tornDown => exact Nat.le_refl _
  | @closed id _ kind => exact Nat.le_of_eq (close_unmoved c id kind).2.1.symm

theorem clears_unflushedStep (h : UnflushedStep false c d) : Clears c d := by
  cases h with
  | told h => exact .tells h
  | made path hnew hk =>
    refine .of_silent (.refl _) (Nat.le_succ _) ?_
    intro id ch' hch' ho
    rcases Table.get?_insert_cases hch' with ⟨rfl, -⟩ | hch'
    · exact .inl (Nat.le_refl _)
    · exact .inr ⟨ch', hch', ho, fun hu => hu⟩
  | closed kind => exact .close c _ kind
  | tornDown =>
    exact .of_silent (.refl _) (Nat.le_refl _) fun id ch' hch' ho =>
      .inr ⟨ch', Table.get?_of_erase hch', ho, fun hu => hu⟩

theorem clears_flushedStep (h : FlushedStep c d) : Clears c d := by
  cases h with
  | unflushed h => exact clears_unflushedStep h
  | @flushed d h =>
    have hgrown : c.journal.entries <+: d.journal.entries ∧ c.nextChannel ≤ d.nextChannel := by
      refine h.induction (P := fun d => c.journal.entries <+: d.journal.entries ∧
        c.nextChannel ≤ d.nextChannel) ?_ ⟨List.prefix_refl _, Nat.le_refl _⟩
      rintro d d' hr ⟨hentries, hnext⟩
      exact ⟨hentries.trans hr.entries, Nat.le_trans hnext hr.nextChannel⟩
    exact .of_flush hgrown.1 hgrown.2

theorem clears_flushedPath (h : FlushedPath c d) : Clears c d := by
  induction h with
  | refl => exact .refl c
  | tail _ hflushed ih => exact ih.trans (clears_flushedStep hflushed)

/-! ## Reading -/

theorem clears_handOver (c : Connection) (id : ChannelId) (stream : StreamId) (item : Inbound)
    (rest : List Inbound) : Clears c (c.handOver id stream item rest) := by
  have hnoted : Clears c (c.note (.delivered id item)) := .note c rfl
  have hspent (d : Connection) (reports : Bool) : Clears d (d.updateChannel id fun ch =>
      { ch with
        inbound := rest, budget := ch.budget - 1, endReported := ch.endReported || reports }) :=
    .update d id fun _ => ⟨rfl, rfl⟩
  cases item with
  | data payload endStream =>
    have htold := (hnoted.trans (.note _ (e := .event ⟨id, .read payload⟩) rfl)).trans
      (.note _ (e := .wire (some id) ⟨.consume stream payload.length, none⟩) rfl)
    rw [handOver]
    split
    · exact (htold.trans (hspent ..)).trans (.note _ rfl)
    · exact htold.trans (hspent ..)
  | trailers =>
    rw [handOver]
    split
    · exact (hnoted.trans (hspent ..)).trans (.note _ rfl)
    · exact hnoted.trans (hspent ..)

theorem clears_settle (c : Connection) (id : ChannelId) : Clears c (c.settle id) := by
  rw [settle]
  split
  · exact .refl c
  · split
    · exact .close c id .remote
    · split
      · exact .of_flush (List.prefix_refl _) (Nat.le_refl _)
      · exact .refl c

theorem clears_readStep (h : ReadStep c d) : Clears c d := by
  cases h with
  | requested id =>
    refine .update c id fun ch => ?_
    rw [Channel.requestRead]
    split <;> exact ⟨rfl, rfl⟩
  | automated id on => exact .update c id fun _ => ⟨rfl, rfl⟩
  | delivered id =>
    exact deliver_rel .refl .trans (fun c => clears_handOver c id) (fun c => clears_settle c id) c
  | completed id =>
    rw [fireReadComplete]
    split
    · exact .refl c
    · have hfinished : Clears c (c.updateChannel id (·.finishRead c.config.messagesPerRead)) :=
        .update c id fun _ => ⟨rfl, rfl⟩
      exact hfinished.trans (.note _ rfl)
  | @queued id batch _ =>
    have hbatch : Clears c { c with batch := batch } :=
      .of_silent (.refl _) (Nat.le_refl _) (.refl c)
    exact hbatch.trans (.update _ id fun _ => ⟨rfl, rfl⟩)
  | drainBegun | drainFinished | cycleEnded =>
    exact .of_silent (.refl _) (Nat.le_refl _) (.refl c)
  | swept => exact .of_flush (List.prefix_refl _) (Nat.le_refl _)

theorem clears_readPath (h : ReadPath c d) : Clears c d := by
  induction h with
  | refl => exact .refl c
  | tail _ hstep ih => exact ih.trans (clears_readStep hstep)

theorem clears_onChannel (id : ChannelId) {f : Reply × Connection} (h : Clears c f.2) :
    Clears c (c.onChannel id f).2 := by
  rw [onChannel]
  split
  · exact h
  · exact .refl c

theorem clears_frameArrived (ht : c.Tidy) (f : Frame) : Clears c (c.frameArrived f) := by
  have harrival := arrival ht f
  generalize c.frameArrived f = d at harrival
  cases harrival with
  | @passed d _ hflushed =>
    have hforwarded : Clears d (d.forward f) :=
      .of_silent (Journal.extends_push _ rfl) (Nat.le_refl _) (.refl d)
    exact (clears_flushedPath hflushed).trans hforwarded
  | @dropped d _ _ hbegun hflushed =>
    have hdiscarded : Clears d (d.discard 1 f.payloadSize) :=
      .of_silent (.refl _) (Nat.le_refl _) (.refl d)
    exact ((Clears.tells hbegun).trans hdiscarded).trans (clears_flushedPath hflushed)
  | @queued id ch item _ _ h =>
    have halike : ∀ e, (ch.receive item).closed = e → ch.closed = e := fun e he =>
      (alike_receive ch item).closed.symm.trans he
    have hreceived : Clears c
        { c with reading := true, channels := c.channels.insert id (ch.receive item) } := by
      refine .of_silent (.refl _) (Nat.le_refl _) ?_
      intro j e he ho
      rcases Table.get?_insert_cases he with ⟨rfl, rfl⟩ | he
      · refine .inr ⟨ch, h, halike _ ho, fun hu => ?_⟩
        rw [Channel.receive]
        dsimp only
        split <;> exact hu
      · exact .inr ⟨e, he, ho, fun hu => hu⟩
    exact hreceived.trans
      (clears_readPath (readPath_receive { c with reading := true } id ch item))
  | heeded _ hflushed => exact clears_flushedPath hflushed

/-! ## Calls -/

/-- Every call flushes what it has the encoder take, unless it is a write. -/
theorem clears_after (ht : c.Tidy) {k : Call} (hw : k.isWrite = false) :
    Clears c (c.after k) := by
  cases hr : k.reads with
  | false => exact clears_flushedPath (flushedPath_after ht hr hw)
  | true =>
    cases k with
    | frame f => exact clears_frameArrived ht f
    | readCycleEnded => exact clears_readPath (readPath_readCycleEnded c)
    | beginRead id => exact clears_onChannel id (clears_readPath (readPath_beginRead c id))
    | setAutoRead id on =>
      exact clears_onChannel id (clears_readPath (readPath_setAutoRead c id on))
    | _ => cases hr

/-- A write flushes all but its own payload, which its channel notes. -/
theorem write_clears (c : Connection) (id : ChannelId) (payload : Bytes) :
    Clears c (c.after (.write id payload)) ∨ ∃ d ch write stream, Tells false c d ∧
      d.channels.get? id = some ch ∧ ch.closed = false ∧
      c.after (.write id payload) = d.sentPayload id ch write stream payload := by
  change Clears c (c.onChannel id _).2 ∨ ∃ d ch write stream, Tells false c d ∧
    d.channels.get? id = some ch ∧ ch.closed = false ∧ (c.onChannel id _).2 = _
  rw [onChannel]
  split
  · rcases write_leaves c id payload with hflushed | ⟨d, ch, write, stream, hd, hrest⟩
    · exact .inl (clears_flushedPath hflushed)
    · exact .inr ⟨d, ch, write, stream, hd, hrest⟩
  · exact .inl (.refl c)

/-! ## Runs -/

/-- What lies with the encoder is noted by its channel. -/
structure Minded (c : Connection) : Prop where
  numbered : ∀ id, c.journal.Lies id → id < c.nextChannel
  noted : ∀ id ch, c.journal.Lies id → c.channels.get? id = some ch → ch.closed = false →
    ch.unflushed = true

theorem Minded.clears (hc : c.Minded) (h : Clears c d) : d.Minded := by
  obtain ⟨es, hes⟩ := h
  -- a payload that lies after the step lay before it
  have hback : ∀ id, d.journal.Lies id →
      c.journal.Lies id ∧ es.any Entry.isFlush = false := by
    rintro id ⟨xs, write, stream, payload, ys, heq, hys⟩
    rw [hes.entries] at heq
    obtain ⟨zs, -, hzs⟩ | ⟨zs, hzs, rfl⟩ := mem_pieces heq
    · exact absurd (hys.symm.trans (hes.flushed zs _ ys hzs rfl)) (by decide)
    · rw [List.any_append, Bool.or_eq_false_iff] at hys
      exact ⟨⟨xs, write, stream, payload, zs, hzs, hys.1⟩, hys.2⟩
  constructor
  · intro id hlies
    exact Nat.lt_of_lt_of_le (hc.numbered id (hback id hlies).1) hes.nextChannel
  · intro id ch' hlies hch' ho
    obtain ⟨hlay, hnone⟩ := hback id hlies
    rcases hes.noted hnone id ch' hch' ho with hnew | ⟨ch, hch, ho, hkept⟩
    · exact absurd (hc.numbered id hlay) (Nat.not_lt.mpr hnew)
    · exact hkept (hc.noted id ch hlay hch ho)

theorem Minded.sentPayload (hc : c.Minded) (hid : id < c.nextChannel) (write : WriteId)
    (stream : StreamId) (payload : Bytes) :
    (c.sentPayload id ch write stream payload).Minded := by
  have hback : ∀ j, (c.sentPayload id ch write stream payload).journal.Lies j →
      j = id ∨ c.journal.Lies j := by
    rintro j ⟨xs, write', stream', payload', ys, heq, hys⟩
    cases ys using List.reverseRecOn with
    | nil =>
      have hlast := (List.append_inj' heq rfl).2
      injection hlast with hlast
      injection hlast with howner
      exact .inl (Option.some.inj howner).symm
    | append_singleton ys e =>
      rw [← List.cons_append, ← List.append_assoc] at heq
      rw [List.any_append, Bool.or_eq_false_iff] at hys
      exact .inr ⟨xs, write', stream', payload', ys, (List.append_inj' heq rfl).1, hys.1⟩
  constructor
  · intro j hlies
    rcases hback j hlies with rfl | hlay
    · exact hid
    · exact hc.numbered j hlay
  · intro j e hlies he ho
    rcases Table.get?_insert_cases he with ⟨-, rfl⟩ | he'
    · rfl
    · rcases hback j hlies with rfl | hlay
      · obtain rfl := Option.some.inj ((Table.get?_insert_self ..).symm.trans he)
        rfl
      · exact hc.noted j e hlay he' ho

theorem minded_run {config : Config} {encoder : Encoder} (h : start config encoder = .ok c)
    (ks : List Call) : (c.run ks).Minded := by
  induction ks using List.reverseRecOn with
  | nil =>
    rw [(start_eq h).1]
    have hnone (id : ChannelId) : ¬ (fresh config encoder).journal.Lies id := by
      rintro ⟨xs, _, _, _, _, heq, -⟩
      cases xs <;> cases heq
    exact ⟨fun id hlies => absurd hlies (hnone id), fun id _ hlies => absurd hlies (hnone id)⟩
  | append_singleton ks k ih =>
    have ht := tidy_run h ks
    rw [run_concat]
    cases hw : k.isWrite with
    | false => exact ih.clears (clears_after ht hw)
    | true =>
      cases k with
      | write id payload =>
        rcases write_clears (c.run ks) id payload with
          hclears | ⟨d, ch, write, stream, hd, hch, -, heq⟩
        · exact ih.clears hclears
        · obtain ⟨ch', hch', -⟩ := hd.channels.back hch
          rw [heq]
          exact (ih.clears (.tells hd)).sentPayload
            (Nat.lt_of_lt_of_le (ht.numbered hch') hd.nextChannel) write stream payload
      | _ => cases hw

/-- No frame is left unflushed but the payload of a write.

In the entries that a call makes, every frame that the encoder took is followed by a flush, unless
the call is a write and the frame is its own payload.  Between calls an open channel of which a
payload was taken since the last flush notes that it is unflushed.  This holds for every run and
whatever the encoder refuses. -/
theorem taken_frames_are_flushed {config : Config} {encoder : Encoder}
    (h : start config encoder = .ok c) (ks : List Call) :
    (∀ k es, ((c.run ks).after k).journal.entries = (c.run ks).journal.entries ++ es →
      ∀ xs e ys, es = xs ++ e :: ys → e.isTaken = true →
        ys.any Entry.isFlush = true ∨ ∃ id payload write stream, k = .write id payload ∧
          e = .wire (some id) ⟨.data write stream payload false, none⟩) ∧
    ∀ id ch, (c.run ks).channels.get? id = some ch → ch.closed = false →
      (c.run ks).journal.Lies id → ch.unflushed = true := by
  refine ⟨?_, fun id ch hch ho hlies => (minded_run h ks).noted id ch hlies hch ho⟩
  intro k es hes xs e ys heq he
  have hclears (hk : Clears (c.run ks) ((c.run ks).after k)) : ys.any Entry.isFlush = true := by
    obtain ⟨fs, hfs⟩ := hk
    obtain rfl := List.append_cancel_left (hes.symm.trans hfs.entries)
    exact hfs.flushed xs e ys heq he
  cases hw : k.isWrite with
  | false => exact .inl (hclears (clears_after (tidy_run h ks) hw))
  | true =>
    cases k with
    | write id payload =>
      rcases write_clears (c.run ks) id payload with
        hflushes | ⟨d, ch, write, stream, hd, -, -, hafter⟩
      · exact .inl (hclears hflushes)
      · -- whatever came before the payload was no frame that was taken
        obtain ⟨fs, hfs, hsilent⟩ := hd.journal
        refine .inr ⟨id, payload, write, stream, rfl, ?_⟩
        rw [hafter] at hes
        change d.journal.entries ++ [_] = _ at hes
        rw [hfs, List.append_assoc] at hes
        obtain rfl := List.append_cancel_left hes
        obtain ⟨zs, -, hzs⟩ | ⟨zs, rfl, -⟩ := mem_pieces heq
        · cases zs with
          | nil => exact (List.cons.inj hzs).1.symm
          | cons d zs => exact absurd (List.cons.inj hzs).2.symm (by simp)
        · have hnot := (hsilent e (List.mem_append_right xs List.mem_cons_self)).taken rfl
          exact absurd (hnot.symm.trans he) (by decide)
    | _ => cases hw

/-- A payload that was taken lies with the encoder, and its channel notes it. -/
theorem written_payload_is_noted :
    ∃ ch, ((fresh {} .willing).run (Call.opening ++ [.write 1 [1]])).channels.get? 1 = some ch ∧
      ((fresh {} .willing).run (Call.opening ++ [.write 1 [1]])).journal.Lies 1 ∧
      ch.unflushed = true := by
  obtain ⟨ch, hch, ho⟩ := isOpen_iff.mp (by decide :
    ((fresh {} .willing).run (Call.opening ++ [.write 1 [1]])).isOpen 1 = true)
  have hlies : ((fresh {} .willing).run (Call.opening ++ [.write 1 [1]])).journal.Lies 1 :=
    ⟨((fresh {} .willing).run Call.opening).journal.entries, 1, 3, [1], [], by decide, rfl⟩
  exact ⟨ch, hch, hlies, (taken_frames_are_flushed
    (rfl : start {} .willing = .ok (fresh {} .willing)) _).2 1 ch hch ho hlies⟩

end Connection

end ChannelMux
