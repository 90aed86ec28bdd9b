import ChannelMux.Proofs.Endings
import ChannelMux.Proofs.Holes
import ChannelMux.Proofs.Lives

/-!
# Silences: what a closed channel is told

A channel is often closed in the middle of something else, and whoever goes on has to notice.  From
then on the channel is told whether it is writable, and that it leaves.  The one continuation that
does not look is the end of a handshake: a parked write that is refused may close the channel, and
the completion is reported all the same.
-/

namespace ChannelMux

/-- That its conversation was accepted is reported of the channel last of all, by the call that
brought the answer. -/
structure Cause.Belated (k : Cause) (id : ChannelId) (what : Happening) (history : List Entry) :
    Prop where
  completion : ∃ subprotocol extensions, what = .handshakeCompleted subprotocol extensions
  answers : ∃ stream, k.conn.Answers k.call id stream
  last : history = (k.conn.after k.call).journal.entries

/-- A report of a channel that is closed by now is a quiet one, or it comes late. -/
def Cause.QuietsDown (k : Cause) (xs : List Entry) (e : Entry) : Prop :=
  k.conn.journal.entries <+: xs → ∀ id what, e = .event ⟨id, what⟩ → .closed id ∈ xs →
    what.isQuiet = true ∨ k.Belated id what (xs ++ [e])

namespace Connection

variable {k : Cause} {c d : Connection} {id : ChannelId} {ch : Channel} {stream : StreamId}
  {config : Config} {encoder : Encoder}

/-! ## Life steps -/

/-- In the course of a call: channels are closed as the journal says, and then they are quiet. -/
structure Hushed (k : Cause) (c : Connection) : Prop where
  numbered : ∀ id ch, c.channels.get? id = some ch → id < c.nextChannel
  marked : ∀ id, .closed id ∈ c.journal.entries →
    id < c.nextChannel ∧ ∀ ch, c.channels.get? id = some ch → ch.closed = true
  quiet : c.journal.Obeys k.QuietsDown

namespace Hushed

/-- Nobody is closed, and channels that were closed before learn quiet things only. -/
theorem extend (hc : Hushed k c) (hnext : c.nextChannel ≤ d.nextChannel)
    (hback : ∀ id ch', d.channels.get? id = some ch' →
      (∃ ch, c.channels.get? id = some ch ∧ ch'.closed = ch.closed) ∨
        c.nextChannel ≤ id ∧ id < d.nextChannel)
    (es : List Entry) (hes : d.journal.entries = c.journal.entries ++ es)
    (hunclosed : ∀ id, .closed id ∉ es) (htold : ∀ id what, .event ⟨id, what⟩ ∈ es →
      .closed id ∈ c.journal.entries → what.isQuiet = true) : Hushed k d := by
  have hold {id : ChannelId} {xs ys : List Entry} (hxs : es = xs ++ ys)
      (hmem : .closed id ∈ c.journal.entries ++ xs) : .closed id ∈ c.journal.entries :=
    (List.mem_append.mp hmem).resolve_right fun hnew =>
      hunclosed id (hxs ▸ List.mem_append_left ys hnew)
  refine ⟨fun id ch' hch' => ?_, fun id hmem => ?_, hc.quiet.append hes ?_⟩
  · rcases hback id ch' hch' with ⟨ch, hch, -⟩ | ⟨-, hlt⟩
    · exact Nat.lt_of_lt_of_le (hc.numbered id ch hch) hnext
    · exact hlt
  · obtain ⟨hlt, hshut⟩ := hc.marked id (hold (List.append_nil es).symm (hes ▸ hmem))
    refine ⟨Nat.lt_of_lt_of_le hlt hnext, fun ch' hch' => ?_⟩
    rcases hback id ch' hch' with ⟨ch, hch, hclosed⟩ | ⟨hle, -⟩
    · exact hclosed.trans (hshut ch hch)
    · exact absurd hlt (Nat.not_lt.mpr hle)
  · rintro xs _ ys heq - id what rfl hmem
    exact .inl (htold id what (heq ▸ List.mem_append_right xs List.mem_cons_self) (hold heq hmem))

theorem along (hc : Hushed k c) (h : Along c d) : Hushed k d := by
  obtain ⟨es, hes, hall⟩ := h.journal
  refine hc.extend h.nextChannel (fun id ch' hch' => ?_) es hes (fun id hmem => hall _ hmem)
    fun id what hmem hclosed => ?_
  · obtain ⟨ch, hch, habides⟩ := h.channels.back hch'
    exact .inl ⟨ch, hch, habides.closed⟩
  · obtain ⟨-, ch, hch, hquiet⟩ := hall _ hmem
    exact hquiet ((hc.marked id hclosed).2 ch hch)

/-- A channel has come, and nothing is told to any other. -/
theorem made (hc : Hushed k c) (ch : Channel)
    (hchannels : d.channels = c.channels.insert c.nextChannel ch)
    (hnext : d.nextChannel = c.nextChannel + 1) (es : List Entry)
    (hes : d.journal.entries = c.journal.entries ++ es) (hunclosed : ∀ id, .closed id ∉ es)
    (hown : ∀ id what, .event ⟨id, what⟩ ∈ es → id = c.nextChannel) : Hushed k d := by
  refine hc.extend (hnext ▸ Nat.le_succ _) (fun id ch' hch' => ?_) es hes hunclosed
    fun id what hmem hclosed => ?_
  · rw [hchannels] at hch'
    rcases Table.get?_insert_cases hch' with ⟨rfl, -⟩ | hch'
    · exact .inr ⟨Nat.le_refl _, hnext ▸ Nat.lt_succ_self _⟩
    · exact .inl ⟨ch', hch', rfl⟩
  · exact absurd (hc.marked id hclosed).1 (hown id what hmem ▸ Nat.lt_irrefl _)

theorem close (hc : Hushed k c) (h : c.channels.get? id = some ch) (ho : ch.closed = false)
    (kind : CloseKind) : Hushed k (c.close id kind) := by
  obtain ⟨es, hes, hclosing⟩ := closing_close h ho kind
  refine ⟨fun j e he => ?_, fun j hmem => ?_, hc.quiet.append hes ?_⟩
  · rw [nextChannel_close]
    by_cases hj : j = id
    · exact hj ▸ hc.numbered id ch h
    · exact hc.numbered j e (get?_close_of_ne hj kind ▸ he)
  · rw [nextChannel_close]
    by_cases hj : j = id
    · subst hj
      refine ⟨hc.numbered j ch h, fun e he => ?_⟩
      rw [get?_close_self h ho] at he
      exact Option.some.inj he ▸ rfl
    · have hold : .closed j ∈ c.journal.entries := by
        rw [hes, List.mem_append, List.mem_append, List.mem_singleton] at hmem
        rcases hmem with hmem | hmem | heq
        · exact hmem
        · exact absurd hmem (hclosing.unclosed j)
        · exact absurd (Entry.closed.inj heq) hj
      obtain ⟨hlt, hshut⟩ := hc.marked j hold
      exact ⟨hlt, fun e he => hshut e (get?_close_of_ne hj kind ▸ he)⟩
  · rintro xs _ ys heq - j what rfl -
    have hmem : .event ⟨j, what⟩ ∈ es ++ [.closed id] :=
      heq ▸ List.mem_append_right xs List.mem_cons_self
    cases hclosing <;> simp at hmem

theorem tornDown (hc : Hushed k c) (tasks : List Task) :
    Hushed k ({ c with tasks := tasks }.runTask (.tearDown id)) := by
  rw [runTask]
  split
  · refine hc.extend (Nat.le_refl _) (fun j e he => .inl ⟨e, Table.get?_of_erase he, rfl⟩)
      [.event ⟨id, .inactive⟩, .event ⟨id, .unregistered⟩] (List.append_assoc ..) (by simp) ?_
    rintro j what hmem -
    simp at hmem
    rcases hmem with ⟨-, rfl⟩ | ⟨-, rfl⟩ <;> rfl
  · exact ⟨hc.numbered, hc.marked, hc.quiet⟩

theorem lifeStep (hc : Hushed k c) (h : LifeStep k c d) : Hushed k d := by
  cases h with
  | along h => exact hc.along h
  | asked path subprotocol =>
    rw [addAsking_eq]
    exact hc.made { c.newChannel path with requested := subprotocol } rfl rfl []
      (List.append_nil _).symm (fun _ => List.not_mem_nil) fun _ _ hmem => nomatch hmem
  | admitted stream path subprotocol compression block =>
    refine hc.made (c.enrolledChannel stream path subprotocol compression) rfl rfl
      [.wire (some c.nextChannel) ⟨.headers stream block false, none⟩,
        .wire none ⟨.flush, none⟩, .event ⟨c.nextChannel, .opened stream path subprotocol⟩]
      (by simp) (by simp) ?_
    intro id what hmem
    simp at hmem
    exact hmem.1
  | @confirmed id ch subprotocol extensions h hanswers hafter =>
    refine ⟨hc.numbered, fun j hmem => hc.marked j (by simpa [emit, note] using hmem),
      hc.quiet.push ?_⟩
    rintro - j what heq -
    obtain ⟨rfl, rfl⟩ := Event.mk.inj (Entry.event.inj heq)
    exact .inr ⟨⟨subprotocol, extensions, rfl⟩, hanswers, congrArg (·.journal.entries) hafter⟩
  | closed kind h ho => exact hc.close h ho kind
  | tornDown => exact hc.tornDown _

end Hushed

/-- In the course of every call channels that are closed are quiet. -/
theorem hushed_after (h : start config encoder = .ok c) {ks : List Call} (ho : c.CarefulRun ks)
    {call : Call} (hk : (c.run ks).Careful call) :
    Hushed ⟨c.run ks, call⟩ ((c.run ks).after call) := by
  have hsealed := sealed_run h ks
  have hfirst : Hushed ⟨c.run ks, call⟩ (c.run ks) := by
    refine ⟨hsealed.numbered, hsealed.marked, fun xs e ys heq hprefix => ?_⟩
    have hlen := congrArg List.length heq
    have hle : (c.run ks).journal.entries.length ≤ xs.length := hprefix.length_le
    rw [List.length_append, List.length_cons] at hlen
    omega
  exact (lifePath_after (tidy_run h ks) (registered_run h ho) hk).induction
    (fun _ _ hstep hd => hd.lifeStep hstep) hfirst

/-! ## What was parked -/

/-- The history goes on, and the channel is closed in it only after one of its writes was
refused. -/
def Journal.Refuses (id : ChannelId) (j j' : Journal) : Prop :=
  ∃ es, j'.entries = j.entries ++ es ∧ (.closed id ∈ es → ∃ e ∈ es, e.isRefused id = true)

theorem refuses_sendData (c : Connection) (id : ChannelId) (stream : StreamId) (payload : Bytes)
    (ticket : Ticket) :
    Journal.Refuses id c.journal (c.sendData id stream payload ticket).journal := by
  rcases hsub : (c.enterWrite id payload ticket).submit (some id)
    (.data c.nextWrite stream payload false) with ⟨fault, d⟩
  have hd : d.journal.entries =
      c.journal.entries ++ [.wire (some id) ⟨.data c.nextWrite stream payload false, fault⟩] := by
    rw [← (Prod.mk.inj hsub).2, ← (Prod.mk.inj hsub).1]
    rfl
  cases fault with
  | none =>
    rw [sendData_of_taken hsub]
    exact ⟨_, hd, by simp⟩
  | some f =>
    rw [sendData_of_refused hsub]
    obtain ⟨es, hes, -⟩ := turned_settleWrite d c.nextWrite ⟨id, payload.length, ticket⟩ (some f)
    obtain ⟨fs, hfs⟩ := (EndingPath.writeFailed (k := ⟨c, .runTasks⟩)
      (d.settleWrite c.nextWrite ⟨id, payload.length, ticket⟩ (some f)) id).grows.2
    refine ⟨.wire (some id) ⟨.data c.nextWrite stream payload false, some f⟩ :: (es ++ fs), ?_,
      fun _ => ⟨_, List.mem_cons_self, by simp [Entry.isRefused]⟩⟩
    rw [← hfs, hes, hd]
    simp

theorem refuses_replay (writes : List (Bytes × Ticket)) (c : Connection) (id : ChannelId)
    (stream : StreamId) : Journal.Refuses id c.journal (replay id stream writes c).journal := by
  induction writes generalizing c with
  | nil => exact ⟨[], (List.append_nil _).symm, fun hmem => absurd hmem List.not_mem_nil⟩
  | cons w ws ih =>
    rw [replay]
    split
    · obtain ⟨es, hes, hfirst⟩ := refuses_sendData c id stream w.1 w.2
      obtain ⟨fs, hfs, hthen⟩ := ih (c.sendData id stream w.1 w.2)
      refine ⟨es ++ fs, by rw [hfs, hes, List.append_assoc], fun hmem => ?_⟩
      rcases List.mem_append.mp hmem with hmem | hmem
      · obtain ⟨e, he, hrefused⟩ := hfirst hmem
        exact ⟨e, List.mem_append_left fs he, hrefused⟩
      · obtain ⟨e, he, hrefused⟩ := hthen hmem
        exact ⟨e, List.mem_append_right es he, hrefused⟩
    · exact ih (c.resolve w.2 (.failed .channelClosed))

/-- A channel that is accepted is closed meanwhile only if a write that was parked is refused. -/
theorem refused_of_answers {l : Call} (hanswers : c.Answers l id stream) {xs : List Entry}
    {e : Entry} (heq : (c.after l).journal.entries = c.journal.entries ++ (xs ++ [e]))
    (hmem : .closed id ∈ xs) : ∃ e ∈ xs, e.isRefused id = true := by
  obtain ⟨block, endStream, ch, response, compression, rfl, hr, h, hs, hok, hterms⟩ := hanswers
  obtain ⟨es, hes, hrefused⟩ := refuses_replay (ch.parked.take.1.getD [])
    ({ c with reading := true }.markComplete id response.protocol compression) id ch.stream
  have hall : c.journal.entries ++ (xs ++ [e]) =
      (c.journal.entries ++ es) ++ [.wire none ⟨.flush, none⟩] ++
        [.event ⟨id, .handshakeCompleted response.protocol response.extensions⟩] := by
    rw [← heq, ← completeHandshake_of_accepted hr h hs hok hterms,
      completeHandshake_eq (c := { c with reading := true }) h]
    exact congrArg (· ++ [_] ++ [_]) hes
  rw [List.append_assoc, List.append_assoc, List.append_cancel_left_eq, ← List.append_assoc,
    List.append_singleton_inj] at hall
  obtain ⟨rfl, -⟩ := hall
  obtain ⟨e, he, hrefuses⟩ := hrefused (by simpa using hmem)
  exact ⟨e, List.mem_append_left _ he, hrefuses⟩

/-! ## Runs -/

/-- The history is that up to the end of one of the calls, which brought the answer that accepts the
conversation of an open channel; a write of the channel was refused meanwhile, and at the end the
completion was reported. -/
def CompletesLate (c : Connection) (ks : List Call) (id : ChannelId) (what : Happening)
    (history : List Entry) : Prop :=
  ∃ ls l rs es stream subprotocol extensions, ks = ls ++ l :: rs ∧
    what = .handshakeCompleted subprotocol extensions ∧
    (c.run ls).Answers l id stream ∧ (c.run ls).isOpen id = true ∧
    history = (c.run (ls ++ [l])).journal.entries ∧ history = (c.run ls).journal.entries ++ es ∧
    ∃ e ∈ es, e.isRefused id = true

/-- Reports of a channel that is closed by now are quiet ones, or they come late. -/
def HushedIn (c : Connection) (ks : List Call) (xs : List Entry) (e : Entry) : Prop :=
  ∀ id what, e = .event ⟨id, what⟩ → .closed id ∈ xs →
    what.isQuiet = true ∨ c.CompletesLate ks id what (xs ++ [e])

theorem HushedIn.concat {ks : List Call} {xs : List Entry} {e : Entry} (h : c.HushedIn ks xs e)
    (l : Call) : c.HushedIn (ks ++ [l]) xs e := by
  intro id what he hmem
  rcases h id what he hmem with
    hquiet | ⟨ls, l', rs, es, stream, subprotocol, extensions, hks, hlate⟩
  · exact .inl hquiet
  · exact .inr ⟨ls, l', rs ++ [l], es, stream, subprotocol, extensions,
      by rw [hks, List.append_assoc, List.cons_append], hlate⟩

theorem hushed_run (h : start config encoder = .ok c) {ks : List Call} (ho : c.CarefulRun ks) :
    (c.run ks).journal.Obeys (c.HushedIn ks) := by
  induction ks using List.reverseRecOn with
  | nil =>
    obtain rfl := (start_eq h).1
    exact fun xs e ys heq => absurd heq (by simp [run, fresh])
  | append_singleton ks l ih =>
    obtain ⟨hks, hl, -⟩ := carefulRun_append.mp ho
    have hold : (c.run ks).journal.Obeys (c.HushedIn (ks ++ [l])) :=
      fun xs e ys heq => (ih hks xs e ys heq).concat l
    have hhushed := hushed_after h hks hl
    rw [run_concat]
    obtain ⟨es, hes⟩ := (endingPath_after h ks l).grows.2
    refine hold.append hes.symm ?_
    rintro xs _ ys rfl id what rfl hmem
    have hlaw := hhushed.quiet ((c.run ks).journal.entries ++ xs) _ ys
      (by rw [← hes, List.append_assoc]) (List.prefix_append _ _) id what rfl hmem
    refine hlaw.imp_right fun hlate => ?_
    obtain ⟨⟨subprotocol, extensions, hwhat⟩, ⟨stream, hanswers⟩, hlast⟩ := hlate
    have hopen : (c.run ks).isOpen id = true := by
      obtain ⟨-, -, -, -, -, -, hr, -⟩ := hanswers
      obtain ⟨ch, hch, hshut, -⟩ := ((registered_run h hks).active stream id).mp hr
      exact isOpen_iff.mpr ⟨ch, hch, hshut⟩
    -- the call found the channel open, so it closed the channel itself
    have hnew : .closed id ∈ xs :=
      (List.mem_append.mp hmem).resolve_left ((sealed_run h ks).unmarked (.inl hopen))
    rw [List.append_assoc] at hlast ⊢
    obtain ⟨e, he, hrefused⟩ := refused_of_answers hanswers hlast.symm hnew
    exact ⟨ks, l, [], _, stream, subprotocol, extensions, rfl, hwhat, hanswers, hopen,
      by rw [hlast, run_concat], rfl, e, List.mem_append_left _ he, hrefused⟩

/-- A channel is closed when the history says so, and between calls the history says of each channel
that is there whether it is closed.  After that the channel is told that it is writable or not, that
it is inactive and that it is unregistered.  There is one exception: the call that brings the answer
to its request reports in the end that the conversation was accepted, though the channel has been
closed in this call, because one of its writes was refused. -/
theorem closed_channel_is_quiet_but_for_completion (h : start config encoder = .ok c)
    {ks : List Call} (ho : c.OrderlyRun ks) :
    (∀ (d : Connection) id kind, d.isOpen id = true → (d.close id kind).isOpen id = false ∧
      ∃ es, (d.close id kind).journal.entries = d.journal.entries ++ (es ++ [.closed id]) ∧
        ∀ event, .event event ∉ es) ∧
    (∀ id ch, (c.run ks).channels.get? id = some ch →
      (ch.closed = true ↔ .closed id ∈ (c.run ks).journal.entries)) ∧
    ∀ xs id what ys, (c.run ks).journal.entries = xs ++ .event ⟨id, what⟩ :: ys →
      .closed id ∈ xs →
      what.isQuiet = true ∨ c.CompletesLate ks id what (xs ++ [.event ⟨id, what⟩]) := by
  have hsealed := sealed_run h ks
  refine ⟨fun d id kind hopen => ⟨isOpen_close_self d id kind, ?_⟩,
    fun id ch hch => ⟨hsealed.shut id ch hch, fun hmem => (hsealed.marked id hmem).2 ch hch⟩,
    fun xs id what ys heq => hushed_run h ho.careful xs _ ys heq id what rfl⟩
  obtain ⟨ch, hch, hshut⟩ := isOpen_iff.mp hopen
  obtain ⟨es, hes, hclosing⟩ := closing_close hch hshut kind
  refine ⟨es, hes, fun event hmem => ?_⟩
  cases hclosing <;> simp at hmem

/-- A channel that was closed learns that it is inactive. -/
theorem closed_channel_learns_inactive :
    ((fresh {} .willing).run (Call.opening ++ [.close 1, .runTasks])).journal.entries =
      ((fresh {} .willing).run (Call.opening ++ [.close 1])).journal.entries ++
        .event ⟨1, .inactive⟩ :: [.event ⟨1, .unregistered⟩] ∧
    .closed 1 ∈ ((fresh {} .willing).run (Call.opening ++ [.close 1])).journal.entries ∧
    (Happening.inactive.isQuiet = true ∨
      (fresh {} .willing).CompletesLate (Call.opening ++ [.close 1, .runTasks]) 1 .inactive
        (((fresh {} .willing).run (Call.opening ++ [.close 1])).journal.entries ++
          [.event ⟨1, .inactive⟩])) := by
  have hstart : start {} .willing = .ok (fresh {} .willing) := rfl
  have horderly : (fresh {} .willing).OrderlyRun (Call.opening ++ [.close 1, .runTasks]) := by
    decide
  have heq : ((fresh {} .willing).run (Call.opening ++ [.close 1, .runTasks])).journal.entries =
      ((fresh {} .willing).run (Call.opening ++ [.close 1])).journal.entries ++
        .event ⟨1, .inactive⟩ :: [.event ⟨1, .unregistered⟩] := by decide
  have hclosed : .closed 1 ∈
      ((fresh {} .willing).run (Call.opening ++ [.close 1])).journal.entries := by decide
  obtain ⟨-, -, hquiet⟩ := closed_channel_is_quiet_but_for_completion hstart horderly
  exact ⟨heq, hclosed, hquiet _ 1 .inactive _ heq hclosed⟩

/-- That a handshake has been completed is reported last, of a channel that was closed in the same
call. -/
theorem completion_is_reported_of_closed_channel :
    let ks : List Call := [.frame (.settings { extendedConnect := some true }),
      .openStream "/chat" none, .write 1 [1], .frame (.headers 3 (.ofStatus 200) false)]
    start {} .full = .ok (fresh {} .full) ∧ (fresh {} .full).OrderlyRun ks ∧
    ∃ xs, ((fresh {} .full).run ks).journal.entries =
        xs ++ .event ⟨1, .handshakeCompleted none none⟩ :: [] ∧ .closed 1 ∈ xs ∧
      (Happening.handshakeCompleted none none).isQuiet = false := by
  intro ks
  refine ⟨rfl, by decide, ((fresh {} .full).run ks).journal.entries.dropLast, by decide, by decide,
    rfl⟩

end Connection

end ChannelMux
