import ChannelMux.Proofs.Dispatch

/-!
# Openings: frames on streams that the peer knows

DATA and RST_STREAM belong on a stream that HEADERS have opened: the request of a client, or the
answer with which a server admits one.  A channel gets its stream in the step in which these headers
are taken, with one exception.  A client gives the channel its stream before it hands over the
request, and if the encoder refuses that, the channel is closed by resetting the stream: a stream
that the peer has never heard of.  No DATA is sent there, because the peer cannot have ended its
half of such a stream.
-/

namespace ChannelMux

namespace Entry

/-- Headers that open the stream for a channel were taken. -/
def opens (s : StreamId) : Entry → Bool
  | wire owner e =>
    match e.call with
    | .headers stream _ endStream => owner.isSome && !endStream && e.fault.isNone && stream = s
    | _ => false
  | event _ | delivered .. | closed _ => false

/-- The stream on which DATA or RST_STREAM was to be sent. -/
def bearer? : Entry → Option StreamId
  | wire _ e =>
    match e.call with
    | .data _ stream _ _ | .reset stream _ => some stream
    | _ => none
  | event _ | delivered .. | closed _ => none

theorem bearer?_of_idle {e : Entry} (h : e.isIdle = true) : e.bearer? = none := by
  cases e with
  | wire owner entry =>
    obtain ⟨call, fault⟩ := entry
    cases call with
    | data | reset => cases h
    | _ => rfl
  | event | delivered | closed => rfl

/-- The stream is reset right after the request that would have opened it was refused. -/
def CancelsRefused (xs : List Entry) (e : Entry) (s : StreamId) : Prop :=
  ∃ id block f fault zs, e = .wire (some id) ⟨.reset s .cancel, fault⟩ ∧
    xs = zs ++ [.wire (some id) ⟨.headers s block false, some f⟩,
      .event ⟨id, .failed (.write f)⟩]

/-- DATA and RST_STREAM are sent on streams that were opened before, and a client may also reset a
stream for which its request was refused. -/
def OnOpened (role : Role) (xs : List Entry) (e : Entry) : Prop :=
  ∀ s, e.bearer? = some s → xs.any (opens s) = true ∨ role = .client ∧ CancelsRefused xs e s

theorem onOpened_of_none {role : Role} {e : Entry} (h : e.bearer? = none) (xs : List Entry) :
    OnOpened role xs e := by
  intro s hs
  rw [h] at hs
  cases hs

end Entry

/-- The channel waits for the settings and has no stream, or its stream was opened. -/
structure Channel.Rooted (ch : Channel) (role : Role) (es : List Entry) : Prop where
  waiting : ch.handshake = .awaitingSettings →
    ch.stream = 0 ∧ ch.inboundClosed = false ∧ role = .client
  opened : ch.handshake ≠ .awaitingSettings → es.any (Entry.opens ch.stream) = true

namespace Channel

variable {ch ch' : Channel} {role : Role} {es : List Entry}

theorem Rooted.constant (h : ch.Rooted role es) (hs : ch.Constant ch') : ch'.Rooted role es where
  waiting ha := by
    rw [hs.handshake] at ha
    rw [hs.stream, hs.unasked ha]
    exact h.waiting ha
  opened ha := by
    rw [hs.handshake] at ha
    rw [hs.stream]
    exact h.opened ha

/-- Nothing is forgotten. -/
theorem Rooted.append (h : ch.Rooted role es) (fs : List Entry) : ch.Rooted role (es ++ fs) where
  waiting := h.waiting
  opened ha := by rw [List.any_append, h.opened ha, Bool.true_or]

theorem Rooted.of_opened (h : ch.handshake ≠ .awaitingSettings)
    (hopened : es.any (Entry.opens ch.stream) = true) : ch.Rooted role es :=
  ⟨fun ha => absurd ha h, fun _ => hopened⟩

/-- Unless the peer has ended its half, a reset is what closes by resetting. -/
theorem closingFrame_reset {active : Bool} {f : ClosingFrame}
    (h : ch.closingFrame .reset active = some f) (hin : ch.inboundClosed = false) :
    f = .cancel := by
  unfold closingFrame at h
  rw [hin] at h
  split at h
  · cases h
  · exact (Option.some.inj h).symm

end Channel

namespace Connection

variable {k : Cause} {c c' d : Connection} {id : ChannelId} {ch ch' : Channel} {kind : CloseKind}
  {s t : Stage}

/-- Every frame so far was sent on an opened stream, and so will the next frame of every channel
that has sent its request. -/
structure Opening (c : Connection) : Prop where
  frames : c.journal.Obeys (Entry.OnOpened c.config.role)
  rooted : ∀ id ch, c.channels.get? id = some ch → ch.closed = false →
    ch.Rooted c.config.role c.journal.entries

namespace Opening

theorem of_back (h : c.Opening) (hconfig : c'.config = c.config)
    (hentries : c.journal.entries <+: c'.journal.entries)
    (hframes : c'.journal.Obeys (Entry.OnOpened c.config.role))
    (hback : ∀ id ch', c'.channels.get? id = some ch' → ch'.closed = false →
      ch'.Rooted c.config.role c'.journal.entries ∨
        ∃ ch, c.channels.get? id = some ch ∧ ch.Constant ch') : c'.Opening where
  frames := by rwa [hconfig]
  rooted id ch' hch' ho := by
    rw [hconfig]
    obtain hrooted | ⟨ch, hch, hconst⟩ := hback id ch' hch' ho
    · exact hrooted
    · obtain ⟨es, hes⟩ := hentries
      rw [← hes]
      exact ((h.rooted id ch hch (hconst.closed.symm.trans ho)).constant hconst).append es

/-- What is known of one channel is all that has changed. -/
theorem insert (h : c.Opening) (hconfig : c'.config = c.config)
    (hchannels : c'.channels = c.channels.insert id ch')
    (hentries : c.journal.entries <+: c'.journal.entries)
    (hframes : c'.journal.Obeys (Entry.OnOpened c.config.role))
    (hch' : ch'.closed = false → ch'.Rooted c.config.role c'.journal.entries) : c'.Opening := by
  refine h.of_back hconfig hentries hframes ?_
  intro j e he ho
  rw [hchannels] at he
  rcases Table.get?_insert_cases he with ⟨-, rfl⟩ | he
  · exact .inl (hch' ho)
  · exact .inr ⟨e, he, .refl e⟩

theorem frames_minor (h : c.Opening) {journal : Journal}
    (hj : c.journal.Extends c.Minor journal) :
    c.journal.entries <+: journal.entries ∧ journal.Obeys (Entry.OnOpened c.config.role) := by
  refine ⟨?_, h.frames.continued hj fun xs e he =>
    Entry.onOpened_of_none (Entry.bearer?_of_idle he.idle) xs⟩
  obtain ⟨es, hes, -⟩ := hj
  exact ⟨es, hes.symm⟩

theorem aloof (h : c.Opening) (ha : Aloof k c c') : c'.Opening := by
  obtain ⟨hentries, hframes⟩ := h.frames_minor ha.journal
  refine h.of_back ha.config hentries hframes ?_
  intro id ch' hch' _
  exact .inr (ha.channels.back hch')

/-- A channel is closed with a frame that is in order. -/
theorem shut (h : c.Opening) (hl : Leaves k c id ch d)
    (hframe : ∀ ch' f fault, d.channels.get? id = some ch' → ch.Leaving ch' →
      ch'.closingFrame kind d.isActive = some f →
      Entry.OnOpened c.config.role d.journal.entries
        (.wire (some id) ⟨f.call d.nextWrite ch'.stream, fault⟩)) :
    (d.close id kind).Opening := by
  obtain ⟨ch', hch', hleaving⟩ := hl.channel
  obtain ⟨es, hes, hclosing⟩ := closing_close hch' hleaving.closed kind
  obtain ⟨hentries, hframes⟩ := h.frames_minor hl.journal
  have hshuts := hl.shuts kind
  refine h.of_back hshuts.config (hentries.trans ⟨_, hes.symm⟩) ?_ ?_
  · cases hclosing with
    | silent => exact (hframes.push (e := .closed id) (Entry.onOpened_of_none rfl _)).congr hes
    | framed fault hf =>
      have hsent := hframes.push (hframe ch' _ fault hch' hleaving hf)
      have hflushed := hsent.push (e := .wire none ⟨.flush, none⟩) (Entry.onOpened_of_none rfl _)
      refine (hflushed.push (e := .closed id) (Entry.onOpened_of_none rfl _)).congr ?_
      rw [hes]
      simp only [Journal.push, List.append_assoc, List.cons_append, List.nil_append]
  · intro j e he ho
    rcases hshuts.cases he with ⟨-, hclosed, -⟩ | hbefore
    · exact absurd (ho.symm.trans hclosed) (by decide)
    · exact .inr hbefore

theorem ended (h : c.Opening) (hch : c.channels.get? id = some ch) (ho : ch.closed = false)
    (hl : Leaves k c id ch d)
    (hs : ∀ ch', d.channels.get? id = some ch' → ch'.stream = ch.stream) (kind : CloseKind) :
    (d.close id kind).Opening := by
  refine h.shut hl ?_
  intro ch' f fault hch' _ hf s hbearer
  obtain ⟨hstream, -⟩ := Channel.closingFrame_eq_some hf
  rw [hs ch' hch'] at hstream hbearer
  have hrooted := h.rooted id ch hch ho
  have hopened := hrooted.opened fun ha => hstream (hrooted.waiting ha).1
  obtain ⟨⟨es, hes⟩, -⟩ := h.frames_minor hl.journal
  have hsame : ch.stream = s := by cases f <;> exact Option.some.inj hbearer
  rw [← hsame, ← hes, List.any_append, hopened]
  exact .inl rfl

theorem requestRefused (h : c.Opening) (hch : c.channels.get? id = some ch)
    (ho : ch.closed = false) (ha : ch.handshake = .awaitingSettings) (hl : Leaves k c id ch d)
    {stream : StreamId} (hs : ∀ ch', d.channels.get? id = some ch' → ch'.stream = stream)
    {block : HeaderBlock} {f : WriteFault}
    (hd : d.journal.entries = c.journal.entries ++ [.wire (some id) ⟨.reserve stream, none⟩,
      .wire (some id) ⟨.headers stream block false, some f⟩,
      .event ⟨id, .failed (.write f)⟩]) : (d.close id .reset).Opening := by
  refine h.shut hl ?_
  intro ch' g fault hch' hleaving hg s hbearer
  obtain ⟨-, hin, hrole⟩ := (h.rooted id ch hch ho).waiting ha
  obtain rfl := Channel.closingFrame_reset hg ((hleaving.unasked ha).trans hin)
  obtain rfl : stream = s := (hs ch' hch').symm.trans (Option.some.inj hbearer)
  refine .inr ⟨hrole, id, block, f, fault,
    c.journal.entries ++ [.wire (some id) ⟨.reserve stream, none⟩], ?_, ?_⟩
  · rw [hs ch' hch']
    rfl
  · rw [hd, List.append_assoc]
    rfl

theorem writeFailed (h : c.Opening) (id : ChannelId) : (c.writeFailed id).Opening := by
  rcases writeFailed_cases c id with ⟨-, heq⟩ | ⟨ch, hch, ho, ⟨kind, heq⟩ | ⟨-, heq⟩⟩
  · rw [heq]
    exact h
  · rw [heq]
    exact h.ended (k := ⟨c, .runTasks⟩) hch ho (.of_aloof (.refl c) hch ho)
      (fun _ hch' => by rw [Option.some.inj (hch.symm.trans hch')]) kind
  · rw [heq]
    have hrooted := h.rooted id ch hch ho
    exact h.insert rfl rfl (List.prefix_refl _) h.frames
      fun _ => ⟨hrooted.waiting, hrooted.opened⟩

/-- DATA is sent on the stream of a channel that has sent its request. -/
theorem sent (h : c.Opening) (hch : c.channels.get? id = some ch) (ho : ch.closed = false)
    (hp : ch.handshake.isPending = false) (write : WriteId) (payload : Bytes)
    (fault : Option WriteFault) : (c.note (.wire (some id)
      ⟨.data write ch.stream payload false, fault⟩)).Opening := by
  refine h.of_back rfl (List.prefix_append _ _) (h.frames.push ?_) fun _ e he _ =>
    .inr ⟨e, he, .refl e⟩
  intro s hs
  obtain rfl := Option.some.inj hs
  refine .inl ((h.rooted id ch hch ho).opened fun ha => ?_)
  rw [ha] at hp
  cases hp

theorem encoderStep (h : s.conn.Opening) (hs : EncoderStep k s t) : t.conn.Opening := by
  cases hs with
  | aloof ws ha => exact h.aloof ha
  | asked path subprotocol ws hrole =>
    rw [addAsking_eq]
    refine h.insert rfl rfl (List.prefix_refl _) h.frames fun _ => ⟨fun _ => ⟨rfl, rfl, hrole⟩, ?_⟩
    exact fun hne => absurd (if_pos hrole) hne
  | @requested c id ch stream block ws hch ho ha =>
    have hreserved := h.frames.push (e := .wire (some id) ⟨.reserve stream, none⟩)
      (Entry.onOpened_of_none rfl _)
    have hframes := hreserved.push (e := .wire (some id) ⟨.headers stream block false, none⟩)
      (Entry.onOpened_of_none rfl _)
    refine h.insert rfl rfl ((List.prefix_append _ _).trans (List.prefix_append _ _)) hframes
      fun _ => .of_opened (by simp) ?_
    simp [Journal.push, Entry.opens]
  | @enrolled c stream path subprotocol compression block ws hrole =>
    refine h.insert rfl rfl (List.prefix_append _ _)
      (h.frames.push (Entry.onOpened_of_none rfl _)) fun _ => .of_opened ?_ ?_
    · rw [handshake_enrolledChannel hrole]
      decide
    · have hstream : (c.enrolledChannel stream path subprotocol compression).stream = stream := rfl
      simp [Journal.push, Entry.opens, hstream]
  | takenUp ticket _ _ _ _ _ ha => exact h.aloof ha
  | parked hch ho hp hpush =>
    have hrooted := h.rooted _ _ hch ho
    exact h.insert rfl rfl (List.prefix_refl _) h.frames
      fun _ => ⟨hrooted.waiting, hrooted.opened⟩
  | unparked subprotocol compression hch ho hs =>
    have hrooted := h.rooted _ _ hch ho
    refine h.insert rfl rfl (List.prefix_refl _) h.frames
      fun _ => .of_opened (by simp) (hrooted.opened ?_)
    rw [hs]
    decide
  | @sent c w ws ch hch ho hp =>
    have hsent := h.sent hch ho hp c.nextWrite w.payload none
    exact ⟨hsent.frames, hsent.rooted⟩
  | bounced f hch ho hp ha => exact ((h.sent hch ho hp _ _ (some f)).aloof ha).writeFailed _
  | dropped _ ha => exact h.aloof ha
  | failed c id ws => exact h.writeFailed id
  | ended kind ws hch ho hl hs => exact h.ended hch ho hl hs kind
  | requestRefused block f ws hch ho ha hl hs hd => exact h.requestRefused hch ho ha hl hs hd
  | tornDown tasks ws =>
    exact h.of_back rfl (List.prefix_refl _) h.frames fun _ e he _ =>
      .inr ⟨e, Table.get?_of_erase he, .refl e⟩

end Opening

theorem opening_run {config : Config} {encoder : Encoder} (h : start config encoder = .ok c)
    (ks : List Call) : (c.run ks).Opening := by
  refine encoderPath_induction h (fun _ _ _ hs hc => hc.encoderStep hs) ?_ ks
  obtain rfl := (start_eq h).1
  exact ⟨fun xs e ys heq => absurd heq (by simp [fresh]), fun _ _ hch => (nomatch hch)⟩

/-- Whenever DATA or RST_STREAM is to be sent on a stream, headers were taken on it before, except
that a client whose request is refused resets the stream on which it was to be sent. -/
theorem stream_opened_or_request_refused {config : Config} {encoder : Encoder} {c : Connection}
    (h : start config encoder = .ok c) (ks : List Call) {xs : List Entry} {e : Entry}
    {ys : List Entry} {s : StreamId} (heq : (c.run ks).journal.entries = xs ++ e :: ys)
    (hs : e.bearer? = some s) :
    xs.any (Entry.opens s) = true ∨ config.role = .client ∧ Entry.CancelsRefused xs e s := by
  rw [← config_run h ks]
  exact (opening_run h ks).frames xs e ys heq s hs

/-- A conversation was opened on the stream of the first write. -/
theorem data_follows_request :
    ∃ xs e, ((fresh {} .willing).run (Call.opening ++ [.write 1 [7]])).journal.entries =
        xs ++ e :: [] ∧ e.bearer? = some 3 ∧
      (xs.any (Entry.opens 3) = true ∨
        Config.role {} = .client ∧ Entry.CancelsRefused xs e 3) := by
  have heq : ((fresh {} .willing).run (Call.opening ++ [.write 1 [7]])).journal.entries =
      ((fresh {} .willing).run Call.opening).journal.entries ++
        .wire (some 1) ⟨.data 1 3 [7] false, none⟩ :: [] := by decide
  exact ⟨_, _, heq, rfl, stream_opened_or_request_refused
    (rfl : start {} .willing = .ok (fresh {} .willing)) _ heq rfl⟩

/-- An encoder that refuses headers and nothing else. -/
def headless : Encoder :=
  { Encoder.willing with
    fault := fun _ call =>
      match call with
      | .headers .. => some (.stated "full")
      | _ => none }

/-- The one request is refused, and its stream is reset: no headers were ever taken on it. -/
theorem refused_request_is_reset :
    start {} headless = .ok (fresh {} headless) ∧
    ∃ block, ((fresh {} headless).run Call.opening).journal.entries =
      [.wire none ⟨.forward (.settings { extendedConnect := some true }), none⟩,
        .wire (some 1) ⟨.reserve 3, none⟩,
        .wire (some 1) ⟨.headers 3 block false, some (.stated "full")⟩,
        .event ⟨1, .failed (.write (.stated "full"))⟩] ++
      .wire (some 1) ⟨.reset 3 .cancel, none⟩ :: [.wire none ⟨.flush, none⟩, .closed 1] :=
  ⟨rfl, _, rfl⟩

end Connection

end ChannelMux
