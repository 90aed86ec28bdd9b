import ChannelMux.Proofs.Asking
import ChannelMux.Proofs.Openings
import ChannelMux.Proofs.StreamSteps
import Mathlib.Data.List.Basic

/-!
# Farewells: the announcement of a connection's end

The peer announces that it will process no stream beyond a last one.  Every open channel is told.
Those on streams that the peer has not processed, and those that have no stream yet, are closed with
a report, and no frame is needed for that: a stream that was never asked for cannot be reset, and
the others are closed as if the peer had ended them.

From then on no stream is asked for.  A new conversation is refused, and an old one could only ask
for its stream while it waits for the settings; the channels that wait have no stream, so none of
them has survived.
-/

namespace ChannelMux

/-- A stream is asked for: it is reserved, or a client sends headers. -/
def Entry.asksForStream (role : Role) : Entry → Bool
  | wire _ e =>
    match e.call with
    | .reserve _ => true
    | .headers .. => role = .client
    | .data .. | .reset .. | .priority .. | .flush | .consume .. | .forward _ | .inactive => false
  | event _ | delivered .. | closed _ => false

theorem Entry.asksForStream_of_isLight {role : Role} {e : Entry} (h : e.isLight role = true) :
    e.asksForStream role = false := by
  cases e with
  | wire owner entry =>
    obtain ⟨call, fault⟩ := entry
    cases call with
    | headers => cases role with
      | client => cases h
      | server => rfl
    | reserve => cases h
    | _ => rfl
  | event | delivered | closed => rfl

/-- The peer processes the stream of the channel when the last one is the given one. -/
def Channel.isProcessed (last : StreamId) (ch : Channel) : Bool := 0 < ch.stream ∧ ch.stream ≤ last

/-- There is nothing to send where a channel without a stream is closed. -/
theorem Channel.closingFrame_of_streamless {ch : Channel} (h : ch.stream = 0) (kind : CloseKind)
    (active : Bool) : ch.closingFrame kind active = none := by
  unfold closingFrame
  rw [if_pos (.inl h)]

theorem Channel.closingFrame_remote (ch : Channel) (active : Bool) :
    ch.closingFrame .remote active = none := by
  unfold closingFrame
  rw [if_pos (.inr (.inr (.inr rfl)))]

namespace Connection

variable {k : Cause} {c d : Connection} {id j : ChannelId} {ch : Channel} {last : StreamId}
  {reason : Reason}

/-- A channel that is closed without a frame leaves only the mark that it was closed. -/
theorem entries_close_of_silent (h : c.channels.get? id = some ch) (ho : ch.closed = false)
    {kind : CloseKind} (hf : ch.closingFrame kind c.isActive = none) :
    (c.close id kind).journal.entries = c.journal.entries ++ [.closed id] := by
  obtain ⟨es, hes, hclosing⟩ := closing_close h ho kind
  cases hclosing with
  | silent => exact hes
  | framed fault hsome => cases hf.symm.trans hsome

theorem goingAway_close (c : Connection) (id : ChannelId) (kind : CloseKind) :
    (c.close id kind).goingAway = c.goingAway := by
  rcases close_cases c id kind with ⟨-, heq⟩ | ⟨ch, h, ho⟩
  · rw [heq]
  · obtain ⟨_, _, _, _, heq, -⟩ := close_eq h ho kind
    rw [heq]

/-! ## What is said to the channels -/

/-- The peer processes the stream of the channel with this number. -/
def isProcessed (c : Connection) (last : StreamId) (id : ChannelId) : Bool :=
  (c.channels.get? id).any (Channel.isProcessed last)

/-- What an open channel is told. -/
def farewell (c : Connection) (last : StreamId) (reason : Reason) (id : ChannelId) : List Entry :=
  .event ⟨id, .goAway last reason⟩ ::
    if c.isProcessed last id then [] else [.event ⟨id, .failed (.goAway reason)⟩, .closed id]

theorem isProcessed_of_get? (h : c.channels.get? id = some ch) (last : StreamId) :
    c.isProcessed last id = ch.isProcessed last := by
  rw [isProcessed, h, Option.any_some]

theorem isProcessed_congr (h : d.channels.get? id = c.channels.get? id) (last : StreamId) :
    d.isProcessed last id = c.isProcessed last id := by
  rw [isProcessed, isProcessed, h]

theorem farewell_congr (h : d.channels.get? id = c.channels.get? id) (last : StreamId)
    (reason : Reason) : d.farewell last reason id = c.farewell last reason id := by
  rw [farewell, farewell, isProcessed_congr h]

/-- The channels of a list were told, and those that the peer does not process are closed. -/
structure Told (last : StreamId) (reason : Reason) (ids : List ChannelId) (c d : Connection) :
    Prop where
  entries : d.journal.entries = c.journal.entries ++ ids.flatMap (c.farewell last reason)
  kept : ∀ j, j ∉ ids ∨ c.isProcessed last j = true → d.channels.get? j = c.channels.get? j
  closed : ∀ j ∈ ids, c.isProcessed last j = false →
    ∃ ch, d.channels.get? j = some ch ∧ ch.closed = true
  goingAway : d.goingAway = c.goingAway

/-- A channel was closed after it was told, without a frame. -/
theorem Told.of_close {kind : CloseKind} {e : Connection} (hp : c.isProcessed last id = false)
    (he : e.journal.entries = c.journal.entries ++
      [.event ⟨id, .goAway last reason⟩, .event ⟨id, .failed (.goAway reason)⟩])
    (hch : e.channels.get? id = some ch) (ho : ch.closed = false)
    (hother : ∀ j, j ≠ id → e.channels.get? j = c.channels.get? j)
    (hgoing : e.goingAway = c.goingAway) (hf : ch.closingFrame kind e.isActive = none) :
    Told last reason [id] c (e.close id kind) where
  entries := by
    rw [entries_close_of_silent hch ho hf, he, List.flatMap_singleton, farewell, hp]
    simp
  kept j hj := by
    have hne : j ≠ id := by
      rintro rfl
      rcases hj with hj | hj
      · exact hj List.mem_cons_self
      · exact absurd (hp.symm.trans hj) (by decide)
    rw [get?_close_of_ne hne, hother j hne]
  closed j hj _ := by
    obtain rfl := List.mem_singleton.mp hj
    exact ⟨_, get?_close_self hch ho kind, rfl⟩
  goingAway := by rw [goingAway_close, hgoing]

theorem told_announceEnd (h : c.channels.get? id = some ch) (ho : ch.closed = false)
    (last : StreamId) (reason : Reason) :
    Told last reason [id] c (announceEnd last reason c id) := by
  have hprocessed := isProcessed_of_get? h last
  have hreported : (c.journal.push (.event ⟨id, .goAway last reason⟩)).push
      (.event ⟨id, .failed (.goAway reason)⟩) =
        { c.journal with entries := c.journal.entries ++
          [.event ⟨id, .goAway last reason⟩, .event ⟨id, .failed (.goAway reason)⟩] } := by
    simp [Journal.push]
  rw [announceEnd, h]
  dsimp only
  split
  next h0 =>
    have hp : c.isProcessed last id = false := by rw [hprocessed, Channel.isProcessed, h0]; rfl
    have hself : (c.emit id (.goAway last reason)).channels.get? id = some ch := h
    rw [failHandshake_eq hself ho]
    exact Told.of_close hp (congrArg Journal.entries hreported) (Table.get?_insert_self ..) ho
      (fun j hj => Table.get?_insert_of_ne hj _ _) rfl (Channel.closingFrame_of_streamless h0 ..)
  next h0 =>
    split
    next hlast =>
      have hp : c.isProcessed last id = false := by
        rw [hprocessed, Channel.isProcessed, decide_eq_false_iff_not]
        exact fun hle => Nat.not_lt.mpr hle.2 hlast
      exact Told.of_close hp (congrArg Journal.entries hreported) h ho (fun _ _ => rfl) rfl
        (Channel.closingFrame_remote ..)
    next hlast =>
      have hp : c.isProcessed last id = true := by
        rw [hprocessed, Channel.isProcessed, decide_eq_true_iff]
        exact ⟨Nat.pos_of_ne_zero h0, Nat.not_lt.mp hlast⟩
      constructor
      case entries => rw [List.flatMap_singleton, farewell, hp]; rfl
      case kept => exact fun _ _ => rfl
      case closed =>
        intro j hj hnot
        obtain rfl := List.mem_singleton.mp hj
        exact absurd (hp.symm.trans hnot) (by decide)
      case goingAway => rfl

theorem Told.cons {ids : List ChannelId} {e : Connection} (h : Told last reason [id] c d)
    (hid : id ∉ ids) (hrest : Told last reason ids d e) : Told last reason (id :: ids) c e := by
  have hsame : ∀ j, j ≠ id → d.channels.get? j = c.channels.get? j := fun j hj =>
    h.kept j (.inl (fun hmem => hj (List.mem_singleton.mp hmem)))
  have hself : e.channels.get? id = d.channels.get? id := hrest.kept id (.inl hid)
  constructor
  case entries =>
    have hfarewells : ids.flatMap (d.farewell last reason) = ids.flatMap (c.farewell last reason) :=
      List.flatMap_congr fun j hj =>
        farewell_congr (hsame j fun heq => hid (heq ▸ hj)) last reason
    rw [hrest.entries, h.entries, hfarewells, List.append_assoc, List.flatMap_singleton,
      List.flatMap_cons]
  case kept =>
    intro j hj
    by_cases heq : j = id
    · subst heq
      rw [hself, h.kept j (.inr (hj.resolve_left fun hnot => hnot List.mem_cons_self))]
    · have hd := hsame j heq
      rw [hrest.kept j ?_, hd]
      rw [isProcessed_congr hd]
      exact hj.imp_left fun hnot hmem => hnot (List.mem_cons_of_mem id hmem)
  case closed =>
    intro j hj hp
    rcases List.mem_cons.mp hj with rfl | hj
    · rw [hself]
      exact h.closed j List.mem_cons_self hp
    · have hd := hsame j fun heq => hid (heq ▸ hj)
      exact hrest.closed j hj (by rwa [isProcessed_congr hd])
  case goingAway => rw [hrest.goingAway, h.goingAway]

/-- All channels of a list are told, one after another, if they are open. -/
theorem told_foldl (ids : List ChannelId) (hnodup : ids.Nodup)
    (hopen : ∀ id ∈ ids, c.isOpen id = true) :
    Told last reason ids c (ids.foldl (announceEnd last reason) c) := by
  induction ids generalizing c with
  | nil => exact ⟨(List.append_nil _).symm, fun _ _ => rfl, fun _ hj => (nomatch hj), rfl⟩
  | cons id ids ih =>
    obtain ⟨hid, hnodup⟩ := List.nodup_cons.mp hnodup
    obtain ⟨ch, hch, ho⟩ := isOpen_iff.mp (hopen id List.mem_cons_self)
    have hfirst := told_announceEnd hch ho last reason
    refine hfirst.cons hid (ih hnodup fun j hj => ?_)
    have hne : j ∉ [id] := fun hmem => hid (List.mem_singleton.mp hmem ▸ hj)
    rw [isOpen_congr (hfirst.kept j (.inl hne))]
    exact hopen j (List.mem_cons_of_mem id hj)

/-- The connection after the end was announced, before the announcement is passed on. -/
theorem told_goAwayArrived (c : Connection) (last : StreamId) (reason : Reason) :
    Told last reason c.openChannels { c with goingAway := some reason }
      (c.goAwayArrived last reason) :=
  told_foldl c.openChannels (nodup_openChannels c) fun _ hid =>
    isOpen_iff.mpr (mem_openChannels.mp hid)

/-! ## What is reported -/

theorem filterMap_reportOf?_farewell (c : Connection) (last : StreamId) (reason : Reason)
    (id j : ChannelId) : (c.farewell last reason j).filterMap (Entry.reportOf? id) =
      if j = id then .goAway last reason ::
        (if c.isProcessed last id then [] else [.failed (.goAway reason)]) else [] := by
  rw [farewell]
  by_cases hj : j = id
  · subst hj
    rw [if_pos rfl]
    split <;> simp [Entry.reportOf?]
  · rw [if_neg hj]
    split <;> simp [Entry.reportOf?, hj]

/-- In a list without repetitions a channel is told once. -/
theorem filterMap_reportOf?_farewells (c : Connection) (last : StreamId) (reason : Reason)
    (id : ChannelId) {ids : List ChannelId} (hnodup : ids.Nodup) :
    (ids.flatMap (c.farewell last reason)).filterMap (Entry.reportOf? id) =
      if id ∈ ids then .goAway last reason ::
        (if c.isProcessed last id then [] else [.failed (.goAway reason)]) else [] := by
  induction ids with
  | nil => rfl
  | cons j ids ih =>
    obtain ⟨hj, hnodup⟩ := List.nodup_cons.mp hnodup
    rw [List.flatMap_cons, List.filterMap_append, filterMap_reportOf?_farewell, ih hnodup]
    by_cases hid : j = id
    · subst hid
      rw [if_pos rfl, if_neg hj, if_pos List.mem_cons_self, List.append_nil]
    · rw [if_neg hid, List.nil_append]
      simp only [List.mem_cons, Ne.symm hid, false_or]

/-! ## No stream is asked for any more -/

/-- The connection is ending, and no channel is left that could ask for a stream. -/
structure Barred (c : Connection) : Prop where
  going : c.goingAway.isSome = true
  asked : ∀ id ch, c.channels.get? id = some ch → ch.closed = false →
    ch.handshake ≠ .awaitingSettings

namespace Barred

theorem of_back (h : c.Barred) (hgoing : d.goingAway.isSome = true)
    (hback : ∀ id ch', d.channels.get? id = some ch' → ch'.closed = false →
      ch'.handshake ≠ .awaitingSettings ∨
        ∃ ch, c.channels.get? id = some ch ∧ ch.closed = false ∧ ch'.handshake = ch.handshake) :
    d.Barred where
  going := hgoing
  asked id ch' hch' ho := by
    obtain hasked | ⟨ch, hch, hopen, hsame⟩ := hback id ch' hch' ho
    · exact hasked
    · rw [hsame]
      exact h.asked id ch hch hopen

/-- One channel has changed, and it does not wait. -/
theorem insert (h : c.Barred) {ch' : Channel} (hgoing : d.goingAway = c.goingAway)
    (hchannels : d.channels = c.channels.insert id ch')
    (hch' : ch'.handshake ≠ .awaitingSettings) : d.Barred := by
  refine h.of_back (hgoing ▸ h.going) ?_
  intro j e he ho
  rw [hchannels] at he
  rcases Table.get?_insert_cases he with ⟨-, rfl⟩ | he
  · exact .inl hch'
  · exact .inr ⟨e, he, ho, rfl⟩

/-- A channel is closed, whatever was done to it before. -/
theorem closed (h : c.Barred) (hgoing : d.goingAway = c.goingAway)
    {ch' : Channel} (hchannels : d.channels = c.channels.insert id ch') (hopen : ch'.closed = false)
    (kind : CloseKind) : (d.close id kind).Barred := by
  have hd : d.channels.get? id = some ch' := by rw [hchannels, Table.get?_insert_self]
  refine h.of_back (by rw [goingAway_close, hgoing]; exact h.going) ?_
  intro j e he ho
  by_cases hj : j = id
  · subst hj
    rw [get?_close_self hd hopen] at he
    rw [← Option.some.inj he] at ho
    cases ho
  · rw [get?_close_of_ne hj, hchannels, Table.get?_insert_of_ne hj] at he
    exact .inr ⟨e, he, ho, rfl⟩

/-- Nothing that is done to such a connection changes that, and no stream is asked for. -/
theorem streamStep {role : Role} (h : StreamStep False k c d) (hc : c.Barred)
    (hrole : c.config.role = role) :
    d.Barred ∧ d.config.role = role ∧
      c.journal.Extends (fun e => e.asksForStream role = false) d.journal := by
  subst hrole
  -- only a channel that waits for the settings asks for a stream
  have hwaits {id : ChannelId} {ch : Channel} (hch : c.channels.get? id = some ch)
      (ho : ch.closed = false) (ha : ch.handshake = .awaitingSettings) : False :=
    hc.asked id ch hch ho ha
  cases h with
  | calm hcalm =>
    refine ⟨hc.of_back ?_ fun id ch' hch' ho => ?_, by rw [hcalm.config],
      hcalm.journal.mono fun _ => Entry.asksForStream_of_isLight⟩
    · rcases hcalm.goingAway with hgoing | hgoing
      · rw [hgoing]
        exact hc.going
      · exact hgoing
    · obtain ⟨ch, hch, hsame⟩ := hcalm.channels.back hch'
      exact .inr ⟨ch, hch, hsame.closed.symm.trans ho, hsame.handshake⟩
  | asked path subprotocol hrole hgoing hk =>
    have hgoing' := hc.going
    rw [hgoing] at hgoing'
    cases hgoing'
  | unreserved stream f hch ho ha hk => exact (hwaits hch ho ha).elim
  | requested block hch ho ha hk hfresh => exact (hwaits hch ho ha).elim
  | requestRefused block f ledger hch ho ha hk hfresh => exact (hwaits hch ho ha).elim
  | enrolled path subprotocol compression block hrole hr h0 hk hframe =>
    refine ⟨hc.insert rfl rfl ?_, rfl, Journal.extends_push _ ?_⟩
    · rw [handshake_enrolledChannel hrole]
      decide
    · rw [Entry.asksForStream, hrole]
      rfl
  | answered subprotocol compression parked hch ho hs hk =>
    exact ⟨hc.insert rfl rfl (by simp), rfl, .refl _⟩
  | sent write payload fault hch ho hp =>
    exact ⟨⟨hc.going, hc.asked⟩, rfl, Journal.extends_push _ rfl⟩
  | @ended id ch ch' kind ledger journal hch ho hout hjournal hk =>
    generalize hd : ({ c with
      channels := c.channels.insert id ch', ledger := ledger, journal := journal } :
        Connection) = d
    have hinserted : d.channels.get? id = some ch' := by rw [← hd, Table.get?_insert_self]
    have hbarred : (d.close id kind).Barred :=
      hc.closed (by rw [← hd]) (by rw [← hd]) hout.closed kind
    obtain ⟨_, _, _, _, heq, -⟩ := close_eq hinserted hout.closed kind
    refine ⟨hbarred, by rw [heq, ← hd], ?_⟩
    have hmarked : c.journal.Extends (fun e => e.isLight c.config.role = true) d.journal :=
      hd ▸ hjournal
    refine (hmarked.mono fun _ => Entry.asksForStream_of_isLight).trans ?_
    obtain ⟨es, hes, hclosing⟩ := closing_close hinserted hout.closed kind
    refine ⟨es ++ [.closed id], hes, fun e he => ?_⟩
    rcases List.mem_append.mp he with he | he
    · cases hclosing with
      | silent => cases he
      | @framed f fault =>
        rcases List.mem_cons.mp he with rfl | he
        · cases f <;> rfl
        · rw [List.mem_singleton.mp he]
          rfl
    · rw [List.mem_singleton.mp he]
      rfl
  | @tornDown id tasks hclosed =>
    exact ⟨hc.of_back hc.going fun j e he ho => .inr ⟨e, Table.get?_of_erase he, ho, rfl⟩, rfl,
      .refl _⟩
  | cleared =>
    exact ⟨⟨hc.going, hc.asked⟩, rfl, Journal.extends_push _ rfl⟩
  | missed hpop hk => exact ⟨⟨hc.going, hc.asked⟩, rfl, .refl _⟩
  | expired hpop hk => exact ⟨⟨hc.going, hc.asked⟩, rfl, .refl _⟩

theorem streamPath {role : Role} (h : StreamPath False k c d) (hc : c.Barred)
    (hrole : c.config.role = role) : d.Barred ∧ d.config.role = role ∧
      c.journal.Extends (fun e => e.asksForStream role = false) d.journal := by
  refine h.induction (P := fun e => e.Barred ∧ e.config.role = role ∧
    c.journal.Extends (fun e => e.asksForStream role = false) e.journal) ?_ ⟨hc, hrole, .refl _⟩
  rintro e f hstep ⟨he, hrole, hjournal⟩
  obtain ⟨hf, hrole, hmore⟩ := streamStep hstep he hrole
  exact ⟨hf, hrole, hjournal.trans hmore⟩

/-- Whatever is called afterwards, no stream is asked for. -/
theorem run {config : Config} {encoder : Encoder} (h : start config encoder = .ok c)
    {ks : List Call} (hc : (c.run ks).Barred) (ls : List Call) :
    ((c.run ks).run ls).Barred ∧
      (c.run ks).journal.Extends (fun e => e.asksForStream config.role = false)
        ((c.run ks).run ls).journal := by
  induction ls using List.reverseRecOn with
  | nil => exact ⟨hc, .refl _⟩
  | append_singleton ls l ih =>
    obtain ⟨hbarred, hjournal⟩ := ih
    rw [run_concat]
    rw [← run_append] at hbarred hjournal ⊢
    obtain ⟨hafter, -, hmore⟩ := hbarred.streamPath (streamPath_after h (ks ++ ls) l False.elim)
      (congrArg Config.role (config_run h (ks ++ ls)))
    exact ⟨hafter, hjournal.trans hmore⟩

theorem openStream (hc : c.Barred) (hrole : c.config.role = .client) (path : String)
    (subprotocol : Option String) :
    ∃ reason, c.call (.openStream path subprotocol) = (.opened (.error (.goAway reason)), c) := by
  obtain ⟨reason, hreason⟩ := Option.isSome_iff_exists.mp hc.going
  refine ⟨reason, ?_⟩
  rw [call, Connection.openStream, if_neg (not_not_intro hrole), hreason]

end Barred

/-- When the end is announced, the channels that wait for the settings have no stream and are
closed. -/
theorem barred_goAway (hc : c.Opening) (last : StreamId) (reason : Reason) (debug : Bytes) :
    (c.after (.frame (.goAway last reason debug))).Barred := by
  have htold := told_goAwayArrived { c with reading := true } last reason
  refine ⟨?_, fun id ch hch ho ha => ?_⟩
  · exact (congrArg Option.isSome htold.goingAway).trans rfl
  · obtain ⟨hbefore, h0⟩ := get?_of_open_foldl_announceEnd _ hch ho
    have hbefore : c.channels.get? id = some ch := hbefore
    exact h0 (mem_openChannels.mpr ⟨ch, hbefore, ho⟩) ((hc.rooted id ch hbefore ho).waiting ha).1

/-! ## The announcement in a run -/

theorem entries_goAway (c : Connection) (last : StreamId) (reason : Reason) (debug : Bytes) :
    (c.after (.frame (.goAway last reason debug))).journal.entries =
      c.journal.entries ++ c.openChannels.flatMap (c.farewell last reason) ++
        [.wire none ⟨.forward (.goAway last reason debug), none⟩] :=
  congrArg (· ++ [Entry.wire none ⟨.forward (.goAway last reason debug), none⟩])
    (told_goAwayArrived { c with reading := true } last reason).entries

theorem wire?_farewell {e : Entry} (h : e ∈ c.farewell last reason id) : e.wire? = none := by
  rw [farewell] at h
  split at h
  · obtain rfl := List.mem_singleton.mp h
    rfl
  · simp only [List.mem_cons, List.not_mem_nil, or_false] at h
    rcases h with rfl | rfl | rfl <;> rfl

theorem eventsOf_goAway (c : Connection) (last : StreamId) (reason : Reason) (debug : Bytes)
    (id : ChannelId) : (c.after (.frame (.goAway last reason debug))).journal.eventsOf id =
      c.journal.eventsOf id ++ if c.isOpen id then .goAway last reason ::
        (if c.isProcessed last id then [] else [.failed (.goAway reason)]) else [] := by
  have hmem : id ∈ c.openChannels ↔ c.isOpen id = true := mem_openChannels.trans isOpen_iff.symm
  rw [Journal.eventsOf_eq, Journal.eventsOf_eq, entries_goAway, List.filterMap_append,
    List.filterMap_append, filterMap_reportOf?_farewells c last reason id (nodup_openChannels c)]
  simp only [hmem]
  exact List.append_nil _

/-- A channel is open after the announcement exactly if it was open before and is processed, and
nothing was done to it. -/
theorem get?_open_goAway (c : Connection) (last : StreamId) (reason : Reason) (debug : Bytes)
    (id : ChannelId) (ch : Channel) :
    ((c.after (.frame (.goAway last reason debug))).channels.get? id = some ch ∧
        ch.closed = false) ↔
      c.channels.get? id = some ch ∧ ch.closed = false ∧ 0 < ch.stream ∧ ch.stream ≤ last := by
  have htold := told_goAwayArrived { c with reading := true } last reason
  have hprocessed (hch : c.channels.get? id = some ch) :
      c.isProcessed last id = true ↔ 0 < ch.stream ∧ ch.stream ≤ last := by
    rw [isProcessed_of_get? hch, Channel.isProcessed, decide_eq_true_iff]
  constructor
  · rintro ⟨hch, ho⟩
    have hbefore : c.channels.get? id = some ch := (get?_of_open_foldl_announceEnd _ hch ho).1
    refine ⟨hbefore, ho, (hprocessed hbefore).mp ?_⟩
    by_contra hnot
    obtain ⟨ch', hch', hclosed⟩ := htold.closed id (mem_openChannels.mpr ⟨ch, hbefore, ho⟩)
      (Bool.eq_false_iff.mpr hnot)
    obtain rfl := Option.some.inj (hch.symm.trans hch')
    exact absurd (ho.symm.trans hclosed) (by decide)
  · rintro ⟨hch, ho, hwithin⟩
    exact ⟨(htold.kept id (.inr ((hprocessed hch).mpr hwithin))).trans hch, ho⟩

/-- When the peer announces the end of the connection, the open channels are told in their order:
each gets one report of the announcement, and one that the peer has not processed, or that has no
stream, then gets one report of a failure and is closed.  Nothing is handed to the encoder, and the
announcement is passed on after that.  The channels which are open afterwards are those on streams
up to the last one, as they were before.  Whatever is called from then on, a client opens no
channel, and no stream is reserved and no request is sent. -/
theorem goAway_closes_unprocessed {config : Config} {encoder : Encoder} {c : Connection}
    (h : start config encoder = .ok c) (ks : List Call) (last : StreamId) (reason : Reason)
    (debug : Bytes) :
    let d := c.run ks
    let d' := d.after (.frame (.goAway last reason debug))
    (d'.journal.entries = d.journal.entries ++ d.openChannels.flatMap (d.farewell last reason) ++
        [.wire none ⟨.forward (.goAway last reason debug), none⟩] ∧
      ∀ e ∈ d.openChannels.flatMap (d.farewell last reason), e.wire? = none) ∧
    (∀ id, d'.journal.eventsOf id = d.journal.eventsOf id ++
      if d.isOpen id then .goAway last reason ::
        (if d.isProcessed last id then [] else [.failed (.goAway reason)]) else []) ∧
    (∀ id ch, (d'.channels.get? id = some ch ∧ ch.closed = false) ↔
      d.channels.get? id = some ch ∧ ch.closed = false ∧ 0 < ch.stream ∧ ch.stream ≤ last) ∧
    (∀ id, d.isOpen id = true → d.isProcessed last id = false →
      ∃ ch, d'.channels.get? id = some ch ∧ ch.closed = true) ∧
    ∀ ls,
      (config.role = .client → ∀ path subprotocol, ∃ r,
        (d'.run ls).call (.openStream path subprotocol) =
          (.opened (.error (.goAway r)), d'.run ls)) ∧
      ∃ es, (d'.run ls).journal.entries = d'.journal.entries ++ es ∧
        ∀ e ∈ es, e.asksForStream config.role = false := by
  intro d d'
  have htold := told_goAwayArrived { d with reading := true } last reason
  refine ⟨⟨entries_goAway d last reason debug, fun e he => ?_⟩, eventsOf_goAway d last reason debug,
    get?_open_goAway d last reason debug, fun id hid hp => ?_, fun ls => ?_⟩
  · obtain ⟨id, -, he⟩ := List.mem_flatMap.mp he
    exact wire?_farewell he
  · exact htold.closed id (mem_openChannels.mpr (isOpen_iff.mp hid)) hp
  · have hafter : d' = c.run (ks ++ [.frame (.goAway last reason debug)]) := (run_concat ..).symm
    have hbarred : d'.Barred := barred_goAway (opening_run h ks) last reason debug
    have hrun := Barred.run h (hafter ▸ hbarred) ls
    rw [← hafter] at hrun
    refine ⟨fun hrole path subprotocol => hrun.1.openStream ?_ path subprotocol, hrun.2⟩
    rw [hafter, ← run_append, config_run h]
    exact hrole

/-- A channel on stream 3 outlives the announcement that 3 was the last stream, and one that was
opened after it on stream 5 does not; no third one is opened when the settings arrive again. -/
theorem goAway_closes_second_channel :
    let d := (fresh {} .willing).run (Call.opening ++ [.openStream "/late" none])
    let d' := d.after (.frame (.goAway 3 .cancel []))
    (d'.isOpen 1 = true ∧ d'.isOpen 2 = false) ∧
    d'.journal.eventsOf 2 = [.goAway 3 .cancel, .failed (.goAway .cancel)] ∧
    ∃ r, (d'.run [.frame (.settings { extendedConnect := some true })]).call
        (.openStream "/later" none) =
      (.opened (.error (.goAway r)), d'.run [.frame (.settings { extendedConnect := some true })])
      := by
  intro d d'
  obtain ⟨-, hevents, -, -, hlater⟩ := goAway_closes_unprocessed
    (rfl : start {} .willing = .ok (fresh {} .willing))
    (Call.opening ++ [.openStream "/late" none]) 3 .cancel []
  refine ⟨by decide, (hevents 2).trans (by decide), ?_⟩
  exact (hlater [.frame (.settings { extendedConnect := some true })]).1 rfl "/later" none

end Connection

end ChannelMux
