import ChannelMux.Proofs.Dispatch
import ChannelMux.Proofs.Requests

/-!
# Flushed steps: what a call leaves with the encoder

Frames that the encoder took lie with it until it is flushed.  Here a call is cut at its flushes: a
`FlushedStep` lets the encoder take no frame, or it ends with a flush.  What happens in between is
made of `UnflushedStep`s, which are *loud* if the encoder may take a frame in them.

Reading is left out, and so is the arrival of what is read or passed on: unflushed steps deliver
nothing, complete no read and pass nothing on (`Entry.isAside`), they leave the reading side of
channels alone (`Channel.Keeps`), and they discard bytes in closing a channel only.

The operations are taken apart here once more, and not by way of `callPath_after`, whose paths have
lost what is needed.  In such a path a frame that the encoder takes and the flush that comes after
it are steps of their own, and nothing says that the one is followed by the other.  Nor do its steps
say that a call which does not read takes none of the steps of reading: `Change.readBegun` and
`Change.forwarded` are open to every call.
-/

namespace ChannelMux

/-! ## Between two flushes -/

namespace Entry

/-- The entry tells of no item: nothing is delivered or passed on, and no read is completed. -/
def isAside : Entry → Bool
  | wire _ e =>
    match e.call with
    | .forward _ => false
    | .reserve _ | .headers .. | .data .. | .reset .. | .priority .. => true
    | .flush | .consume .. | .inactive => true
  | event e =>
    match e.what with
    | .read _ | .readComplete => false
    | .opened .. | .writability _ | .remoteClosed _ | .goAway .. | .priorityApplied _ => true
    | .peerPriority _ | .handshakeCompleted .. | .failed _ | .inactive | .unregistered => true
  | delivered .. => false
  | closed _ => true

/-- The encoder has taken a frame. -/
def isTaken : Entry → Bool
  | wire _ e => e.call.isFrame && e.fault.isNone
  | event _ | delivered .. | closed _ => false

/-- The entry may be made between two flushes. -/
structure Fits (loud : Bool) (e : Entry) : Prop where
  aside : e.isAside = true
  taken : loud = false → e.isTaken = false

variable {loud : Bool} {e : Entry}

theorem Fits.aloud (h : e.Fits loud) : e.Fits true := ⟨h.aside, nofun⟩

theorem fits_turned (id : ChannelId) (on : Bool) : (event ⟨id, .writability on⟩).Fits loud :=
  ⟨rfl, fun _ => rfl⟩

theorem fits_flush (owner : Option ChannelId) : (wire owner ⟨.flush, none⟩).Fits loud :=
  ⟨rfl, fun _ => rfl⟩

/-- A frame that was refused was not taken. -/
theorem fits_refused {owner : Option ChannelId} {call : WireCall} {f : WriteFault}
    (h : (wire owner ⟨call, some f⟩).isAside = true) : (wire owner ⟨call, some f⟩).Fits loud :=
  ⟨h, fun _ => Bool.and_false _⟩

end Entry

/-- The second channel reads as the first does. -/
structure Channel.Keeps (loud : Bool) (ch ch' : Channel) : Prop where
  closed : ch'.closed = ch.closed
  inbound : ch'.inbound = ch.inbound
  demand : ch'.demand = ch.demand
  budget : ch'.budget = ch.budget
  batched : ch'.batched = ch.batched
  autoRead : ch'.autoRead = ch.autoRead
  unflushed : loud = false → ch'.unflushed = ch.unflushed

namespace Channel.Keeps

variable {loud : Bool} {ch ch' ch'' : Channel}

theorem refl (ch : Channel) : ch.Keeps loud ch := ⟨rfl, rfl, rfl, rfl, rfl, rfl, fun _ => rfl⟩

theorem trans (h : ch.Keeps loud ch') (h' : ch'.Keeps loud ch'') : ch.Keeps loud ch'' where
  closed := h'.closed.trans h.closed
  inbound := h'.inbound.trans h.inbound
  demand := h'.demand.trans h.demand
  budget := h'.budget.trans h.budget
  batched := h'.batched.trans h.batched
  autoRead := h'.autoRead.trans h.autoRead
  unflushed hq := (h'.unflushed hq).trans (h.unflushed hq)

theorem aloud (h : ch.Keeps loud ch') : ch.Keeps true ch' := { h with unflushed := nofun }

/-- Where the encoder may take a frame the flush need not be noted. -/
theorem loudly (hclosed : ch'.closed = ch.closed) (hinbound : ch'.inbound = ch.inbound)
    (hdemand : ch'.demand = ch.demand) (hbudget : ch'.budget = ch.budget)
    (hbatched : ch'.batched = ch.batched) (hauto : ch'.autoRead = ch.autoRead) :
    ch.Keeps true ch' :=
  ⟨hclosed, hinbound, hdemand, hbudget, hbatched, hauto, fun h => absurd h (by decide)⟩

theorem giveUpParked (ch : Channel) : ch.Keeps loud ch.giveUpParked :=
  ⟨rfl, rfl, rfl, rfl, rfl, rfl, fun _ => rfl⟩

end Channel.Keeps

namespace Connection

variable {loud : Bool} {c c' d : Connection} {id : ChannelId} {ch ch' : Channel}

/-- Something is said or counted that leaves the reading side of channels alone. -/
structure Tells (loud : Bool) (c d : Connection) : Prop where
  config : d.config = c.config
  nextChannel : c.nextChannel ≤ d.nextChannel
  channels : c.channels.Matches (Channel.Keeps loud) d.channels
  forwarded : d.stats.forwarded = c.stats.forwarded
  discardedBytes : d.stats.discardedBytes = c.stats.discardedBytes
  journal : c.journal.Extends (Entry.Fits loud) d.journal

/-- One thing that is done between two flushes. -/
inductive UnflushedStep (loud : Bool) : Connection → Connection → Prop
  | told {c d : Connection} : Tells loud c d → UnflushedStep loud c d
  | made {c : Connection} {ch : Channel} (path : String) :
      c.channels.get? c.nextChannel = none → (c.newChannel path).Keeps false ch →
      UnflushedStep loud c { c with
        channels := c.channels.insert c.nextChannel ch
        nextChannel := c.nextChannel + 1 }
  | closed {c : Connection} {id : ChannelId} {ch : Channel} (kind : CloseKind) :
      c.channels.get? id = some ch → ch.closed = false → UnflushedStep loud c (c.close id kind)
  | tornDown {c : Connection} {id : ChannelId} :
      (∀ ch, c.channels.get? id = some ch → ch.closed = true) →
      UnflushedStep loud c { c with channels := c.channels.erase id }

/-- Unflushed steps one after another. -/
def UnflushedPath (loud : Bool) : Connection → Connection → Prop :=
  Relation.ReflTransGen (UnflushedStep loud)

/-- What is done up to a flush, or without one and without a frame. -/
inductive FlushedStep : Connection → Connection → Prop
  | unflushed {c d : Connection} : UnflushedStep false c d → FlushedStep c d
  | flushed {c d : Connection} : UnflushedPath true c d → FlushedStep c d.flush

/-- Flushed steps one after another. -/
def FlushedPath : Connection → Connection → Prop := Relation.ReflTransGen FlushedStep

/-! ## What is said -/

namespace Tells

theorem refl (c : Connection) : Tells loud c c :=
  ⟨rfl, Nat.le_refl _, .refl .refl _, rfl, rfl, .refl _⟩

theorem aloud (h : Tells loud c d) : Tells true c d :=
  { h with
    channels := h.channels.mono fun _ _ => .aloud
    journal := h.journal.mono fun _ => .aloud }

theorem trans (h : Tells loud c c') (h' : Tells loud c' d) : Tells loud c d where
  config := h'.config.trans h.config
  nextChannel := Nat.le_trans h.nextChannel h'.nextChannel
  channels := .trans (fun _ _ _ => .trans) h.channels h'.channels
  forwarded := h'.forwarded.trans h.forwarded
  discardedBytes := h'.discardedBytes.trans h.discardedBytes
  journal := h.journal.trans h'.journal

theorem note (c : Connection) {e : Entry} (he : e.Fits loud) : Tells loud c (c.note e) :=
  { (refl c : Tells loud c c) with journal := Journal.extends_push _ he }

theorem emit (c : Connection) (id : ChannelId) {what : Happening}
    (h : (Entry.event ⟨id, what⟩).isAside = true) : Tells loud c (c.emit id what) :=
  note c ⟨h, fun _ => rfl⟩

theorem flush (c : Connection) : Tells loud c c.flush := note c (Entry.fits_flush none)

theorem insert (h : c.channels.get? id = some ch) (hk : ch.Keeps loud ch') :
    Tells loud c { c with channels := c.channels.insert id ch' } :=
  { (refl c : Tells loud c c) with channels := .insert .refl h hk }

theorem update (c : Connection) (id : ChannelId) {f : Channel → Channel}
    (hf : ∀ ch, c.channels.get? id = some ch → ch.Keeps loud (f ch)) :
    Tells loud c (c.updateChannel id f) :=
  { (refl c : Tells loud c c) with channels := .modify .refl _ _ hf }

/-- A call is handed to the encoder, which may take it. -/
theorem submit (c : Connection) (owner : Option ChannelId) {call : WireCall}
    (h : ∀ fault, (Entry.wire owner ⟨call, fault⟩).isAside = true) :
    Tells true c (c.submit owner call).2 :=
  note c ⟨h _, nofun⟩

theorem failParked (c : Connection) (id : ChannelId) (cause : Fault) :
    Tells loud c (c.failParked id cause) := by
  cases h : c.channels.get? id with
  | none => rw [Connection.failParked, h]; exact refl c
  | some ch =>
    rw [failParked_eq h]
    exact { (refl c : Tells loud c c) with channels := .insert .refl h (.giveUpParked ch) }

theorem extends_turned {journal : Journal} (h : c.journal.Turned id journal) :
    c.journal.Extends (Entry.Fits loud) journal := by
  refine Journal.Extends.mono ?_ h
  rintro _ rfl
  exact Entry.fits_turned id true

theorem recoverChannel (c : Connection) (id : ChannelId) : Tells loud c (c.recoverChannel id) := by
  cases h : c.channels.get? id with
  | none => rw [recoverChannel_of_none h]; exact refl c
  | some ch =>
    obtain ⟨_, _, heq, -, hturned⟩ := recoverChannel_eq h
    rw [heq]
    exact { (refl c : Tells loud c c) with
      channels := .insert .refl h ⟨rfl, rfl, rfl, rfl, rfl, rfl, fun _ => rfl⟩
      journal := extends_turned hturned }

theorem settleWrite (c : Connection) (write : WriteId) (w : Inflight)
    (fault : Option WriteFault) : Tells loud c (c.settleWrite write w fault) := by
  cases h : c.channels.get? w.channel with
  | none => rw [settleWrite_of_none write h]; exact { (refl c : Tells loud c c) with }
  | some ch =>
    obtain ⟨_, _, heq, -, hturned⟩ := settleWrite_eq write h fault
    rw [heq]
    exact { (refl c : Tells loud c c) with
      channels := .insert .refl h ⟨rfl, rfl, rfl, rfl, rfl, rfl, fun _ => rfl⟩
      journal := extends_turned hturned }

theorem countBytes (h : c.channels.get? id = some ch) (size : Nat) :
    Tells loud c (c.countBytes id ch size) := by
  obtain ⟨_, heq, -⟩ := countBytes_eq c id ch size
  rw [heq]
  exact { (refl c : Tells loud c c) with
    channels := .insert .refl h ⟨rfl, rfl, rfl, rfl, rfl, rfl, fun _ => rfl⟩ }

theorem noteSettings (c : Connection) (s : Settings) : Tells loud c (c.noteSettings s) := by
  rw [Connection.noteSettings]
  dsimp only
  split <;> exact { (refl c : Tells loud c c) with }

end Tells

/-! ## Paths -/

theorem UnflushedStep.aloud (h : UnflushedStep loud c d) : UnflushedStep true c d := by
  cases h with
  | told h => exact .told h.aloud
  | made path hnew hk => exact .made path hnew hk
  | closed kind h ho => exact .closed kind h ho
  | tornDown h => exact .tornDown h

namespace UnflushedPath

theorem refl (c : Connection) : UnflushedPath loud c c := Relation.ReflTransGen.refl

theorem trans (h : UnflushedPath loud c c') (h' : UnflushedPath loud c' d) :
    UnflushedPath loud c d :=
  Relation.ReflTransGen.trans h h'

theorem tail (h : UnflushedPath loud c c') (h' : UnflushedStep loud c' d) :
    UnflushedPath loud c d :=
  Relation.ReflTransGen.tail h h'

theorem tells (h : UnflushedPath loud c c') (h' : Tells loud c' d) : UnflushedPath loud c d :=
  h.tail (.told h')

/-- What every unflushed step keeps, every path keeps. -/
theorem induction {P : Connection → Prop} (step : ∀ c d, UnflushedStep loud c d → P c → P d)
    (h : UnflushedPath loud c d) (hc : P c) : P d := by
  induction h with
  | refl => exact hc
  | tail _ hr ih => exact step _ _ hr ih

end UnflushedPath

theorem UnflushedStep.path (h : UnflushedStep loud c d) : UnflushedPath loud c d :=
  Relation.ReflTransGen.single h

theorem Tells.path (h : Tells loud c d) : UnflushedPath loud c d := (UnflushedStep.told h).path

namespace FlushedPath

theorem refl (c : Connection) : FlushedPath c c := Relation.ReflTransGen.refl

theorem trans (h : FlushedPath c c') (h' : FlushedPath c' d) : FlushedPath c d :=
  Relation.ReflTransGen.trans h h'

theorem tail (h : FlushedPath c c') (h' : FlushedStep c' d) : FlushedPath c d :=
  Relation.ReflTransGen.tail h h'

theorem tells (h : FlushedPath c c') (h' : Tells false c' d) : FlushedPath c d :=
  h.tail (.unflushed (.told h'))

theorem foldl (f : Connection → ChannelId → Connection) (hf : ∀ c id, FlushedPath c (f c id))
    (ids : List ChannelId) (c : Connection) : FlushedPath c (ids.foldl f c) := by
  induction ids generalizing c with
  | nil => exact refl c
  | cons id ids ih => exact (hf c id).trans (ih _)

/-- A flushed step is made of unflushed ones if flushes do not matter. -/
theorem aloud (h : FlushedPath c d) : UnflushedPath true c d := by
  induction h with
  | refl => exact .refl _
  | tail _ hflushed ih =>
    cases hflushed with
    | unflushed h => exact ih.tail h.aloud
    | flushed h => exact (ih.trans h).tells (.flush _)

end FlushedPath

theorem FlushedStep.path (h : FlushedStep c d) : FlushedPath c d := Relation.ReflTransGen.single h

theorem UnflushedStep.flushedPath (h : UnflushedStep false c d) : FlushedPath c d :=
  (FlushedStep.unflushed h).path

theorem Tells.flushedPath (h : Tells false c d) : FlushedPath c d :=
  (UnflushedStep.told h).flushedPath

/-! ## The end of channels -/

/-- The closing of a channel delivers nothing. -/
theorem aside_close (c : Connection) (id : ChannelId) (kind : CloseKind) :
    c.journal.Extends (fun e => e.isAside = true) (c.close id kind).journal := by
  rcases close_cases c id kind with ⟨-, heq⟩ | ⟨ch, h, ho⟩
  · rw [heq]
    exact .refl _
  · obtain ⟨es, hes, hclosing⟩ := closing_close h ho kind
    refine ⟨_, hes, fun e he => ?_⟩
    rcases List.mem_append.mp he with he | he
    · cases hclosing with
      | silent => exact absurd he List.not_mem_nil
      | @framed f =>
        rcases List.mem_cons.mp he with rfl | he
        · cases f <;> rfl
        · rw [List.mem_singleton.mp he]
          rfl
    · rw [List.mem_singleton.mp he]
      rfl

theorem flushedPath_close (c : Connection) (id : ChannelId) (kind : CloseKind) :
    FlushedPath c (c.close id kind) := by
  rcases close_cases c id kind with ⟨-, heq⟩ | ⟨ch, h, ho⟩
  · rw [heq]
    exact .refl c
  · exact (UnflushedStep.closed kind h ho).flushedPath

theorem flushedPath_failChannel (c : Connection) (id : ChannelId) (cause : Fault) :
    FlushedPath c (c.failChannel id cause) :=
  (Tells.emit c id rfl).flushedPath.trans (flushedPath_close _ id .reset)

theorem flushedPath_failHandshake (c : Connection) (id : ChannelId) (cause : Fault) :
    FlushedPath c (c.failHandshake id cause) := by
  rw [failHandshake]
  split
  · exact .refl c
  · split
    · exact .refl c
    · exact (Tells.failParked c id cause).flushedPath.trans (flushedPath_failChannel _ id cause)

theorem flushedPath_writeFailed (c : Connection) (id : ChannelId) :
    FlushedPath c (c.writeFailed id) := by
  rcases writeFailed_cases c id with ⟨-, heq⟩ | ⟨ch, h, -, ⟨kind, heq⟩ | ⟨-, heq⟩⟩
  · rw [heq]
    exact .refl c
  · rw [heq]
    exact flushedPath_close c id kind
  · have hended : Tells false c
        { c with channels := c.channels.insert id { ch with outboundClosed := true } } :=
      .insert h ⟨rfl, rfl, rfl, rfl, rfl, rfl, fun _ => rfl⟩
    rw [heq]
    exact hended.flushedPath

theorem flushedPath_resetArrived (c : Connection) (id : ChannelId) (reason : Reason) :
    FlushedPath c (c.resetArrived id reason) := by
  rw [resetArrived]
  split
  · exact .refl c
  · have hnoted : Tells false c (c.updateChannel id fun ch =>
        { ch with remoteReset := true }.noteInitiator .theirs) :=
      .update c id fun _ _ => ⟨rfl, rfl, rfl, rfl, rfl, rfl, fun _ => rfl⟩
    exact ((hnoted.flushedPath.tells (.failParked _ id _)).tells (.emit _ id rfl)).trans
      (flushedPath_close _ id .remote)

theorem flushedPath_loseChannel (c : Connection) (id : ChannelId) :
    FlushedPath c (c.loseChannel id) :=
  ((Tells.failParked c id .connectionClosed).flushedPath.tells (.emit _ id rfl)).trans
    (flushedPath_close _ id .remote)

theorem flushedPath_announceEnd (last : StreamId) (reason : Reason) (c : Connection)
    (id : ChannelId) : FlushedPath c (announceEnd last reason c id) := by
  rw [announceEnd]
  split
  · exact .refl c
  · have hsaid : FlushedPath c (c.emit id (.goAway last reason)) :=
      (Tells.emit c id rfl).flushedPath
    dsimp only
    split
    · exact hsaid.trans (flushedPath_failHandshake _ id _)
    · split
      · exact (hsaid.tells (.emit _ id rfl)).trans (flushedPath_close _ id .remote)
      · exact hsaid

theorem flushedPath_goAwayArrived (c : Connection) (last : StreamId) (reason : Reason) :
    FlushedPath c (c.goAwayArrived last reason) := by
  have hnoted : Tells false c { c with goingAway := some reason } := { Tells.refl c with }
  exact hnoted.flushedPath.trans (.foldl _ (flushedPath_announceEnd last reason) _ _)

theorem flushedPath_connectionLost (c : Connection) : FlushedPath c c.connectionLost := by
  have hlost : Tells false c c.loseInflight := { Tells.refl c with }
  have hcleared (d : Connection) : Tells false d d.clearAll :=
    { Tells.refl d with journal := Journal.extends_push _ ⟨rfl, fun _ => rfl⟩ }
  exact (hlost.flushedPath.trans (.foldl _ flushedPath_loseChannel _ _)).tells (hcleared _)

/-! ## Conversations that begin -/

theorem unflushedPath_sendPriority (c : Connection) (id : ChannelId) (stream : StreamId)
    (weight : Nat) : UnflushedPath true c (c.sendPriority id stream weight).2 := by
  have hsent : Tells true c (c.submit (some id) (.priority stream (.ofWeight weight))).2 :=
    .submit c (some id) fun _ => rfl
  rw [sendPriority]
  split
  next heq => rw [heq] at hsent; exact hsent.path
  next heq => rw [heq] at hsent; exact hsent.path.tells (.emit _ id rfl)

theorem unflushedPath_sendCachedWeight (c : Connection) (id : ChannelId) (stream : StreamId)
    (weight : Option Nat) : UnflushedPath true c (c.sendCachedWeight id stream weight) := by
  cases weight with
  | none => exact .refl c
  | some weight => exact unflushedPath_sendPriority c id stream weight

theorem flushedPath_startHandshake (c : Connection) (id : ChannelId) :
    FlushedPath c (c.startHandshake id) := by
  rw [startHandshake]
  split
  next f c₁ hres =>
    obtain ⟨stream, rfl⟩ := reserve_eq_of_error hres
    exact (Tells.note c (Entry.fits_refused rfl)).flushedPath.trans
      (flushedPath_failHandshake _ id _)
  next stream c₁ hres =>
    obtain rfl := reserve_eq_of_ok hres
    have hreserved : Tells false c (c.note (.wire (some id) ⟨.reserve stream, none⟩)) :=
      .note c ⟨rfl, fun _ => rfl⟩
    split
    · exact hreserved.flushedPath
    next ch h =>
      have hassigned {d : Connection} : Tells false d (d.assignStream id stream) :=
        { Tells.refl d with
          channels := .modify .refl _ _ fun _ _ => ⟨rfl, rfl, rfl, rfl, rfl, rfl, fun _ => rfl⟩ }
      dsimp only
      split
      next f c₂ hsub =>
        -- a request that is refused leaves nothing to flush but what resets its stream
        obtain ⟨hfault, rfl⟩ := Prod.mk.inj hsub
        rw [hfault]
        exact ((hreserved.flushedPath.tells hassigned).tells
          (.note _ (Entry.fits_refused rfl))).trans (flushedPath_failHandshake _ id _)
      next c₂ hsub =>
        have hrequested : UnflushedPath true c c₂ := by
          rw [← (Prod.mk.inj hsub).2]
          exact (hreserved.flushedPath.tells hassigned).aloud.tells
            (.submit _ (some id) fun _ => rfl)
        have hwaits : Tells true c₂
            (c₂.updateChannel id fun ch => { ch with handshake := .requestSent }) :=
          .update c₂ id fun _ _ => .loudly rfl rfl rfl rfl rfl rfl
        exact FlushedStep.path (.flushed ((hrequested.tells hwaits).trans
          (unflushedPath_sendCachedWeight _ id stream _)))

theorem flushedPath_decideDeferred (c : Connection) (id : ChannelId) :
    FlushedPath c (c.decideDeferred id) := by
  rw [decideDeferred]
  split
  · exact flushedPath_startHandshake c id
  · exact flushedPath_failHandshake c id _

theorem flushedPath_settingsArrived (c : Connection) (s : Settings) :
    FlushedPath c (c.settingsArrived s) :=
  (Tells.noteSettings c s).flushedPath.trans (.foldl _ flushedPath_decideDeferred _ _)

theorem flushedPath_addAsking (hnew : c.channels.get? c.nextChannel = none) (path : String)
    (subprotocol : Option String) : FlushedPath c (c.addAsking path subprotocol).2 := by
  have hmade : UnflushedStep false c { c with
      channels :=
        c.channels.insert c.nextChannel { c.newChannel path with requested := subprotocol }
      nextChannel := c.nextChannel + 1 } :=
    .made path hnew ⟨rfl, rfl, rfl, rfl, rfl, rfl, fun _ => rfl⟩
  rw [addAsking_eq]
  exact hmade.flushedPath.tells { Tells.refl _ with }

theorem flushedPath_openStream (ht : c.Tidy) (path : String) (subprotocol : Option String) :
    FlushedPath c (c.openStream path subprotocol).2 := by
  rcases openStream_cases c path subprotocol with ⟨f, heq⟩ | ⟨-, -, -, -, heq⟩
  · rw [heq]
    exact .refl c
  · have hadded := flushedPath_addAsking ht.get?_nextChannel path subprotocol
    rw [heq]
    dsimp only
    split
    · exact hadded.trans (flushedPath_startHandshake _ _)
    · exact hadded

theorem flushedPath_refuse (c : Connection) (stream : StreamId) (status : Nat) :
    FlushedPath c (c.refuse stream status) :=
  FlushedStep.path (.flushed (Tells.submit c none fun _ => rfl).path)

theorem flushedPath_accept (ht : c.Tidy) (stream : StreamId) (path : String)
    (subprotocol : Option String) (compression : Option Deflate.Terms) :
    FlushedPath c (c.accept stream path subprotocol compression) := by
  rw [accept_eq]
  split
  next f d heq =>
    obtain ⟨hfault, rfl⟩ := Prod.mk.inj heq
    rw [hfault]
    -- the channel that was made for the answer is taken out again
    have hchannels : (c.enrol stream path subprotocol compression).channels.erase c.nextChannel =
        c.channels := Table.erase_insert ht.get?_nextChannel _
    exact Tells.flushedPath
      { (Tells.refl c : Tells false c c) with
        nextChannel := Nat.le_succ _
        channels := .of_get?_eq .refl fun j => congrArg (fun t => t.get? j) hchannels
        journal := Journal.extends_push _ (Entry.fits_refused rfl) }
  next d heq =>
    have hmade : UnflushedStep true c { c with
        channels := c.channels.insert c.nextChannel
          (c.enrolledChannel stream path subprotocol compression)
        nextChannel := c.nextChannel + 1 } :=
      .made path ht.get?_nextChannel ⟨rfl, rfl, rfl, rfl, rfl, rfl, fun _ => rfl⟩
    have henrolled : UnflushedPath true c (c.enrol stream path subprotocol compression) :=
      hmade.path.tells { Tells.refl _ with }
    have hanswered : UnflushedPath true c d := by
      rw [← (Prod.mk.inj heq).2]
      exact henrolled.tells (.submit _ (some c.nextChannel) fun _ => rfl)
    have hcounted : Tells false d.flush
        { d.flush with stats := { d.stats with accepted := d.stats.accepted + 1 } } :=
      { Tells.refl d.flush with }
    exact ((FlushedStep.flushed hanswered).path.tells hcounted).tells (.emit _ _ rfl)

/-! ## Writes -/

theorem unflushedPath_sendData (c : Connection) (id : ChannelId) (stream : StreamId)
    (payload : Bytes) (ticket : Ticket) :
    UnflushedPath true c (c.sendData id stream payload ticket) := by
  have hentered : Tells true c (c.enterWrite id payload ticket) := { Tells.refl c with }
  rcases hsub : (c.enterWrite id payload ticket).submit (some id)
    (.data c.nextWrite stream payload false) with ⟨fault, c'⟩
  have hsubmitted : UnflushedPath true c c' := by
    rw [← (Prod.mk.inj hsub).2]
    exact hentered.path.tells (.submit _ (some id) fun _ => rfl)
  cases fault with
  | none =>
    rw [sendData_of_taken hsub]
    exact hsubmitted.tells (.update _ id fun _ _ => .loudly rfl rfl rfl rfl rfl rfl)
  | some f =>
    rw [sendData_of_refused hsub]
    exact (hsubmitted.tells (.settleWrite ..)).trans (flushedPath_writeFailed _ id).aloud

theorem unflushedPath_replay (id : ChannelId) (stream : StreamId) (writes : List (Bytes × Ticket))
    (c : Connection) : UnflushedPath true c (replay id stream writes c) := by
  induction writes generalizing c with
  | nil => exact .refl c
  | cons w ws ih =>
    rw [replay]
    split
    · exact (unflushedPath_sendData c id stream w.1 w.2).trans (ih _)
    · have hresolved : Tells true c (c.resolve w.2 (.failed .channelClosed)) :=
        { Tells.refl c with }
      exact hresolved.path.trans (ih _)

/-- A flush of a channel puts an end to whatever was said before it. -/
theorem UnflushedPath.flushChannel (h : UnflushedPath true c d) (id : ChannelId) :
    FlushedPath c (d.flushChannel id) :=
  FlushedStep.path (.flushed (h.tells (.update d id fun _ _ => .loudly rfl rfl rfl rfl rfl rfl)))

theorem flushedPath_completeHandshake (c : Connection) (id : ChannelId)
    (response : Connect.Response) (compression : Option Deflate.Terms) :
    FlushedPath c (c.completeHandshake id response compression) := by
  cases h : c.channels.get? id with
  | none => rw [completeHandshake, h]; exact .refl c
  | some ch =>
    have hmarked : Tells true c (c.markComplete id response.protocol compression) :=
      { Tells.refl c with
        channels := .modify .refl _ _ fun _ _ => .loudly rfl rfl rfl rfl rfl rfl }
    rw [completeHandshake_eq h]
    exact ((hmarked.path.trans (unflushedPath_replay id ch.stream _ _)).flushChannel id).tells
      (.emit _ id rfl)

theorem flushedPath_responseArrived (c : Connection) (id : ChannelId) (block : HeaderBlock)
    (endStream : Bool) : FlushedPath c (c.responseArrived id block endStream) := by
  rw [responseArrived]
  split
  · exact .refl c
  · split
    · exact flushedPath_failHandshake c id _
    · split
      · exact flushedPath_failHandshake c id _
      · exact flushedPath_completeHandshake c id _ _

theorem flushedPath_writeCompleted (c : Connection) (write : WriteId) (fault : Option WriteFault) :
    FlushedPath c (c.writeCompleted write fault) := by
  cases h : c.inflight.get? write with
  | none => rw [writeCompleted_of_none h]; exact .refl c
  | some w =>
    cases fault with
    | none => rw [writeCompleted_of_done h]; exact (Tells.settleWrite ..).flushedPath
    | some f =>
      rw [writeCompleted_of_some h]
      exact (Tells.settleWrite ..).flushedPath.trans (flushedPath_writeFailed _ _)

/-! ## Writes that are not flushed -/

/-- The encoder has taken a payload of a channel, and the channel has noted it. -/
def sentPayload (c : Connection) (id : ChannelId) (ch : Channel) (write : WriteId)
    (stream : StreamId) (payload : Bytes) : Connection :=
  { c with
    channels := c.channels.insert id { ch with unflushed := true }
    journal := c.journal.push (.wire (some id) ⟨.data write stream payload false, none⟩) }

/-- A write that is refused leaves nothing with the encoder. -/
theorem sendData_leaves (h : c.channels.get? id = some ch) (ho : ch.closed = false)
    (stream : StreamId) (payload : Bytes) (ticket : Ticket) :
    FlushedPath c (c.sendData id stream payload ticket) ∨ ∃ d ch' write stream', Tells false c d ∧
      d.channels.get? id = some ch' ∧ ch'.closed = false ∧
      c.sendData id stream payload ticket = d.sentPayload id ch' write stream' payload := by
  have hentered : Tells false c (c.enterWrite id payload ticket) :=
    { (Tells.refl c : Tells false c c) with }
  rcases hsub : (c.enterWrite id payload ticket).submit (some id)
    (.data c.nextWrite stream payload false) with ⟨fault, c'⟩
  obtain ⟨hfault, hc'⟩ := Prod.mk.inj hsub
  cases fault with
  | none =>
    rw [sendData_of_taken hsub, ← hc', hfault]
    refine .inr ⟨c.enterWrite id payload ticket, ch, c.nextWrite, stream, hentered, h, ho, ?_⟩
    exact updateChannel_eq (c := (c.enterWrite id payload ticket).note _) h _
  | some f =>
    rw [sendData_of_refused hsub, ← hc', hfault]
    exact .inl (((hentered.flushedPath.tells (.note _ (Entry.fits_refused rfl))).tells
      (.settleWrite ..)).trans (flushedPath_writeFailed _ id))

/-- A write leaves nothing with the encoder but its own payload. -/
theorem write_leaves (c : Connection) (id : ChannelId) (payload : Bytes) :
    FlushedPath c (c.write id payload).2 ∨ ∃ d ch write stream, Tells false c d ∧
      d.channels.get? id = some ch ∧ ch.closed = false ∧
      (c.write id payload).2 = d.sentPayload id ch write stream payload := by
  have hissued (p : Promise) : Tells false c (c.issue p).2 :=
    { (Tells.refl c : Tells false c c) with }
  rw [write]
  split
  · exact .inl (hissued _).flushedPath
  next ch h =>
    split
    · exact .inl (hissued _).flushedPath
    next hguard =>
      simp only [Bool.or_eq_true, not_or, Bool.not_eq_true] at hguard
      have hch : ((c.issue .held).2.countBytes id ch payload.length).channels.get? id =
          some (ch.addPending payload.length c.config.highWatermark).1 := by
        obtain ⟨_, heq, -⟩ := countBytes_eq (c.issue .held).2 id ch payload.length
        rw [heq, Table.get?_insert_self]
        rfl
      have hcounted : Tells false c ((c.issue .held).2.countBytes id ch payload.length) :=
        (hissued .held).trans (.countBytes (c := (c.issue .held).2) h payload.length)
      simp only [issue_eq] at hch hcounted ⊢
      split
      · -- a parked write is not seen by the encoder
        split
        · exact .inl (hcounted.flushedPath.tells (.update _ id fun _ _ =>
            ⟨rfl, rfl, rfl, rfl, rfl, rfl, fun _ => rfl⟩))
        · exact .inl (hcounted.flushedPath.tells { Tells.refl _ with })
      · rcases sendData_leaves hch hguard.1 ch.stream payload _ with
          hflushed | ⟨d, ch', write, stream, hd, hrest⟩
        · exact .inl (hcounted.flushedPath.trans hflushed)
        · exact .inr ⟨d, ch', write, stream, hcounted.trans hd, hrest⟩

theorem unflushedPath_write (c : Connection) (id : ChannelId) (payload : Bytes) :
    UnflushedPath true c (c.write id payload).2 := by
  rcases write_leaves c id payload with hflushed | ⟨d, ch, write, stream, hd, hch, -, heq⟩
  · exact hflushed.aloud
  · rw [heq]
    exact hd.aloud.path.tells
      { (Tells.refl d : Tells true d d) with
        channels := .insert .refl hch (.loudly rfl rfl rfl rfl rfl rfl)
        journal := Journal.extends_push _ ⟨rfl, nofun⟩ }

/-! ## Upkeep -/

theorem flushedPath_setPriority (c : Connection) (id : ChannelId) (weight : Nat) :
    FlushedPath c (c.setPriority id weight).2 := by
  rw [setPriority]
  split
  · exact .refl c
  split
  · exact .refl c
  next ch h =>
    split
    · exact .refl c
    split
    · have hcached : Tells false c
          (c.updateChannel id fun ch => { ch with cachedWeight := some weight }) :=
        .update c id fun _ _ => ⟨rfl, rfl, rfl, rfl, rfl, rfl, fun _ => rfl⟩
      exact hcached.flushedPath
    · rw [sendPriority]
      split
      next f d heq =>
        split at heq
        next f' d' hsub =>
          obtain ⟨hfault, rfl⟩ := Prod.mk.inj hsub
          obtain ⟨-, rfl⟩ := Prod.mk.inj heq
          rw [hfault]
          exact (Tells.note c (Entry.fits_refused rfl)).flushedPath
        next => cases (Prod.mk.inj heq).1
      next d heq =>
        have hsent := unflushedPath_sendPriority c id ch.stream weight
        rw [sendPriority, heq] at hsent
        exact (FlushedStep.flushed hsent).path

theorem flushedPath_fireTimer (c : Connection) (t : Timer) : FlushedPath c (c.fireTimer t) := by
  cases t with
  | registryRemoval stream => exact Tells.flushedPath { Tells.refl c with }
  | handshakeTimeout id =>
    rw [fireTimer]
    split
    · exact flushedPath_failHandshake c id _
    · exact .refl c

theorem flushedPath_fireDue (now : Time) (n : Nat) (c : Connection) :
    FlushedPath c (fireDue now n c) := by
  induction n generalizing c with
  | zero => exact .refl c
  | succ n ih =>
    rw [fireDue]
    split
    · exact .refl c
    next t timers _ =>
      have hpopped : Tells false c { c with timers := timers } := { Tells.refl c with }
      exact (hpopped.flushedPath.trans (flushedPath_fireTimer _ t)).trans (ih _)

/-- Only channels are torn down that are closed, and nobody opens meanwhile. -/
theorem flushedPath_foldl_runTask (ts : List Task) (c : Connection)
    (h : ∀ id, .tearDown id ∈ ts → ∀ ch, c.channels.get? id = some ch → ch.closed = true) :
    FlushedPath c (ts.foldl runTask c) := by
  induction ts generalizing c with
  | nil => exact .refl c
  | cons t ts ih =>
    have hlater : ∀ id, .tearDown id ∈ ts → ∀ ch, c.channels.get? id = some ch →
        ch.closed = true := fun id hid => h id (List.mem_cons_of_mem _ hid)
    rw [List.foldl_cons]
    cases t with
    | reportWritability id on =>
      rw [runTask]
      split
      · exact (Tells.emit c id rfl).flushedPath.trans (ih _ hlater)
      · exact ih c hlater
    | tearDown id =>
      rw [runTask]
      split
      · have htorn : UnflushedStep false c { c with channels := c.channels.erase id } :=
          .tornDown (h id List.mem_cons_self)
        refine ((htorn.flushedPath.tells (.emit _ id rfl)).tells (.emit _ id rfl)).trans (ih _ ?_)
        exact fun j hj ch hch => hlater j hj ch (Table.get?_of_erase hch)
      · exact ih c hlater

theorem flushedPath_writabilityChanged (c : Connection) (writable : Bool) :
    FlushedPath c (c.writabilityChanged writable) := by
  rw [writabilityChanged]
  split
  · exact .foldl _ (fun d id => (Tells.recoverChannel d id).flushedPath) _ c
  · exact .refl c

theorem flushedPath_streamFailed (c : Connection) (stream : StreamId) (cause : Fault) :
    FlushedPath c (c.streamFailed stream cause).2 := by
  rw [streamFailed]
  split
  · exact flushedPath_failChannel c _ cause
  · exact .refl c

theorem flushedPath_closeOnRequest (c : Connection) (id : ChannelId) (kind : CloseKind) :
    FlushedPath c (c.closeOnRequest id kind).2 :=
  (flushedPath_close c id kind).tells { Tells.refl _ with }

theorem flushedPath_onChannel (id : ChannelId) {f : Reply × Connection} (h : FlushedPath c f.2) :
    FlushedPath c (c.onChannel id f).2 := by
  rw [onChannel]
  split
  · exact h
  · exact .refl c

/-! ## Calls -/

end Connection

/-- The call reads, or it brings a frame. -/
def Call.reads : Call → Bool
  | frame _ | readCycleEnded | beginRead _ | setAutoRead .. => true
  | _ => false

/-- The call is a write that is not to be flushed. -/
def Call.isWrite : Call → Bool
  | write .. => true
  | _ => false

namespace Connection

/-- A call that does not read is made of flushed steps, unless it is a write that is not flushed. -/
theorem flushedPath_after (ht : c.Tidy) {k : Call} (hr : k.reads = false) (hw : k.isWrite = false) :
    FlushedPath c (c.after k) := by
  cases k with
  | frame | readCycleEnded | beginRead | setAutoRead => cases hr
  | write => cases hw
  | writeCompleted write fault => exact flushedPath_writeCompleted c write fault
  | streamFailed stream cause => exact flushedPath_streamFailed c stream cause
  | writabilityChanged writable => exact flushedPath_writabilityChanged c writable
  | connectionLost => exact flushedPath_connectionLost c
  | timePassed now => exact flushedPath_fireDue now _ c
  | runTasks =>
    have htaken : Tells false c { c with tasks := [] } := { (Tells.refl c : Tells false c c) with }
    exact htaken.flushedPath.trans
      (flushedPath_foldl_runTask c.tasks _ fun id hid => (ht.doomed hid).2)
  | openStream path subprotocol => exact flushedPath_openStream ht path subprotocol
  | flush id => exact flushedPath_onChannel id ((UnflushedPath.refl c).flushChannel id)
  | writeAndFlush id payload =>
    exact flushedPath_onChannel id ((unflushedPath_write c id payload).flushChannel id)
  | setPriority id weight => exact flushedPath_onChannel id (flushedPath_setPriority c id weight)
  | close id => exact flushedPath_onChannel id (flushedPath_closeOnRequest c id .reset)
  | closeGracefully id => exact flushedPath_onChannel id (flushedPath_closeOnRequest c id .graceful)
  | nextEvent =>
    exact Tells.flushedPath
      { (Tells.refl c : Tells false c c) with journal := .of_eq (Journal.entries_nextEvent _) }
  | takeEvents | takeOutcomes | dropTicket | advanceClock | setEncoder =>
    exact Tells.flushedPath { (Tells.refl c : Tells false c c) with journal := .of_eq rfl }

/-- Flushes apart, every call that does not read is made of unflushed steps. -/
theorem unflushedPath_after (ht : c.Tidy) {k : Call} (hr : k.reads = false) :
    UnflushedPath true c (c.after k) := by
  cases hw : k.isWrite with
  | false => exact (flushedPath_after ht hr hw).aloud
  | true =>
    cases k with
    | write id payload =>
      change UnflushedPath true c (c.onChannel id _).2
      rw [onChannel]
      split
      · exact unflushedPath_write c id payload
      · exact .refl c
    | _ => cases hw

end Connection

/-! ## Frames -/

/-- The frame concerns the connection as a whole. -/
def Frame.isGeneral : Frame → Bool
  | settings _ | goAway .. => true
  | data .. | headers .. | reset .. | priority .. | windowUpdate .. | unknown .. => false

namespace Connection

/-- The frame asks a server for a conversation. -/
def bootstraps (c : Connection) : Frame → Bool
  | .headers _ block _ => c.config.role = .server && block.Asks
  | _ => false

/-- The frame is passed on to the next listener: it concerns the whole connection, or a stream that
is not registered and that it does not ask to have a conversation on. -/
def passes (c : Connection) (f : Frame) : Bool :=
  f.isGeneral || ((c.registry.get? f.stream).isNone && !c.bootstraps f)

/-- What becomes of a frame that arrives. -/
inductive Arrival (c : Connection) (f : Frame) : Connection → Prop
  | passed {d : Connection} :
      c.passes f = true → FlushedPath c d → Arrival c f (d.forward f)
  /-- The frame is dropped, perhaps because it breaks a rule. -/
  | dropped {d d' : Connection} :
      c.passes f = false → Tells false c d → FlushedPath (d.discard 1 f.payloadSize) d' →
      Arrival c f d'
  /-- The frame brings an item for a channel. -/
  | queued {id : ChannelId} {ch : Channel} {item : Inbound} :
      c.passes f = false → c.registry.get? f.stream = some (.active id) →
      c.channels.get? id = some ch → item.size = f.payloadSize →
      Arrival c f ({ c with reading := true }.receive id ch item)
  /-- The frame brings no bytes, or the channel that they are for is gone. -/
  | heeded {d : Connection} :
      c.passes f = false → FlushedPath c d →
      f.payloadSize = 0 ∨ (∃ id, c.registry.get? f.stream = some (.active id) ∧
        c.channels.get? id = none) →
      Arrival c f d

theorem tells_reading (c : Connection) : Tells loud c { c with reading := true } :=
  { (Tells.refl c : Tells loud c c) with }

section

variable {c : Connection} {id : ChannelId} {f : Frame} (hf : c.passes f = false)
  (hr : c.registry.get? f.stream = some (.active id))
include hf hr

theorem arrival_dataArrived {stream : StreamId} {payload : Bytes} {padding : Nat}
    {endStream : Bool} (heq : f = .data stream payload padding endStream) :
    Arrival c f ({ c with reading := true }.dataArrived id payload padding endStream) := by
  rw [dataArrived]
  split
  next h => exact .heeded hf (tells_reading c).flushedPath (.inr ⟨id, hr, h⟩)
  next ch h =>
    split
    · refine .dropped hf (tells_reading c) ?_
      rw [heq]
      exact flushedPath_failChannel _ id _
    · exact .queued hf hr h (by rw [heq]; rfl)

theorem arrival_headersArrived {stream : StreamId} {block : HeaderBlock} {endStream : Bool}
    (heq : f = .headers stream block endStream) :
    Arrival c f ({ c with reading := true }.headersArrived id block endStream) := by
  have hsize : f.payloadSize = 0 := by rw [heq]; rfl
  have hheeded {d : Connection} (h : FlushedPath { c with reading := true } d) : Arrival c f d :=
    .heeded hf ((tells_reading c).flushedPath.trans h) (.inl hsize)
  rw [headersArrived]
  split
  · exact hheeded (.refl _)
  next ch h =>
    split
    · exact hheeded (flushedPath_responseArrived _ id block endStream)
    · split
      · exact hheeded (flushedPath_failChannel _ id _)
      · exact .queued hf hr h hsize.symm

theorem arrival_channelFrame (hg : f.isGeneral = false) :
    Arrival c f ({ c with reading := true }.channelFrame id f) := by
  have hheeded {d : Connection} (h : FlushedPath { c with reading := true } d)
      (hsize : f.payloadSize = 0) : Arrival c f d :=
    .heeded hf ((tells_reading c).flushedPath.trans h) (.inl hsize)
  cases f with
  | data => exact arrival_dataArrived hf hr rfl
  | headers => exact arrival_headersArrived hf hr rfl
  | reset _ reason => exact hheeded (flushedPath_resetArrived _ id reason) rfl
  | priority => exact hheeded (Tells.emit _ id rfl).flushedPath rfl
  | windowUpdate => exact hheeded (.refl _) rfl
  | unknown => exact .dropped hf (tells_reading c) (.refl _)
  | settings | goAway => cases hg

end

theorem arrival_strayFrame (ht : c.Tidy) {f : Frame} (hg : f.isGeneral = false)
    (hr : c.registry.get? f.stream = none) :
    Arrival c f ({ c with reading := true }.strayFrame f) := by
  have hpassed (hb : c.bootstraps f = false) :
      Arrival c f ({ c with reading := true }.forward f) :=
    .passed (by simp [passes, hg, hr, hb]) (tells_reading c).flushedPath
  unfold strayFrame
  split
  next stream block endStream hrole =>
    split
    next r hcandidate =>
      have hf : c.passes (.headers stream block endStream) = false := by
        have hrole : c.config.role = .server := hrole
        have hasks : block.Asks :=
          Connect.Request.asks_iff_isSome_candidate?.mpr (by rw [hcandidate]; rfl)
        simp [passes, Frame.isGeneral, bootstraps, hrole, hasks]
      have htidy : { c with reading := true }.Tidy :=
        ht.of_eq rfl (Nat.le_refl _) fun _ h => h
      rw [answerRequest]
      split
      · exact .heeded hf ((tells_reading c).flushedPath.trans (flushedPath_refuse ..)) (.inl rfl)
      · exact .heeded hf ((tells_reading c).flushedPath.trans (flushedPath_accept htidy ..))
          (.inl rfl)
    next hcandidate =>
      have hasks : ¬ block.Asks :=
        mt Connect.Request.asks_iff_isSome_candidate?.mp (by rw [hcandidate]; decide)
      exact hpassed (by simp [bootstraps, hasks])
  next f _ _ hnone =>
    apply hpassed
    cases f with
    | headers stream block endStream =>
      have hrole : c.config.role ≠ .server := fun hrole => hnone stream block endStream hrole rfl
      simp [bootstraps, hrole]
    | _ => rfl

theorem arrival (ht : c.Tidy) (f : Frame) : Arrival c f (c.frameArrived f) := by
  have hbegun : FlushedPath c { c with reading := true } := (tells_reading c).flushedPath
  unfold frameArrived
  split
  · exact .passed rfl (hbegun.trans (flushedPath_settingsArrived ..))
  · exact .passed rfl (hbegun.trans (flushedPath_goAwayArrived ..))
  next hsettings hgoAway =>
    have hg : f.isGeneral = false := by
      cases f with
      | settings s => exact absurd rfl (hsettings s)
      | goAway last reason debug => exact absurd rfl (hgoAway last reason debug)
      | _ => rfl
    dsimp only
    split
    next hr => exact arrival_channelFrame (by simp [passes, hg, hr]) hr hg
    next hr => exact .dropped (by simp [passes, hg, hr]) (tells_reading c) (.refl _)
    next hr => exact arrival_strayFrame ht hg hr

end Connection

end ChannelMux
