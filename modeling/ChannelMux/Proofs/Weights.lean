import ChannelMux.Proofs.Accounts
import ChannelMux.Proofs.CorePaths
import Mathlib.Algebra.Order.BigOperators.Group.List
import Mathlib.Algebra.Order.Group.Nat

/-!
# Weights: what the counter of pending bytes counts

A channel counts the bytes that it has accepted and whose fate is not known.  They are in flight,
parked, or, in the middle of a call, loose; `Stage.carried` adds them up, and `Weighed` says that
the counter of an open channel is that sum.  Only the loss of the connection forgets writes without
counting them off, and then the channels are closed.  So whatever is counted off was counted before,
and no subtraction is cut short: what is left and what was counted off add up to what there was
(`Stage.Covered`, `Stage.ClosesExactly`).
-/

namespace ChannelMux

/-- What a write that is on its way weighs for a channel. -/
def Inflight.sizeFor (id : ChannelId) (w : Inflight) : Nat := if w.channel = id then w.size else 0

def LooseWrite.sizeFor (id : ChannelId) (w : LooseWrite) : Nat :=
  if w.channel = id then w.payload.length else 0

/-- The payload bytes of the parked writes. -/
def Channel.parkedSize (ch : Channel) : Nat := (ch.parked.writes.map fun w => w.1.length).sum

/-- The write that a call asks for. -/
def Call.write? : Call → Option (ChannelId × Bytes)
  | write id payload | writeAndFlush id payload => some (id, payload)
  | _ => none

namespace Connection

/-- The sizes of the writes that are on their way for a channel. -/
def bytesInFlight (c : Connection) (id : ChannelId) : Nat :=
  c.inflight.total (Inflight.sizeFor id)

/-- The bytes that were accepted for a channel and whose fate is not known. -/
def outstanding (c : Connection) (id : ChannelId) : Nat :=
  c.bytesInFlight id + c.channels.share Channel.parkedSize id

/-- A write to the channel is not turned away. -/
def accepts (c : Connection) (id : ChannelId) : Bool :=
  (c.channels.get? id).any fun ch => !ch.closed && !ch.outboundClosed

/-- If the call writes to a channel, what is outstanding on it stays below 2⁶⁴. -/
def Bounded (c : Connection) (k : Call) : Prop :=
  ∀ w ∈ k.write?, c.accepts w.1 = true → c.outstanding w.1 + w.2.length < UInt64.size

instance (c : Connection) (k : Call) : Decidable (c.Bounded k) :=
  inferInstanceAs (Decidable (∀ w ∈ k.write?, _ → _))

def BoundedRun : Connection → List Call → Prop
  | _, [] => True
  | c, k :: ks => c.Bounded k ∧ (c.after k).BoundedRun ks

instance instDecidableBoundedRun : (c : Connection) → (ks : List Call) → Decidable (c.BoundedRun ks)
  | _, [] => inferInstanceAs (Decidable True)
  | c, k :: ks =>
    have := instDecidableBoundedRun (c.after k) ks
    inferInstanceAs (Decidable (_ ∧ _))

end Connection

/-- What a channel carries: the bytes in flight, the loose ones and the parked ones. -/
def Stage.carried (s : Stage) (id : ChannelId) : Nat :=
  s.conn.bytesInFlight id + (s.loose.map (LooseWrite.sizeFor id)).sum +
    s.conn.channels.share Channel.parkedSize id

/-- A channel parks writes, if its handshake is pending, and knows their size. -/
structure Channel.Stored (ch : Channel) : Prop extends ch.Parking where
  bytes : ch.parked.bytes = ch.parkedSize

/-- The second channel counts and stores what the first does. -/
structure Channel.Level (ch ch' : Channel) : Prop extends ch.Even ch' where
  pendingBytes : ch'.pendingBytes = ch.pendingBytes

/-- The counter of every open channel is what the channel carries. -/
def Stage.Exact (s : Stage) : Prop :=
  ∀ id ch, s.conn.channels.get? id = some ch → ch.closed = false → ch.pendingBytes = s.carried id

/-- The counter of the channel has gone down by as many bytes. -/
def Connection.CountsOff (c c' : Connection) (id : ChannelId) (size : Nat) : Prop :=
  ∃ ch ch', c.channels.get? id = some ch ∧ c'.channels.get? id = some ch' ∧
    ch'.pendingBytes + size = ch.pendingBytes

/-- What may be counted off in a state of a call is counted off in full: the bytes of a write in
flight, should its fate become known, those of a loose write, should the encoder refuse it, and
those of parked writes, should they be given up, be it that the channel is closed or that its
handshake fails.  Giving up a second time counts nothing off. -/
structure Stage.Covered (s : Stage) : Prop where
  inflight : ∀ w e, s.conn.inflight.get? w = some e → ∀ fault,
    s.conn.CountsOff (s.conn.settleWrite w e fault) e.channel e.size
  loose : ∀ w ∈ s.loose, s.conn.isOpen w.channel = true → ∀ fault,
    s.conn.CountsOff ((s.conn.enterWrite w.channel w.payload w.ticket).settleWrite s.conn.nextWrite
      ⟨w.channel, w.payload.length, w.ticket⟩ fault) w.channel w.payload.length
  parked : ∀ id ch, s.conn.channels.get? id = some ch →
    ch.giveUpParked.pendingBytes + ch.parked.bytes = ch.pendingBytes ∧
      ch.giveUpParked.parked.bytes = 0
  closed : ∀ id ch, s.conn.channels.get? id = some ch → ch.closed = false → ∀ kind,
    s.conn.CountsOff (s.conn.close id kind) id ch.parked.bytes
  failed : ∀ id ch, s.conn.channels.get? id = some ch → ch.closed = false → ∀ cause,
    s.conn.CountsOff (s.conn.failHandshake id cause) id ch.parked.bytes

/-- Where a channel is closed, what it had parked was counted off, and nothing else. -/
def Stage.ClosesExactly (s t : Stage) : Prop :=
  ∀ id ch ch', s.conn.channels.get? id = some ch → t.conn.channels.get? id = some ch' →
    ch'.closed = true → ch'.pendingBytes + ch.parked.bytes = ch.pendingBytes

namespace Channel

variable {ch ch' : Channel}

theorem Level.of_core (h : ch'.core = ch.core) : ch.Level ch' where
  closed := congrArg Core.closed h
  pending := congrArg (fun core => core.handshake.isPending) h
  parked := congrArg Core.parked h
  pendingBytes := congrArg Core.pendingBytes h

theorem Level.refl (ch : Channel) : ch.Level ch := .of_core rfl

theorem Level.receive (ch : Channel) (item : Inbound) : ch.Level (ch.receive item) := by
  rw [Channel.receive]
  dsimp only
  split <;> exact ⟨⟨rfl, rfl, rfl⟩, rfl⟩

theorem parkedSize_of_decided (h : ch.Parking) (hp : ch.handshake.isPending = false) :
    ch.parkedSize = 0 := by
  rw [parkedSize, h.decided hp]
  rfl

namespace Stored

theorem of_even (h : ch.Stored) (heven : ch.Even ch') : ch'.Stored where
  toParking := h.even heven
  bytes := by rw [parkedSize, heven.parked]; exact h.bytes

/-- Writes that were given up weigh nothing. -/
theorem giveUp (h : ch.Stored) (hparked : ch'.parked = ch.parked.giveUp.2)
    (hp : ch'.handshake.isPending = false) : ch'.Stored where
  closed _ := hp
  pending hpending := absurd (hpending.symm.trans hp) (by decide)
  decided _ := hparked ▸ h.writes_giveUp
  bytes := by
    rw [parkedSize, hparked, h.writes_giveUp, Parked.giveUp]
    split
    next hs =>
      rw [h.bytes, parkedSize, h.writes_of_settled hs]
    next => rfl

/-- A closed channel has nothing parked. -/
theorem bytes_of_closed (h : ch.Stored) (hclosed : ch.closed = true) : ch.parked.bytes = 0 :=
  h.bytes.trans (parkedSize_of_decided h.toParking (h.closed hclosed))

/-- Writes are not counted as parked once they were given up. -/
theorem bytes_giveUp (h : ch.Stored) : ch.parked.giveUp.2.bytes = 0 := by
  have hgiven : ch.giveUpParked.Stored := h.giveUp rfl ch.isPending_giveUpParked
  exact hgiven.bytes.trans (parkedSize_of_decided hgiven.toParking ch.isPending_giveUpParked)

end Stored

end Channel

namespace Connection

variable {strict tight : Prop} {k : Cause} {c c' d : Connection} {id : ChannelId}
  {ch ch' : Channel} {ws : List LooseWrite} {w : LooseWrite} {s t : Stage}

/-- The counters of open channels are exact, or at least high enough. -/
structure Weighed (tight : Prop) (s : Stage) : Prop where
  numbered : ∀ w e, s.conn.inflight.get? w = some e → w < s.conn.nextWrite
  owned : ∀ w e, s.conn.inflight.get? w = some e → s.conn.isOpen e.channel = true
  loose : ∀ w ∈ s.loose, w.channel < s.conn.nextChannel
  stored : ∀ id ch, s.conn.channels.get? id = some ch → ch.Stored
  covered : ∀ id ch, s.conn.channels.get? id = some ch → ch.closed = false →
    s.carried id ≤ ch.pendingBytes
  counted : tight → s.Exact

theorem countsOff_settleWrite (write : WriteId) {w : Inflight}
    (hch : c.channels.get? w.channel = some ch) (hle : w.size ≤ ch.pendingBytes)
    (fault : Option WriteFault) : c.CountsOff (c.settleWrite write w fault) w.channel w.size := by
  obtain ⟨_, _, heq, -⟩ := settleWrite_eq write hch fault
  rw [heq]
  exact ⟨ch, _, hch, Table.get?_insert_self .., Nat.sub_add_cancel hle⟩

namespace Weighed

theorem get?_nextWrite (h : Weighed tight s) : s.conn.inflight.get? s.conn.nextWrite = none :=
  Option.eq_none_iff_forall_ne_some.mpr fun _ he => Nat.lt_irrefl _ (h.numbered _ _ he)

/-- The counters of channels that were open move with what the channels carry. -/
theorem of_moved (h : Weighed tight s)
    (hnumbered : ∀ w e, t.conn.inflight.get? w = some e → w < t.conn.nextWrite)
    (howned : ∀ w e, t.conn.inflight.get? w = some e → t.conn.isOpen e.channel = true)
    (hloose : ∀ w ∈ t.loose, w.channel < t.conn.nextChannel)
    (hstored : ∀ id ch, t.conn.channels.get? id = some ch → ch.Stored)
    (hmoved : ∀ id ch', t.conn.channels.get? id = some ch' → ch'.closed = false →
      ch'.pendingBytes = t.carried id ∨
      ∃ ch, s.conn.channels.get? id = some ch ∧ ch.closed = false ∧
        (s.carried id ≤ ch.pendingBytes →
          ch'.pendingBytes + s.carried id = ch.pendingBytes + t.carried id)) :
    Weighed tight t where
  numbered := hnumbered
  owned := howned
  loose := hloose
  stored := hstored
  covered id ch' hch' ho' := by
    rcases hmoved id ch' hch' ho' with heq | ⟨ch, hch, ho, hmove⟩
    · exact Nat.le_of_eq heq.symm
    have hle := h.covered id ch hch ho
    have heq := hmove hle
    omega
  counted htight id ch' hch' ho' := by
    rcases hmoved id ch' hch' ho' with heq | ⟨ch, hch, ho, hmove⟩
    · exact heq
    have hcount := h.counted htight id ch hch ho
    have heq := hmove (Nat.le_of_eq hcount.symm)
    omega

theorem level (h : Weighed tight ⟨c, ws⟩) (hchannels : c.channels.Matches Channel.Level c'.channels)
    (hinflight : c'.inflight = c.inflight) (hwrite : c.nextWrite ≤ c'.nextWrite)
    (hnext : c.nextChannel ≤ c'.nextChannel) : Weighed tight ⟨c', ws⟩ := by
  refine h.of_moved ?_ ?_ ?_ ?_ ?_
  · intro w e he
    exact Nat.lt_of_lt_of_le (h.numbered w e (hinflight ▸ he)) hwrite
  · intro w e he
    obtain ⟨ch, hch, ho⟩ := isOpen_iff.mp (h.owned w e (hinflight ▸ he))
    obtain ⟨ch', hch', hlevel⟩ := hchannels.forth hch
    exact isOpen_iff.mpr ⟨ch', hch', hlevel.closed.trans ho⟩
  · intro w hw
    exact Nat.lt_of_lt_of_le (h.loose w hw) hnext
  · intro id ch' hch'
    obtain ⟨ch, hch, hlevel⟩ := hchannels.back hch'
    exact (h.stored id ch hch).of_even hlevel.toEven
  · intro id ch' hch' ho'
    obtain ⟨ch, hch, hlevel⟩ := hchannels.back hch'
    refine .inr ⟨ch, hch, hlevel.closed.symm.trans ho', fun _ => ?_⟩
    have hshare : c'.channels.share Channel.parkedSize id =
        c.channels.share Channel.parkedSize id := by
      rw [Table.share_of_some _ hch, Table.share_of_some _ hch', Channel.parkedSize, hlevel.parked]
      rfl
    rw [hlevel.pendingBytes, Stage.carried, Stage.carried, bytesInFlight, bytesInFlight]
    simp only [hinflight, hshare]

/-- What is on its way for a channel does not depend on what else there is to it. -/
theorem carried_insert (hch : c.channels.get? id = some ch)
    (hsize : ch'.parkedSize = ch.parkedSize) (hchannels : c'.channels = c.channels.insert id ch')
    (hinflight : c'.inflight = c.inflight) (ws : List LooseWrite) (j : ChannelId) :
    (Stage.mk c' ws).carried j = (Stage.mk c ws).carried j := by
  simp only [Stage.carried, bytesInFlight, hinflight, hchannels, Table.share_insert]
  split
  next hj => rw [hj, Table.share_of_some _ hch, hsize]
  next => rfl

/-- The account of one open channel moves; what the others carry stays. -/
theorem of_one {ws' : List LooseWrite} (h : Weighed tight ⟨c, ws⟩)
    (hch : c.channels.get? id = some ch) (ho : ch.closed = false) (ch' : Channel)
    (ho' : ch'.closed = false) (hstored : ch'.Stored)
    (hchannels : c'.channels = c.channels.insert id ch')
    (hnumbered : ∀ w e, c'.inflight.get? w = some e → w < c'.nextWrite)
    (howned : ∀ w e, c'.inflight.get? w = some e → e.channel = id ∨ c.inflight.get? w = some e)
    (hloose : ∀ w ∈ ws', w.channel < c'.nextChannel)
    (hothers : ∀ j, j ≠ id → (Stage.mk c' ws').carried j = (Stage.mk c ws).carried j)
    (hself : (Stage.mk c ws).carried id ≤ ch.pendingBytes →
      ch'.pendingBytes + (Stage.mk c ws).carried id =
        ch.pendingBytes + (Stage.mk c' ws').carried id) : Weighed tight ⟨c', ws'⟩ := by
  have hopen (j : ChannelId) : c'.isOpen j = c.isOpen j := by
    rw [isOpen, hchannels]
    exact isOpen_insert hch (ho'.trans ho.symm) j
  refine h.of_moved hnumbered ?_ hloose ?_ ?_
  · intro w e he
    rw [hopen]
    rcases howned w e he with heq | he
    · exact heq ▸ isOpen_iff.mpr ⟨ch, hch, ho⟩
    · exact h.owned w e he
  · intro j d hd
    rw [hchannels] at hd
    rcases Table.get?_insert_cases hd with ⟨-, rfl⟩ | hd
    · exact hstored
    · exact h.stored j d hd
  · intro j d hd hdo
    simp only [hchannels, Table.get?_insert] at hd
    split at hd
    next hj =>
      obtain rfl := Option.some.inj hd
      subst hj
      exact .inr ⟨ch, hch, ho, hself⟩
    next hj =>
      refine .inr ⟨d, hd, hdo, fun _ => ?_⟩
      rw [hothers j hj]

/-- A channel is closed, and with it goes all that was on its way for it. -/
theorem of_closed (h : Weighed tight ⟨c, ws⟩) (hclosed : ch'.closed = true) (hstored : ch'.Stored)
    (hchannels : c'.channels = c.channels.insert id ch') (hnext : c'.nextChannel = c.nextChannel)
    (hwrite : c.nextWrite ≤ c'.nextWrite)
    (hinflight : c'.inflight = c.inflight.keep fun w => w.channel ≠ id) :
    Weighed tight ⟨c', ws⟩ := by
  have hkept {w : WriteId} {e : Inflight} (he : c'.inflight.get? w = some e) :
      c.inflight.get? w = some e ∧ e.channel ≠ id := by
    rw [hinflight, Table.get?_keep, Option.filter_eq_some_iff] at he
    exact ⟨he.1, of_decide_eq_true he.2⟩
  refine h.of_moved ?_ ?_ ?_ ?_ ?_
  · intro w e he
    exact Nat.lt_of_lt_of_le (h.numbered w e (hkept he).1) hwrite
  · intro w e he
    obtain ⟨he, hne⟩ := hkept he
    have hopen := h.owned w e he
    rw [isOpen] at hopen ⊢
    rw [hchannels, Table.get?_insert_of_ne hne]
    exact hopen
  · intro w hw
    exact hnext ▸ h.loose w hw
  · intro j d hd
    rw [hchannels] at hd
    rcases Table.get?_insert_cases hd with ⟨-, rfl⟩ | hd
    · exact hstored
    · exact h.stored j d hd
  · intro j d hd hdo
    simp only [hchannels, Table.get?_insert] at hd
    split at hd
    next =>
      obtain rfl := Option.some.inj hd
      exact absurd (hdo.symm.trans hclosed) (by decide)
    next hj =>
      have hweight : (fun e : Inflight => if decide (e.channel ≠ id) = true then e.sizeFor j
          else 0) = Inflight.sizeFor j := by
        funext e
        by_cases he : e.channel = id
        · simp [he, Inflight.sizeFor, Ne.symm hj]
        · simp [he]
      refine .inr ⟨d, hd, hdo, fun _ => ?_⟩
      simp only [Stage.carried, bytesInFlight, hinflight, Table.total_keep, hweight, hchannels,
        Table.share_insert, if_neg hj]

/-! ### Steps -/

theorem made (h : Weighed tight ⟨c, ws⟩) (ht : c.Tidy)
    (hchannels : c'.channels = c.channels.insert c.nextChannel ch) (ho : ch.closed = false)
    (hparked : ch.parked = {}) (hbytes : ch.pendingBytes = 0)
    (hnext : c'.nextChannel = c.nextChannel + 1) (hinflight : c'.inflight = c.inflight)
    (hwrite : c'.nextWrite = c.nextWrite) : Weighed tight ⟨c', ws⟩ := by
  have hsize : ch.parkedSize = 0 := by rw [Channel.parkedSize, hparked]; rfl
  have hnone : (Stage.mk c' ws).carried c.nextChannel = 0 := by
    have hflight : c'.inflight.total (Inflight.sizeFor c.nextChannel) = 0 := by
      refine Table.total_eq_zero fun w e he => if_neg ?_
      intro heq
      obtain ⟨d, hd, -⟩ := isOpen_iff.mp (h.owned w e (hinflight ▸ he))
      exact Nat.lt_irrefl _ (heq ▸ ht.numbered hd)
    have hloose : (ws.map (LooseWrite.sizeFor c.nextChannel)).sum = 0 := by
      refine List.sum_eq_zero_iff_forall_eq_nat.mpr fun n hn => ?_
      obtain ⟨w, hw, rfl⟩ := List.mem_map.mp hn
      exact if_neg (Nat.ne_of_lt (h.loose w hw))
    simp only [Stage.carried, bytesInFlight, hflight, hloose, hchannels, Table.share_insert,
      if_pos, hsize]
  refine h.of_moved ?_ ?_ ?_ ?_ ?_
  · intro w e he
    exact hwrite ▸ h.numbered w e (hinflight ▸ he)
  · intro w e he
    obtain ⟨d, hd, hdo⟩ := isOpen_iff.mp (h.owned w e (hinflight ▸ he))
    have hne := Nat.ne_of_lt (ht.numbered hd)
    exact isOpen_iff.mpr ⟨d, by rw [hchannels, Table.get?_insert_of_ne hne, hd], hdo⟩
  · intro w hw
    exact hnext ▸ Nat.lt_succ_of_lt (h.loose w hw)
  · intro j d hd
    rw [hchannels] at hd
    rcases Table.get?_insert_cases hd with ⟨-, rfl⟩ | hd
    · refine ⟨⟨?_, fun _ => by rw [hparked], fun _ => by rw [hparked]⟩, by rw [hsize, hparked]⟩
      intro hc
      exact absurd (ho.symm.trans hc) (by decide)
    · exact h.stored j d hd
  · intro j d hd hdo
    simp only [hchannels, Table.get?_insert] at hd
    split at hd
    next hj =>
      obtain rfl := Option.some.inj hd
      subst hj
      exact .inl (hbytes.trans hnone.symm)
    next hj =>
      refine .inr ⟨d, hd, hdo, fun _ => ?_⟩
      simp only [Stage.carried, bytesInFlight, hinflight, hchannels, Table.share_insert, if_neg hj]

theorem carried_cons (c : Connection) (w : LooseWrite) (ws : List LooseWrite) (j : ChannelId) :
    (Stage.mk c (w :: ws)).carried j = (Stage.mk c ws).carried j + w.sizeFor j := by
  rw [Stage.carried, Stage.carried]
  simp only [List.map_cons, List.sum_cons]
  omega

/-- A write is accepted, and there is room in the counter for its bytes. -/
theorem takenUp (h : Weighed tight ⟨c, []⟩) (htight : tight) (ht : c.Tidy)
    (hch : c.channels.get? id = some ch) (ho : ch.closed = false) (payload : Bytes)
    (ticket : Ticket) (hroom : c.outstanding id + payload.length < UInt64.size) :
    Weighed tight
      ⟨(c.issue .held).2.countBytes id ch payload.length, [⟨id, payload, ticket⟩]⟩ := by
  have hopen : (ch.addPending payload.length c.config.highWatermark).1.closed = false := ho
  have hsize : (ch.addPending payload.length c.config.highWatermark).1.parkedSize =
    ch.parkedSize := rfl
  have hcounted : (ch.addPending payload.length c.config.highWatermark).1.pendingBytes =
      ch.pendingBytes + payload.length := by
    have hcount : ch.pendingBytes = c.outstanding id := h.counted htight id ch hch ho
    exact Nat.min_eq_left (Nat.le_sub_one_of_lt (hcount ▸ hroom))
  obtain ⟨_, heq, -⟩ := countBytes_eq (c.issue .held).2 id ch payload.length
  have hsame (j : ChannelId) :
      (Stage.mk ((c.issue .held).2.countBytes id ch payload.length) []).carried j =
        (Stage.mk c []).carried j :=
    carried_insert hch hsize (by rw [heq]; rfl) (by rw [heq]; rfl) [] j
  refine h.of_one hch ho _ hopen ((h.stored id ch hch).of_even ⟨rfl, rfl, rfl⟩) (by rw [heq]; rfl)
    ?_ ?_ ?_ ?_ ?_
  · rw [heq]
    exact h.numbered
  · intro w e he
    rw [heq] at he
    exact .inr he
  · intro w hw
    obtain rfl := List.mem_singleton.mp hw
    rw [heq]
    exact ht.numbered hch
  · intro j hj
    rw [carried_cons, hsame, LooseWrite.sizeFor, if_neg (Ne.symm hj)]
    rfl
  · intro _
    rw [carried_cons, hsame, LooseWrite.sizeFor, if_pos rfl, hcounted]
    dsimp only
    omega

theorem parked (h : Weighed tight ⟨c, w :: ws⟩) (hch : c.channels.get? w.channel = some ch)
    (ho : ch.closed = false) (hp : ch.handshake.isPending = true) {parked : Parked}
    (hpush : ch.parked.push? w.payload w.ticket = some parked) :
    Weighed tight ⟨{ c with
      channels := c.channels.insert w.channel { ch with parked := parked } }, ws⟩ := by
  have hstored := h.stored _ _ hch
  obtain ⟨hwrites, hsettled, hbytes⟩ := push?_eq_some hpush
  have hsize : ({ ch with parked := parked } : Channel).parkedSize =
      ch.parkedSize + w.payload.length := by
    rw [Channel.parkedSize, hwrites, List.map_append, List.sum_append]
    rfl
  refine h.of_one hch ho { ch with parked := parked } ho ⟨⟨hstored.closed, ?_, ?_⟩, ?_⟩ rfl
    h.numbered (fun _ _ he => .inr he) ?_ ?_ ?_
  · intro _
    exact hsettled.trans (hstored.pending hp)
  · intro hnot
    exact absurd (hp.symm.trans hnot) (by decide)
  · rw [hsize, ← hstored.bytes]
    exact hbytes
  · intro v hv
    exact h.loose v (List.mem_cons_of_mem _ hv)
  · intro j hj
    rw [carried_cons, LooseWrite.sizeFor, if_neg (Ne.symm hj)]
    simp only [Stage.carried, bytesInFlight, Table.share_insert, if_neg hj]
    rfl
  · intro _
    rw [carried_cons, LooseWrite.sizeFor, if_pos rfl]
    simp only [Stage.carried, bytesInFlight, Table.share_insert, if_pos, hsize,
      Table.share_of_some _ hch]
    omega

/-- The sizes of the writes of one channel. -/
theorem sum_sizeFor (id j : ChannelId) (writes : List (Bytes × Ticket)) :
    ((writes.map fun w => (⟨id, w.1, w.2⟩ : LooseWrite)).map (LooseWrite.sizeFor j)).sum =
      if id = j then (writes.map fun w => w.1.length).sum else 0 := by
  induction writes with
  | nil => simp
  | cons w writes ih =>
    simp only [List.map_cons, List.sum_cons, ih, LooseWrite.sizeFor]
    split <;> rfl

theorem unparked (h : Weighed tight ⟨c, []⟩) (ht : c.Tidy) (hch : c.channels.get? id = some ch)
    (ho : ch.closed = false) (hs : ch.handshake = .requestSent) (subprotocol : Option String)
    (compression : Option Deflate.Terms) :
    Weighed tight ⟨c.markComplete id subprotocol compression,
      (ch.parked.take.1.getD []).map fun w => ⟨id, w.1, w.2⟩⟩ := by
  have htake := (h.stored _ _ hch).take_eq (by rw [hs]; rfl)
  rw [markComplete, Table.modify_eq_insert hch, htake]
  refine h.of_one hch ho { ch with
      handshake := .complete, subprotocol := subprotocol, compression := compression,
      parked := .done } ho
    ⟨⟨fun _ => rfl, fun hp => absurd hp Bool.false_ne_true, fun _ => rfl⟩, rfl⟩ rfl h.numbered
    (fun _ _ he => .inr he) ?_ ?_ ?_
  · intro w hw
    obtain ⟨_, _, rfl⟩ := List.mem_map.mp hw
    exact ht.numbered hch
  · intro j hj
    simp only [Stage.carried, bytesInFlight, Table.share_insert, if_neg hj, Option.getD_some,
      sum_sizeFor, if_neg (Ne.symm hj)]
    rfl
  · intro _
    simp only [Stage.carried, bytesInFlight, Table.share_insert, if_pos, Option.getD_some,
      sum_sizeFor, Table.share_of_some _ hch, List.map_nil, List.sum_nil]
    rfl

/-- A loose write is put among those on their way. -/
theorem entered (h : Weighed tight ⟨c, w :: ws⟩) (hch : c.channels.get? w.channel = some ch)
    (ho : ch.closed = false) (journal : Journal) :
    Weighed tight
      ⟨{ c.enterWrite w.channel w.payload w.ticket with journal := journal }, ws⟩ := by
  have hflight (j : ChannelId) :
      (c.inflight.insert c.nextWrite ⟨w.channel, w.payload.length, w.ticket⟩).total
        (Inflight.sizeFor j) = c.inflight.total (Inflight.sizeFor j) + w.sizeFor j := by
    have htotal := Table.total_insert (Inflight.sizeFor j) c.inflight c.nextWrite
      ⟨w.channel, w.payload.length, w.ticket⟩
    rw [Table.share_of_none _ h.get?_nextWrite] at htotal
    exact htotal
  have hcarried (j : ChannelId) :
      (Stage.mk { c.enterWrite w.channel w.payload w.ticket with journal := journal } ws).carried
        j = (Stage.mk c (w :: ws)).carried j := by
    rw [carried_cons]
    simp only [Stage.carried, bytesInFlight, enterWrite, hflight]
    omega
  refine h.of_one hch ho ch ho (h.stored _ _ hch) (Table.insert_self hch).symm ?_ ?_ ?_ ?_ ?_
  · intro v e he
    rcases Table.get?_insert_cases he with ⟨hv, -⟩ | he
    · exact hv ▸ Nat.lt_succ_self _
    · exact Nat.lt_succ_of_lt (h.numbered v e he)
  · intro v e he
    rcases Table.get?_insert_cases he with ⟨-, rfl⟩ | he
    · exact .inl rfl
    · exact .inr he
  · intro v hv
    exact h.loose v (List.mem_cons_of_mem _ hv)
  · intro j _
    exact hcarried j
  · intro _
    rw [hcarried]

/-- The fate of a write is known, and its bytes are counted off. -/
theorem settled (h : Weighed tight ⟨c, ws⟩) {write : WriteId} {e : Inflight}
    (he : c.inflight.get? write = some e) (fault : Option WriteFault) :
    Weighed tight ⟨c.settleWrite write e fault, ws⟩ := by
  obtain ⟨ch, hch, ho⟩ := isOpen_iff.mp (h.owned write e he)
  have hflight (j : ChannelId) :
      (c.inflight.erase write).total (Inflight.sizeFor j) + e.sizeFor j =
        c.inflight.total (Inflight.sizeFor j) := by
    have htotal := Table.total_erase (Inflight.sizeFor j) c.inflight write
    rwa [Table.share_of_some _ he] at htotal
  obtain ⟨_, _, heq, -⟩ := settleWrite_eq (c := c) write hch fault
  rw [heq]
  refine h.of_one hch ho (ch.subPending e.size c.config.lowWatermark c.isWritable).1 ho
    ((h.stored _ _ hch).of_even ⟨rfl, rfl, rfl⟩) rfl ?_ ?_ h.loose ?_ ?_
  · intro v d hd
    exact h.numbered v d (Table.get?_of_erase hd)
  · intro v d hd
    exact .inr (Table.get?_of_erase hd)
  · intro j hj
    have hflight := hflight j
    rw [Inflight.sizeFor, if_neg (Ne.symm hj)] at hflight
    simp only [Stage.carried, bytesInFlight, Table.share_insert, if_neg hj]
    omega
  · intro hle
    have hflight := hflight e.channel
    rw [Inflight.sizeFor, if_pos rfl] at hflight
    have hsize : (ch.subPending e.size c.config.lowWatermark c.isWritable).1.parkedSize =
      ch.parkedSize := rfl
    have hcounted : (ch.subPending e.size c.config.lowWatermark c.isWritable).1.pendingBytes =
      ch.pendingBytes - e.size := rfl
    simp only [Stage.carried, bytesInFlight, Table.share_insert, if_pos, hsize, hcounted,
      Table.share_of_some _ hch] at hle ⊢
    omega

/-- A write is given up that can no longer be sent: its channel is closed. -/
theorem dropped (h : Weighed tight ⟨c, w :: ws⟩)
    (hgone : ∀ ch, c.channels.get? w.channel = some ch → ch.closed = false →
      ch.handshake.isPending = true ∧ ch.parked.settled = true) (o : Outcome) :
    Weighed tight ⟨c.resolve w.ticket o, ws⟩ := by
  refine h.of_moved h.numbered h.owned (fun v hv => h.loose v (List.mem_cons_of_mem _ hv))
    h.stored ?_
  intro id ch hch ho
  have hne : w.channel ≠ id := by
    rintro rfl
    obtain ⟨hp, hs⟩ := hgone ch hch ho
    exact absurd (hs.symm.trans ((h.stored _ _ hch).pending hp)) (by decide)
  refine .inr ⟨ch, hch, ho, fun _ => ?_⟩
  rw [carried_cons, LooseWrite.sizeFor, if_neg hne]
  rfl

theorem gaveUp (h : Weighed tight ⟨c, ws⟩) (hch : c.channels.get? id = some ch)
    (hclosed : ch.closed = true) (cause : Fault) : Weighed tight ⟨c.failParked id cause, ws⟩ := by
  have hkeep : c.inflight.keep (fun e => e.channel ≠ id) = c.inflight := by
    refine Table.keep_eq_self fun w e he => decide_eq_true ?_
    intro heq
    obtain ⟨d, hd, ho⟩ := isOpen_iff.mp (h.owned w e he)
    obtain rfl := Option.some.inj (hch.symm.trans (heq ▸ hd))
    exact absurd (ho.symm.trans hclosed) (by decide)
  have hstored : ch.giveUpParked.Stored :=
    (h.stored id ch hch).giveUp rfl ch.isPending_giveUpParked
  rw [failParked_eq hch]
  exact h.of_closed (by exact hclosed) hstored rfl rfl (Nat.le_refl _) hkeep.symm

theorem ended (h : Weighed tight ⟨c, ws⟩) (hch : c.channels.get? id = some ch) {es : List Entry}
    (he : Ended c id ch es c') : Weighed tight ⟨c', ws⟩ := by
  obtain ⟨ch', hchannels, hover⟩ := he.channels
  exact h.of_closed hover.closed ((h.stored id ch hch).giveUp hover.parked hover.handshake)
    hchannels he.nextChannel he.nextWrite he.inflight

/-- The writes on their way are lost before the channels are closed, which goes on to count
them. -/
theorem inflightLost (h : Weighed tight ⟨c, ws⟩) (hloose : ¬ tight) :
    Weighed tight ⟨c.loseInflight, ws⟩ where
  numbered _ _ he := nomatch he
  owned _ _ he := nomatch he
  loose := h.loose
  stored := h.stored
  covered id ch hch ho := by
    have hle := h.covered id ch hch ho
    have hnone : (Table.empty : Table Inflight).total (Inflight.sizeFor id) = 0 := rfl
    simp only [Stage.carried, bytesInFlight, loseInflight, resolveAll, hnone] at hle ⊢
    omega
  counted htight := absurd htight hloose

theorem tornDown (h : Weighed tight ⟨c, ws⟩)
    (hclosed : ∀ ch, c.channels.get? id = some ch → ch.closed = true) (tasks : List Task) :
    Weighed tight ⟨{ c with tasks := tasks, channels := c.channels.erase id }, ws⟩ := by
  have hne {j : ChannelId} {d : Channel} (hd : c.channels.get? j = some d)
      (ho : d.closed = false) : j ≠ id := by
    rintro rfl
    exact absurd (ho.symm.trans (hclosed d hd)) (by decide)
  refine h.of_moved h.numbered ?_ h.loose ?_ ?_
  · intro w e he
    obtain ⟨d, hd, ho⟩ := isOpen_iff.mp (h.owned w e he)
    exact isOpen_iff.mpr ⟨d, by rw [Table.get?_erase, if_neg (hne hd ho), hd], ho⟩
  · intro j d hd
    exact h.stored j d (Table.get?_of_erase hd)
  · intro j d hd ho
    have hd' := Table.get?_of_erase hd
    refine .inr ⟨d, hd', ho, fun _ => ?_⟩
    simp only [Stage.carried, bytesInFlight, Table.share_of_some _ hd, Table.share_of_some _ hd']

/-- One channel is given a new value that counts and stores what it did. -/
theorem levelOne (h : Weighed tight ⟨c, ws⟩) (hch : c.channels.get? id = some ch)
    (hchannels : c'.channels = c.channels.insert id ch') (hlevel : ch.Level ch')
    (hinflight : c'.inflight = c.inflight) (hwrite : c'.nextWrite = c.nextWrite)
    (hnext : c'.nextChannel = c.nextChannel) : Weighed tight ⟨c', ws⟩ :=
  h.level (hchannels ▸ .insert .refl hch hlevel) hinflight (Nat.le_of_eq hwrite.symm)
    (Nat.le_of_eq hnext.symm)

theorem recovered (h : Weighed tight ⟨c, ws⟩) (hch : c.channels.get? id = some ch) :
    Weighed tight ⟨c.recoverChannel id, ws⟩ := by
  obtain ⟨_, _, heq, -⟩ := recoverChannel_eq hch
  rw [heq]
  exact h.levelOne hch rfl ⟨⟨rfl, rfl, rfl⟩, rfl⟩ rfl rfl rfl

/-- Where only the loss of the connection is without exact counters, every step keeps them. -/
theorem coreStep (h : Weighed (k.call ≠ .connectionLost) s) (ht : s.conn.Tidy)
    (hb : k.conn.Bounded k.call) (hs : CoreStep strict k s t) :
    Weighed (k.call ≠ .connectionLost) t := by
  cases hs with
  | plain ws hplain =>
    exact h.level (hplain.channels fun _ _ => .of_core) hplain.inflight
      (Nat.le_of_eq hplain.nextWrite.symm) (Nat.le_of_eq hplain.nextChannel.symm)
  | asked path subprotocol =>
    rw [addAsking_eq]
    exact h.made ht rfl rfl rfl rfl rfl rfl rfl
  | requested block ws hch ho ha =>
    exact h.levelOne hch rfl ⟨⟨rfl, by rw [ha]; rfl, rfl⟩, rfl⟩ rfl rfl rfl
  | enrolled => exact h.made ht rfl rfl rfl rfl rfl rfl rfl
  | turnedAway => exact h.level (.refl .refl _) rfl (Nat.le_refl _) (Nat.le_succ _)
  | weightCached weight ws hch =>
    exact h.levelOne hch rfl ⟨⟨rfl, rfl, rfl⟩, rfl⟩ rfl rfl rfl
  | received item ws hch => exact h.levelOne hch rfl (.receive _ item) rfl rfl rfl
  | handed ws hch => exact h.levelOne hch rfl ⟨⟨rfl, rfl, rfl⟩, rfl⟩ rfl rfl rfl
  | @takenUp c id ch payload hk hc hch ho hout =>
    have hwrite : (id, payload) ∈ k.call.write? := by rcases hk with hk | hk <;> rw [hk] <;> rfl
    have haccepts : k.conn.accepts id = true := by rw [hc, accepts, hch]; simp [ho, hout]
    have htight : k.call ≠ .connectionLost := by rcases hk with hk | hk <;> rw [hk] <;> nofun
    exact h.takenUp htight ht hch ho payload _ (hc ▸ hb _ hwrite haccepts)
  | parked hch ho hp hpush => exact h.parked hch ho hp hpush
  | unparked subprotocol compression hch hs =>
    exact h.unparked ht hch (ht.open_of_requestSent hch hs) hs subprotocol compression
  | sent hch ho => exact h.entered hch ho _
  | bounced f hch ho => exact (h.entered hch ho _).settled (Table.get?_insert_self ..) (some f)
  | settled fault ws _ he => exact h.settled he fault
  | dropped hgone => exact h.dropped hgone _
  | recovered ws hch => exact h.recovered hch
  | ended ws hch _ _ he => exact h.ended hch he
  | gaveUp cause ws hch hclosed => exact h.gaveUp hch hclosed cause
  | inflightLost c ws hk => exact h.inflightLost (not_not.mpr hk)
  | cleared | missed | turned | unheard =>
    exact h.level (.refl .refl _) rfl (Nat.le_refl _) (Nat.le_refl _)
  | tornDown ws htask => exact h.tornDown (ht.doomed (htask ▸ List.mem_cons_self)).2 _

/-! ### What is counted off -/

/-- The parked bytes of a channel are among those that it counts. -/
theorem bytes_le (h : Weighed tight s) (hch : s.conn.channels.get? id = some ch) :
    ch.parked.bytes ≤ ch.pendingBytes := by
  have hstored := h.stored id ch hch
  cases ho : ch.closed with
  | true =>
    rw [hstored.bytes_of_closed ho]
    exact Nat.zero_le _
  | false =>
    refine Nat.le_trans ?_ (h.covered id ch hch ho)
    rw [hstored.bytes, Stage.carried, Table.share_of_some _ hch]
    exact Nat.le_add_left ..

/-- The end of a channel counts off what it had parked. -/
theorem pendingBytes_of_over (h : Weighed tight s) (hch : s.conn.channels.get? id = some ch)
    (hover : ch.Over ch') : ch'.pendingBytes + ch.parked.bytes = ch.pendingBytes := by
  rw [hover.countedOff (h.stored id ch hch).bytes_giveUp]
  exact Nat.sub_add_cancel (h.bytes_le hch)

theorem countsOff_ended (h : Weighed tight s) (hch : s.conn.channels.get? id = some ch)
    {es : List Entry} (he : Ended s.conn id ch es c') :
    s.conn.CountsOff c' id ch.parked.bytes := by
  obtain ⟨ch', hchannels, hover⟩ := he.channels
  exact ⟨ch, ch', hch, hchannels ▸ Table.get?_insert_self .., h.pendingBytes_of_over hch hover⟩

theorem covers (h : Weighed tight s) : s.Covered where
  inflight w e he fault := by
    obtain ⟨ch, hch, ho⟩ := isOpen_iff.mp (h.owned w e he)
    refine countsOff_settleWrite w hch (Nat.le_trans ?_ (h.covered e.channel ch hch ho)) fault
    have hle := Table.le_total (f := Inflight.sizeFor e.channel) he
    rw [Inflight.sizeFor, if_pos rfl] at hle
    rw [Stage.carried, bytesInFlight]
    omega
  loose w hw hopen fault := by
    obtain ⟨ch, hch, ho⟩ := isOpen_iff.mp hopen
    refine countsOff_settleWrite (c := s.conn.enterWrite w.channel w.payload w.ticket)
      (w := ⟨w.channel, w.payload.length, w.ticket⟩) s.conn.nextWrite hch
      (Nat.le_trans ?_ (h.covered w.channel ch hch ho)) fault
    have hle := List.le_sum_of_mem (List.mem_map_of_mem (f := LooseWrite.sizeFor w.channel) hw)
    rw [LooseWrite.sizeFor, if_pos rfl] at hle
    rw [Stage.carried]
    dsimp only
    omega
  parked id ch hch := ⟨Nat.sub_add_cancel (h.bytes_le hch), (h.stored id ch hch).bytes_giveUp⟩
  closed id ch hch ho kind := h.countsOff_ended hch (ended_of_close hch ho kind)
  failed id ch hch ho cause :=
    h.countsOff_ended hch (ended_of_failHandshake hch ho (fun _ _ => Iff.rfl) cause)

/-- There is nothing left to be counted off on a channel that was closed before. -/
theorem closes_of_level (h : Weighed tight s) (hch : s.conn.channels.get? id = some ch)
    (hlevel : ch.Level ch') (hclosed : ch'.closed = true) :
    ch'.pendingBytes + ch.parked.bytes = ch.pendingBytes := by
  rw [(h.stored id ch hch).bytes_of_closed (hlevel.closed.symm.trans hclosed), hlevel.pendingBytes,
    Nat.add_zero]

/-- No channel has changed, but some may have gone. -/
theorem closes_of_subset (h : Weighed tight s)
    (hsubset : ∀ id ch, t.conn.channels.get? id = some ch → s.conn.channels.get? id = some ch) :
    s.ClosesExactly t := by
  intro id ch ch' hch hch' hclosed
  obtain rfl := Option.some.inj (hch.symm.trans (hsubset id ch' hch'))
  exact h.closes_of_level hch (.refl ch) hclosed

/-- One channel is new or has a new value. -/
theorem closes_insert (h : Weighed tight s)
    (hchannels : t.conn.channels = s.conn.channels.insert id ch')
    (hself : ∀ ch, s.conn.channels.get? id = some ch → ch'.closed = true →
      ch'.pendingBytes + ch.parked.bytes = ch.pendingBytes) : s.ClosesExactly t := by
  intro j d d' hd hd' hclosed
  rw [hchannels, Table.get?_insert] at hd'
  split at hd'
  next hj =>
    obtain rfl := Option.some.inj hd'
    exact hself d (hj ▸ hd) hclosed
  next =>
    obtain rfl := Option.some.inj (hd.symm.trans hd')
    exact h.closes_of_level hd (.refl d) hclosed

theorem closes_insert_open (h : Weighed tight s)
    (hchannels : t.conn.channels = s.conn.channels.insert id ch') (ho : ch'.closed = false) :
    s.ClosesExactly t :=
  h.closes_insert hchannels fun _ _ hclosed => absurd (ho.symm.trans hclosed) (by decide)

/-- Whatever closes channels counts off exactly what they had parked. -/
theorem closes (h : Weighed tight s) (ht : s.conn.Tidy) (hs : CoreStep strict k s t) :
    s.ClosesExactly t := by
  cases hs with
  | plain ws hplain =>
    intro id ch ch' hch hch' hclosed
    obtain ⟨d, hd, hcore⟩ := hplain.back hch'
    obtain rfl := Option.some.inj (hch.symm.trans hd)
    exact h.closes_of_level hch (.of_core hcore) hclosed
  | asked path subprotocol =>
    rw [addAsking_eq]
    exact h.closes_insert_open rfl rfl
  | requested _ _ _ ho => exact h.closes_insert_open rfl ho
  | enrolled => exact h.closes_insert_open rfl rfl
  | weightCached _ _ _ ho => exact h.closes_insert_open rfl ho
  | @received _ _ ch item _ hch =>
    refine h.closes_insert rfl fun d hd hclosed => ?_
    obtain rfl := Option.some.inj (hch.symm.trans hd)
    exact h.closes_of_level hch (.receive ch item) hclosed
  | handed _ _ ho => exact h.closes_insert_open rfl ho
  | @takenUp c id ch payload _ _ _ ho =>
    obtain ⟨_, heq, -⟩ := countBytes_eq (c.issue .held).2 id ch payload.length
    rw [heq]
    exact h.closes_insert_open rfl ho
  | parked _ ho => exact h.closes_insert_open rfl ho
  | @unparked c id ch subprotocol compression hch hs =>
    have ho : ch.closed = false := ht.open_of_requestSent hch hs
    rw [markComplete, Table.modify_eq_insert hch]
    exact h.closes_insert_open rfl ho
  | @bounced c w ws ch f hch ho =>
    obtain ⟨_, _, heq, -⟩ := settleWrite_eq (c := { c.enterWrite w.channel w.payload w.ticket with
      journal := c.journal.push
        (.wire (some w.channel) ⟨.data c.nextWrite ch.stream w.payload false, some f⟩) })
      (w := ⟨w.channel, w.payload.length, w.ticket⟩) c.nextWrite hch (some f)
    rw [heq]
    exact h.closes_insert_open rfl ho
  | settled fault ws _ he =>
    obtain ⟨ch, hch, ho⟩ := isOpen_iff.mp (h.owned _ _ he)
    obtain ⟨_, _, heq, -⟩ := settleWrite_eq _ hch fault
    rw [heq]
    exact h.closes_insert_open rfl ho
  | recovered ws hch ho =>
    obtain ⟨_, _, heq, -⟩ := recoverChannel_eq hch
    rw [heq]
    exact h.closes_insert_open rfl ho
  | ended ws hch _ _ he =>
    obtain ⟨ch', hchannels, hover⟩ := he.channels
    exact h.closes_insert hchannels fun d hd _ =>
      h.pendingBytes_of_over hd (Option.some.inj (hch.symm.trans hd) ▸ hover)
  | gaveUp cause ws hch =>
    rw [failParked_eq hch]
    refine h.closes_insert rfl fun d hd _ => ?_
    obtain rfl := Option.some.inj (hch.symm.trans hd)
    exact Nat.sub_add_cancel (h.bytes_le hch)
  | tornDown => exact h.closes_of_subset fun _ _ hch => Table.get?_of_erase hch
  | turnedAway | sent | dropped | inflightLost | cleared | missed | turned | unheard =>
    exact h.closes_of_subset fun _ _ hch => hch

end Weighed

/-! ## Runs -/

theorem weighed_start {config : Config} {encoder : Encoder} (h : start config encoder = .ok c) :
    Weighed True ⟨c, []⟩ := by
  rw [(start_eq h).1]
  exact
    { numbered := fun _ _ he => nomatch he
      owned := fun _ _ he => nomatch he
      loose := fun _ hw => nomatch hw
      stored := fun _ _ hch => nomatch hch
      covered := fun _ _ hch => nomatch hch
      counted := fun _ _ _ hch => nomatch hch }

namespace Weighed

theorem corePath (h : Weighed True ⟨c, []⟩) (ht : c.Tidy) {k : Call} (hb : c.Bounded k)
    (hs : CorePath strict ⟨c, k⟩ ⟨c, []⟩ s) :
    s.conn.Tidy ∧ Weighed (k ≠ .connectionLost) s :=
  CorePath.induction (P := Weighed (k ≠ .connectionLost))
    (fun _ _ hu hstep h => h.coreStep hu hb hstep)
    ht hs { h with counted := fun _ => h.counted trivial }

/-- Between calls the counters are exact, for the loss of the connection closes every channel. -/
theorem after (h : Weighed True ⟨c, []⟩) (ht : c.Tidy) {k : Call} (hb : c.Bounded k) :
    (c.after k).Tidy ∧ Weighed True ⟨c.after k, []⟩ := by
  obtain ⟨ht', h'⟩ := h.corePath ht hb (corePath_after ht k (False.elim : False → _))
  refine ⟨ht', { h' with counted := ?_ }⟩
  intro _ id ch hch ho
  refine h'.counted ?_ id ch hch ho
  rintro rfl
  have hopen : c.connectionLost.isOpen id = true := isOpen_iff.mpr ⟨ch, hch, ho⟩
  rw [isOpen_connectionLost] at hopen
  cases hopen

theorem run (h : Weighed True ⟨c, []⟩) (ht : c.Tidy) {ks : List Call} (hb : c.BoundedRun ks) :
    (c.run ks).Tidy ∧ Weighed True ⟨c.run ks, []⟩ := by
  induction ks generalizing c with
  | nil => exact ⟨ht, h⟩
  | cons k ks ih =>
    obtain ⟨ht', h'⟩ := h.after ht hb.1
    exact ih h' ht' hb.2

end Weighed

theorem boundedRun_append {ks ls : List Call} :
    c.BoundedRun (ks ++ ls) ↔ c.BoundedRun ks ∧ (c.run ks).BoundedRun ls := by
  induction ks generalizing c with
  | nil => exact (iff_of_eq (true_and _)).symm
  | cons k ks ih =>
    rw [List.cons_append, BoundedRun, BoundedRun, ih, and_assoc]
    rfl

/-- Between the calls of a run the counter of an open channel is the sum of what is in flight for it
and what it has parked, and nothing is in flight for any other channel.  In every state that a call
passes through, whatever is counted off was counted, so that no subtraction is cut short: what is
left and what was taken off add up to what there was.  Short of the loss of the connection, the
counter of every open channel is exact in all these states; and whichever step closes a channel, it
takes what the channel had parked off its counter, and no more.  The run may do anything, as long as
what is outstanding on a channel can be counted. -/
theorem pending_bytes_are_outstanding {config : Config} {encoder : Encoder} {c : Connection}
    (h : start config encoder = .ok c) {ks : List Call} (hb : c.BoundedRun ks) :
    (∀ id ch, (c.run ks).channels.get? id = some ch → ch.closed = false →
      ch.pendingBytes = (c.run ks).bytesInFlight id + ch.parked.bytes ∧
        ch.parked.bytes = (ch.parked.writes.map fun w => w.1.length).sum) ∧
    (∀ w e, (c.run ks).inflight.get? w = some e → (c.run ks).isOpen e.channel = true) ∧
    (∀ ls k rs, ks = ls ++ k :: rs →
      CorePath False ⟨c.run ls, k⟩ ⟨c.run ls, []⟩ ⟨(c.run ls).after k, []⟩ ∧
        ∀ s, CorePath False ⟨c.run ls, k⟩ ⟨c.run ls, []⟩ s →
          s.Covered ∧ (k ≠ .connectionLost → s.Exact) ∧
            ∀ t, CoreStep False ⟨c.run ls, k⟩ s t → s.ClosesExactly t) := by
  have hstart := weighed_start h
  obtain ⟨-, hweighed⟩ := hstart.run (tidy_start h) hb
  refine ⟨?_, hweighed.owned, ?_⟩
  · intro id ch hch ho
    have hbytes := (hweighed.stored id ch hch).bytes
    have hcount := hweighed.counted trivial id ch hch ho
    refine ⟨?_, hbytes⟩
    rw [Stage.carried, Table.share_of_some _ hch, ← hbytes] at hcount
    exact hcount
  · rintro ls k rs rfl
    obtain ⟨hls, hk, -⟩ := boundedRun_append.mp hb
    obtain ⟨ht, hbefore⟩ := hstart.run (tidy_start h) hls
    refine ⟨corePath_after ht k False.elim, ?_⟩
    intro s hs
    obtain ⟨ht', hwithin⟩ := hbefore.corePath ht hk hs
    exact ⟨hwithin.covers, hwithin.counted, fun _ hstep => hwithin.closes ht' hstep⟩

/-- The write of the conversation that was opened is counted until it is reported; and when a
channel is closed that has parked two bytes, it is these two that are counted off. -/
theorem opened_write_is_counted :
    (∃ ch, ((fresh {} .willing).run (Call.opening ++ [.write 1 [7]])).channels.get? 1 = some ch ∧
      ch.pendingBytes = 1) ∧
    let d := (fresh {} .willing).run [.openStream "/chat" none, .write 1 [7, 8]]
    ∃ ch ch', d.channels.get? 1 = some ch ∧ (d.close 1 .reset).channels.get? 1 = some ch' ∧
      ch'.closed = true ∧ ch.parked.bytes = 2 ∧
      ch'.pendingBytes + ch.parked.bytes = ch.pendingBytes := by
  refine ⟨?_, ?_⟩
  · have hbounded : (fresh {} .willing).BoundedRun (Call.opening ++ [.write 1 [7]]) := by decide
    have hcounted := (pending_bytes_are_outstanding
      (rfl : start {} .willing = .ok (fresh {} .willing)) hbounded).1 1 _ (by rfl) (by decide)
    exact ⟨_, rfl, hcounted.1⟩
  · intro d
    have hbounded : (fresh {} .willing).BoundedRun
        ([.openStream "/chat" none, .write 1 [7, 8]] ++ .close 1 :: []) := by decide
    have hwithin := ((pending_bytes_are_outstanding
      (rfl : start {} .willing = .ok (fresh {} .willing)) hbounded).2.2 _ _ _ rfl).2 _ (.refl _)
    obtain ⟨ch, hch, ho, hparked⟩ : ∃ ch, d.channels.get? 1 = some ch ∧ ch.closed = false ∧
      ch.parked.bytes = 2 := ⟨_, rfl, rfl, rfl⟩
    obtain ⟨ch', hch', hclosed⟩ : ∃ ch', (d.close 1 .reset).channels.get? 1 = some ch' ∧
      ch'.closed = true := ⟨_, rfl, rfl⟩
    have hclosing : CoreStep False ⟨d, .close 1⟩ ⟨d, []⟩ ⟨d.close 1 .reset, []⟩ :=
      .ended [] hch ho .none (ended_of_close hch ho .reset)
    exact ⟨ch, ch', hch, hch', hclosed, hparked,
      hwithin.2.2 _ hclosing 1 ch ch' hch hch' hclosed⟩

end Connection

end ChannelMux
