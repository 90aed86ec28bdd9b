import ChannelMux.Proofs.Turns

/-!
# Stalls: channels that stay unwritable

A channel is given room again when its pending bytes fall below the low watermark.  If that is
positive, it has happened at the latest when nothing is pending, as long as the connection had room
whenever bytes were counted off.  A low watermark of zero is a valid choice too, but no count of
bytes is below it: then a channel loses its room once and for all.
-/

namespace ChannelMux

namespace Channel

variable {ch : Channel}

/-- Counting bytes gives no room. -/
theorem unwritable_addPending (h : ch.writable = false) (size high : Nat) :
    (ch.addPending size high).1.writable = false := by
  simp [addPending, h]

/-- No count of bytes is below a low watermark of zero. -/
theorem writable_subPending_zero (ch : Channel) (size : Nat) (room : Bool) :
    (ch.subPending size 0 room).1.writable = ch.writable := by simp [subPending]

theorem writable_recover_zero (ch : Channel) : (ch.recover 0).1.writable = ch.writable := by
  simp [recover]

end Channel

namespace Connection

variable {strict : Prop} {k : Cause} {c c' : Connection} {id j : ChannelId} {ch ch' : Channel}
  {s t : Stage}

/-- The channel has been made, and it is not writable if it is still there. -/
structure Stalled (id : ChannelId) (c : Connection) : Prop where
  made : id < c.nextChannel
  unwritable : ∀ ch, c.channels.get? id = some ch → ch.writable = false

namespace Stalled

/-- No channel is made, and none has got room. -/
theorem of_back (h : c.Stalled id) (hnext : c.nextChannel ≤ c'.nextChannel)
    (hback : ∀ ch', c'.channels.get? id = some ch' →
      ∃ ch, c.channels.get? id = some ch ∧ (ch.writable = false → ch'.writable = false)) :
    c'.Stalled id where
  made := Nat.lt_of_lt_of_le h.made hnext
  unwritable ch' hch' := by
    obtain ⟨ch, hch, hkept⟩ := hback ch' hch'
    exact hkept (h.unwritable ch hch)

theorem of_eq (h : c.Stalled id) (hnext : c.nextChannel ≤ c'.nextChannel)
    (hchannels : c'.channels = c.channels) : c'.Stalled id :=
  h.of_back hnext fun ch hch => ⟨ch, hchannels ▸ hch, fun hw => hw⟩

/-- One channel has changed and has not got room. -/
theorem of_one (h : c.Stalled id) (hnext : c'.nextChannel = c.nextChannel)
    (hch : c.channels.get? j = some ch) (hchannels : c'.channels = c.channels.insert j ch')
    (hw : ch.writable = false → ch'.writable = false) : c'.Stalled id := by
  refine h.of_back (Nat.le_of_eq hnext.symm) fun d hd => ?_
  rw [hchannels] at hd
  rcases Table.get?_insert_cases hd with ⟨rfl, rfl⟩ | hd
  · exact ⟨ch, hch, hw⟩
  · exact ⟨d, hd, fun hw => hw⟩

/-- A channel is made; it has a number of its own. -/
theorem of_made (h : c.Stalled id) (hnext : c'.nextChannel = c.nextChannel + 1)
    (hchannels : c'.channels = c.channels.insert c.nextChannel ch) : c'.Stalled id := by
  refine h.of_back (hnext ▸ Nat.le_succ _) fun d hd => ?_
  rw [hchannels] at hd
  rcases Table.get?_insert_cases hd with ⟨rfl, -⟩ | hd
  · exact absurd h.made (Nat.lt_irrefl _)
  · exact ⟨d, hd, fun hw => hw⟩

theorem takenUp (h : c.Stalled id) (hch : c.channels.get? j = some ch) (size : Nat) :
    ((c.issue .held).2.countBytes j ch size).Stalled id := by
  obtain ⟨_, heq, -⟩ := countBytes_eq (c.issue .held).2 j ch size
  rw [heq]
  exact h.of_one rfl hch rfl fun hw => Channel.unwritable_addPending hw ..

theorem settled (h : c.Stalled id) (hlow : c.config.lowWatermark = 0) (write : WriteId)
    (w : Inflight) (fault : Option WriteFault) : (c.settleWrite write w fault).Stalled id := by
  cases hch : c.channels.get? w.channel with
  | none =>
    rw [settleWrite_of_none write hch]
    exact h.of_eq (Nat.le_refl _) rfl
  | some ch =>
    obtain ⟨_, _, heq, -⟩ := settleWrite_eq write hch fault
    rw [heq, hlow]
    exact h.of_one rfl hch rfl (ch.writable_subPending_zero ..).trans

theorem recovered (h : c.Stalled id) (hlow : c.config.lowWatermark = 0)
    (hch : c.channels.get? j = some ch) : (c.recoverChannel j).Stalled id := by
  obtain ⟨_, _, heq, -⟩ := recoverChannel_eq hch
  rw [heq, hlow]
  exact h.of_one rfl hch rfl ch.writable_recover_zero.trans

/-- With a low watermark of zero no step gives room. -/
theorem coreStep (h : s.conn.Stalled id) (hlow : s.conn.config.lowWatermark = 0)
    (hs : CoreStep strict k s t) : t.conn.Stalled id := by
  cases hs with
  | plain ws hp =>
    refine h.of_back (Nat.le_of_eq hp.nextChannel.symm) fun ch' hch' => ?_
    obtain ⟨ch, hch, hcore⟩ := hp.back hch'
    exact ⟨ch, hch, (congrArg Channel.Core.writable hcore).trans⟩
  | asked path subprotocol =>
    rw [addAsking_eq]
    exact h.of_made rfl rfl
  | enrolled => exact h.of_made rfl rfl
  | turnedAway => exact h.of_eq (Nat.le_succ _) rfl
  | requested _ _ hch | weightCached _ _ hch | handed _ hch | parked hch =>
    exact h.of_one rfl hch rfl fun hw => hw
  | received item ws hch =>
    exact h.of_one rfl hch rfl (Channel.Unturned.receive _ item).writable.trans
  | unparked subprotocol compression hch =>
    rw [markComplete, Table.modify_eq_insert hch]
    exact h.of_one rfl hch rfl fun hw => hw
  | takenUp _ _ hch => exact h.takenUp hch _
  | bounced =>
    refine settled ?_ ?_ ..
    · exact h.of_eq (Nat.le_refl _) rfl
    · exact hlow
  | settled fault => exact h.settled hlow ..
  | recovered ws hch => exact h.recovered hlow hch
  | ended ws hch _ _ he =>
    obtain ⟨ch', hchannels, hover⟩ := he.channels
    exact h.of_one he.nextChannel hch hchannels hover.writable.trans
  | gaveUp cause ws hch =>
    rw [failParked_eq hch]
    exact h.of_one rfl hch rfl fun hw => hw
  | tornDown =>
    exact h.of_back (Nat.le_refl _) fun ch' hch' =>
      ⟨ch', Table.get?_of_erase hch', fun hw => hw⟩
  | sent | dropped | inflightLost | cleared | missed | turned | unheard =>
    exact h.of_eq (Nat.le_refl _) rfl

theorem after (h : c.Stalled id) (hc : c.Tidy) (hlow : c.config.lowWatermark = 0) (k : Call) :
    (c.after k).Stalled id ∧ (c.after k).config.lowWatermark = 0 :=
  after_induction (P := fun d => d.Stalled id ∧ d.config.lowWatermark = 0) hc k
    (fun _ _ _ hs hu => ⟨hu.1.coreStep hu.2 hs, hs.config ▸ hu.2⟩) ⟨h, hlow⟩

theorem run (h : c.Stalled id) (hc : c.Regular) (hlow : c.config.lowWatermark = 0)
    (ks : List Call) : (c.run ks).Stalled id := by
  induction ks generalizing c with
  | nil => exact h
  | cons k ks ih =>
    obtain ⟨hafter, hlow⟩ := h.after hc.tidy hlow k
    exact ih hafter (hc.after k) hlow

end Stalled

/-- If the low watermark is positive and the connection had room whenever the fate of a write became
known, every open channel without pending bytes is writable.  If the low watermark is zero, which is
a valid choice as well, a channel that is not writable never is again, whatever happens to its
pending bytes and to the connection. -/
theorem idle_channel_is_writable_above_zero {config : Config} {encoder : Encoder}
    (h : start config encoder = .ok c) (ks : List Call) :
    (0 < config.lowWatermark → c.RoomyRun ks → ∀ id ch, (c.run ks).channels.get? id = some ch →
      ch.closed = false → ch.pendingBytes = 0 → ch.writable = true) ∧
    (config.lowWatermark = 0 → ∀ id ch, (c.run ks).channels.get? id = some ch →
      ch.writable = false → ∀ ls ch', (c.run (ks ++ ls)).channels.get? id = some ch' →
        ch'.writable = false) := by
  have hmarks := (Config.validate_eq_ok_iff.mp (start_eq h).2).2.1
  have hregular := Regular.of_start h
  constructor
  · intro hlow hroomy id ch hch ho hnone
    have hturning : Turning config True (c.run ks) :=
      (turning_start h).run hregular hmarks fun _ => hroomy
    by_contra hw
    have hpending := (hturning.marked id ch hch).low trivial ho (Bool.not_eq_true _ ▸ hw)
    omega
  · intro hlow id ch hch hw ls ch' hch'
    have hstalled : (c.run ks).Stalled id := by
      refine ⟨(tidy_run h ks).numbered hch, fun d hd => ?_⟩
      rw [hch] at hd
      exact Option.some.inj hd ▸ hw
    have hzero : (c.run ks).config.lowWatermark = 0 := config_run h ks ▸ hlow
    rw [run_append] at hch'
    exact (hstalled.run (hregular.run ks) hzero ls).unwritable ch' hch'

/-- Both watermarks are one, the low one is reached and passed, and the channel has room again. -/
theorem acknowledged_write_gives_room :
    ∃ ch, ((fresh { lowWatermark := 1, highWatermark := 1 } .willing).run
        (Call.opening ++ [.write 1 [7, 7], .writeCompleted 1 none])).channels.get? 1 = some ch ∧
      ch.closed = false ∧ ch.pendingBytes = 0 ∧ ch.writable = true :=
  ⟨_, rfl, rfl, rfl, (idle_channel_is_writable_above_zero
    (rfl : start { lowWatermark := 1, highWatermark := 1 } .willing =
      .ok (fresh { lowWatermark := 1, highWatermark := 1 } .willing))
    (Call.opening ++ [.write 1 [7, 7], .writeCompleted 1 none])).1 (by decide) (by decide) 1 _
      rfl rfl rfl⟩

/-- With a low watermark of zero the same channel stays unwritable, although the encoder always has
room. -/
theorem acknowledged_write_leaves_channel_stalled :
    start { lowWatermark := 0, highWatermark := 1 } .willing =
        .ok (fresh { lowWatermark := 0, highWatermark := 1 } .willing) ∧
      (∀ log, Encoder.willing.writable log = true) ∧
      ∃ ch, ((fresh { lowWatermark := 0, highWatermark := 1 } .willing).run
          (Call.opening ++ [.write 1 [7, 7], .writeCompleted 1 none])).channels.get? 1 = some ch ∧
        ch.closed = false ∧ ch.pendingBytes = 0 ∧ ch.writable = false :=
  ⟨rfl, fun _ => rfl, _, rfl, rfl, rfl, rfl⟩

end Connection

end ChannelMux
