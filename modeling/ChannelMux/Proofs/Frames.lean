import ChannelMux.Proofs.CallSteps

/-!
# Frames: what an operation on one channel does to the others

Nothing.  Work that goes over all channels can therefore be taken apart channel by channel: what
was found out about a channel before the work began still holds when its turn comes.
-/

namespace ChannelMux.Connection

variable {c : Connection} {id j : ChannelId} {ch ch' : Channel}

/-! ## Other channels are left alone -/

theorem get?_updateChannel (c : Connection) (id : ChannelId) (f : Channel → Channel)
    (j : ChannelId) : (c.updateChannel id f).channels.get? j =
      if j = id then (c.channels.get? j).map f else c.channels.get? j :=
  Table.get?_modify ..

theorem get?_updateChannel_of_ne (h : j ≠ id) (f : Channel → Channel) :
    (c.updateChannel id f).channels.get? j = c.channels.get? j := by
  rw [get?_updateChannel, if_neg h]

theorem get?_failParked_of_ne (h : j ≠ id) (cause : Fault) :
    (c.failParked id cause).channels.get? j = c.channels.get? j := by
  rw [failParked]
  split
  · rfl
  · exact get?_updateChannel_of_ne h _

theorem get?_close_of_ne (h : j ≠ id) (kind : CloseKind) :
    (c.close id kind).channels.get? j = c.channels.get? j := by
  rcases close_cases c id kind with ⟨-, heq⟩ | ⟨ch, hid, ho⟩
  · rw [heq]
  · obtain ⟨_, _, _, _, heq, -⟩ := close_eq hid ho kind
    rw [heq, Table.get?_insert_of_ne h]

theorem get?_close_self (h : c.channels.get? id = some ch) (ho : ch.closed = false)
    (kind : CloseKind) : (c.close id kind).channels.get? id = some (ch.shut kind) := by
  obtain ⟨_, _, _, _, heq, -⟩ := close_eq h ho kind
  rw [heq, Table.get?_insert_self]

theorem nextChannel_close (c : Connection) (id : ChannelId) (kind : CloseKind) :
    (c.close id kind).nextChannel = c.nextChannel := by
  rcases close_cases c id kind with ⟨-, heq⟩ | ⟨ch, hch, ho⟩
  · rw [heq]
  · obtain ⟨_, _, _, _, heq, -⟩ := close_eq hch ho kind
    rw [heq]

/-- A channel that is open after another one, or it, was asked to close was not touched. -/
theorem get?_of_open_close {kind : CloseKind} (h : (c.close id kind).channels.get? j = some ch)
    (ho : ch.closed = false) : c.channels.get? j = some ch := by
  rcases close_cases c id kind with ⟨-, heq⟩ | ⟨d, hid, hd⟩
  · rwa [heq] at h
  · by_cases hj : j = id
    · rw [hj, get?_close_self hid hd] at h
      rw [← Option.some.inj h] at ho
      cases ho
    · rwa [get?_close_of_ne hj] at h

theorem get?_failChannel_of_ne (h : j ≠ id) (cause : Fault) :
    (c.failChannel id cause).channels.get? j = c.channels.get? j :=
  get?_close_of_ne (c := c.emit id (.failed cause)) h .reset

theorem get?_failHandshake_of_ne (h : j ≠ id) (cause : Fault) :
    (c.failHandshake id cause).channels.get? j = c.channels.get? j := by
  rw [failHandshake]
  split
  · rfl
  · split
    · rfl
    · rw [get?_failChannel_of_ne h, get?_failParked_of_ne h]

@[simp] theorem channels_sendPriority (c : Connection) (id : ChannelId) (stream : StreamId)
    (weight : Nat) : (c.sendPriority id stream weight).2.channels = c.channels := by
  rw [sendPriority, submit]
  cases c.encoder.fault c.journal.wire _ <;> rfl

@[simp] theorem channels_sendCachedWeight (c : Connection) (id : ChannelId) (stream : StreamId)
    (weight : Option Nat) : (c.sendCachedWeight id stream weight).channels = c.channels := by
  cases weight with
  | none => rfl
  | some weight => exact channels_sendPriority c id stream weight

@[simp] theorem channels_reserve (c : Connection) (id : ChannelId) :
    (c.reserve id).2.channels = c.channels := by
  rw [reserve, submit]
  cases c.encoder.fault c.journal.wire _ <;> rfl

theorem get?_startHandshake_of_ne (h : j ≠ id) :
    (c.startHandshake id).channels.get? j = c.channels.get? j := by
  have hres := channels_reserve c id
  rw [startHandshake]
  split
  next heq => rw [get?_failHandshake_of_ne h, ← hres, heq]
  next stream c₁ heq =>
    rw [heq] at hres
    split
    · rw [← hres]
    · have hassign : (c₁.assignStream id stream).channels.get? j = c.channels.get? j := by
        rw [← hres]; exact get?_updateChannel_of_ne h _
      simp only [submit]
      split
      next heq' =>
        rw [get?_failHandshake_of_ne h, ← hassign, ← (Prod.mk.inj heq').2]
        rfl
      next heq' =>
        rw [flush, tell, note, channels_sendCachedWeight, get?_updateChannel_of_ne h, ← hassign,
          ← (Prod.mk.inj heq').2]
        rfl

theorem get?_decideDeferred_of_ne (h : j ≠ id) :
    (c.decideDeferred id).channels.get? j = c.channels.get? j := by
  rw [decideDeferred]
  split
  · exact get?_startHandshake_of_ne h
  · exact get?_failHandshake_of_ne h _

theorem get?_loseChannel_of_ne (h : j ≠ id) :
    (c.loseChannel id).channels.get? j = c.channels.get? j := by
  rw [loseChannel, get?_close_of_ne h]
  exact get?_failParked_of_ne h _

theorem get?_announceEnd_of_ne (h : j ≠ id) (last : StreamId) (reason : Reason) :
    (announceEnd last reason c id).channels.get? j = c.channels.get? j := by
  rw [announceEnd]
  split
  · rfl
  · dsimp only
    split
    · exact get?_failHandshake_of_ne (c := c.emit id _) h _
    · split
      · exact get?_close_of_ne h .remote
      · rfl

/-! ## Which channels are open -/

theorem isOpen_congr {c' : Connection} (h : c'.channels.get? j = c.channels.get? j) :
    c'.isOpen j = c.isOpen j := by
  rw [isOpen, isOpen, h]

theorem isOpen_insert (h : c.channels.get? id = some ch) (ho : ch'.closed = ch.closed)
    (j : ChannelId) :
    { c with channels := c.channels.insert id ch' }.isOpen j = c.isOpen j := by
  rw [isOpen, Table.get?_insert]
  split
  next hj => rw [hj, isOpen_of_get? h, ← ho]; rfl
  next => rfl

theorem isOpen_recoverChannel (c : Connection) (id j : ChannelId) :
    (c.recoverChannel id).isOpen j = c.isOpen j := by
  cases h : c.channels.get? id with
  | none => rw [recoverChannel_of_none h]
  | some ch =>
    obtain ⟨_, _, heq, -⟩ := recoverChannel_eq h
    rw [heq]
    exact isOpen_insert h (by rfl) j

theorem isOpen_close_self (c : Connection) (id : ChannelId) (kind : CloseKind) :
    (c.close id kind).isOpen id = false := by
  rcases close_cases c id kind with ⟨hclosed, heq⟩ | ⟨ch, hid, ho⟩
  · rw [heq, hclosed]
  · rw [isOpen, get?_close_self hid ho]
    rfl

theorem isOpen_loseChannel (c : Connection) (id j : ChannelId) :
    (c.loseChannel id).isOpen j = (c.isOpen j && decide (j ≠ id)) := by
  by_cases h : j = id
  · subst h
    rw [loseChannel, isOpen_close_self]
    simp
  · rw [isOpen_congr (get?_loseChannel_of_ne h)]
    simp [h]

theorem isOpen_foldl_loseChannel (ids : List ChannelId) (c : Connection) (j : ChannelId) :
    (ids.foldl loseChannel c).isOpen j = (c.isOpen j && decide (j ∉ ids)) := by
  induction ids generalizing c with
  | nil => simp
  | cons id ids ih =>
    rw [List.foldl_cons, ih, isOpen_loseChannel]
    by_cases h : j = id <;> simp [h]

end ChannelMux.Connection
