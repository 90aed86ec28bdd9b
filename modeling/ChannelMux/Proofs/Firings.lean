import ChannelMux.Proofs.Agreement
import ChannelMux.Proofs.Isolation
import ChannelMux.Proofs.Twins

/-!
# Firings: the deadlines that pass

When time passes, the first deadline that is due is taken and fired, again and again (`Fires`).
Firing may give up a handshake, whose channel is closed; that cancels one deadline and may arm
another one, which is due at once if the grace period is over by then.  The rounds of which the
deadlines are still good for fall with every firing, so there is an end to it in every state.

What has fired by then needs an invariant: a deadline for a handshake that is armed while its
channel is open belongs to a handshake that is pending (`Timely`).  It depends on nobody's care.
For the streams that were closed here more is needed: no open channel on such a stream may be
waiting for a deadline, since closing it would put off the removal.
-/

namespace ChannelMux

namespace Timers

variable {ts : Timers} {t : Timer} {due : Time}

theorem not_armed_empty (t : Timer) : ¬ Armed {} t := by
  rintro ⟨due, hmem⟩
  cases hmem

end Timers

namespace Connection

variable {strict : Prop} {k : Cause} {c d e : Connection} {id j : ChannelId} {ch ch' : Channel}
  {s : StreamId} {t : Timer} {due now : Time} {kind : CloseKind} {hs : List Happening}

/-! ## What closing does to deadlines -/

theorem armed_retiredTimers_handshake {ts : Timers} {at_ : Time} {stream : StreamId}
    {absorb : Bool} : (retiredTimers ts at_ stream absorb).Armed (.handshakeTimeout j) ↔
      ts.Armed (.handshakeTimeout j) := by
  unfold retiredTimers
  split_ifs
  · rfl
  · rw [Timers.armed_arm]
    simp
  · rfl

theorem not_armed_retiredTimers_zero {ts : Timers} (h : ¬ ts.Armed (.registryRemoval 0))
    (at_ : Time) (stream : StreamId) (absorb : Bool) :
    ¬ (retiredTimers ts at_ stream absorb).Armed (.registryRemoval 0) := by
  unfold retiredTimers
  split_ifs with h0
  · exact h
  · rw [Timers.armed_arm]
    rintro (heq | harmed)
    · exact h0 (Timer.registryRemoval.inj heq).symm
    · exact h harmed
  · exact h

/-- What the deadlines of a connection promise, whatever its encoder does. -/
structure Timely (c : Connection) : Prop where
  sound : c.timers.Sound
  asked : ∀ id, c.timers.Armed (.handshakeTimeout id) →
    c.config.role = .client ∧ id < c.nextChannel
  pending : ∀ id ch, c.channels.get? id = some ch → ch.closed = false →
    c.timers.Armed (.handshakeTimeout id) → ch.handshake.isPending = true
  unabsorbed : ¬ c.timers.Armed (.registryRemoval 0)

namespace Timely

theorem of_popDue (h : c.Timely) {ts : Timers} (hpop : c.timers.popDue now = some (t, ts))
    (registry : Registry ChannelId) :
    Timely { c with timers := ts, registry := registry } where
  sound := (h.sound.popDue hpop).1
  asked id harmed := h.asked id ((h.sound.armed_popDue_iff hpop).mp harmed).2
  pending id ch hch ho harmed :=
    h.pending id ch hch ho ((h.sound.armed_popDue_iff hpop).mp harmed).2
  unabsorbed harmed := h.unabsorbed ((h.sound.armed_popDue_iff hpop).mp harmed).2

/-- One channel has changed whose handshake is pending or has no deadline. -/
theorem insert (h : c.Timely) (registry : Registry ChannelId) (journal : Journal)
    (hch' : c.timers.Armed (.handshakeTimeout id) → ch'.handshake.isPending = true) :
    Timely { c with
      channels := c.channels.insert id ch', registry := registry, journal := journal } where
  sound := h.sound
  asked := h.asked
  pending i e he ho harmed := by
    rcases Table.get?_insert_cases he with ⟨rfl, rfl⟩ | he
    · exact hch' harmed
    · exact h.pending i e he ho harmed
  unabsorbed := h.unabsorbed

/-- A channel is closed, whatever was done to it before. -/
theorem closed (h : c.Timely) (ho : ch'.closed = false) (registry : Registry ChannelId)
    (ledger : Ledger) (journal : Journal) (kind : CloseKind) :
    Timely ({ c with
      channels := c.channels.insert id ch'
      registry := registry
      ledger := ledger
      journal := journal }.close id kind) := by
  obtain ⟨_, _, heq, -⟩ := close_exact (c := { c with
      channels := c.channels.insert id ch'
      registry := registry
      ledger := ledger
      journal := journal }) (Table.get?_insert_self ..) ho kind
  rw [heq]
  constructor
  case sound => exact sound_retiredTimers (h.sound.cancel _) _ _ _
  case asked =>
    intro i harmed
    rw [armed_retiredTimers_handshake, Timers.armed_cancel] at harmed
    exact h.asked i harmed.2
  case pending =>
    intro i e he hopen harmed
    rw [armed_retiredTimers_handshake, Timers.armed_cancel] at harmed
    rcases Table.get?_insert_cases he with ⟨rfl, -⟩ | he
    · exact absurd rfl harmed.1
    · rcases Table.get?_insert_cases he with ⟨rfl, -⟩ | he
      · exact absurd rfl harmed.1
      · exact h.pending i e he hopen harmed.2
  case unabsorbed =>
    refine not_armed_retiredTimers_zero ?_ _ _ _
    rw [Timers.armed_cancel]
    exact fun harmed => h.unabsorbed harmed.2

theorem streamStep (h : c.Timely) (hstep : StreamStep strict k c d) : d.Timely := by
  cases hstep with
  | calm hcalm =>
    constructor
    case sound => exact hcalm.timers ▸ h.sound
    case asked =>
      intro id harmed
      obtain ⟨hrole, hlt⟩ := h.asked id (hcalm.timers ▸ harmed)
      exact ⟨hcalm.config ▸ hrole, Nat.lt_of_lt_of_le hlt hcalm.nextChannel⟩
    case pending =>
      intro id ch' hch' ho harmed
      obtain ⟨ch, hch, hsame⟩ := hcalm.channels.back hch'
      rw [hsame.handshake]
      exact h.pending id ch hch (hsame.closed.symm.trans ho) (hcalm.timers ▸ harmed)
    case unabsorbed => exact hcalm.timers ▸ h.unabsorbed
  | asked path subprotocol hrole =>
    have hback : ∀ u, c.askingTimers.Armed u →
        u = .handshakeTimeout c.nextChannel ∨ c.timers.Armed u := by
      intro u harmed
      rw [askingTimers] at harmed
      split at harmed
      · exact Timers.armed_arm.mp harmed
      · exact .inr harmed
    rw [addAsking_eq]
    constructor
    case sound => exact sound_askingTimers h.sound
    case asked =>
      intro id harmed
      rcases hback _ harmed with heq | harmed
      · rw [Timer.handshakeTimeout.inj heq]
        exact ⟨hrole, Nat.lt_succ_self _⟩
      · exact (h.asked id harmed).imp_right Nat.lt_succ_of_lt
    case pending =>
      intro id ch hch ho harmed
      by_cases hid : id = c.nextChannel
      · subst hid
        obtain rfl := Option.some.inj ((Table.get?_insert_self ..).symm.trans hch)
        show (if c.config.role = .client then Handshake.awaitingSettings
          else .complete).isPending = true
        rw [if_pos hrole]
        rfl
      · refine h.pending id ch ((Table.get?_insert_of_ne hid ..).symm.trans hch) ho ?_
        exact (hback _ harmed).resolve_left fun heq => hid (Timer.handshakeTimeout.inj heq)
    case unabsorbed =>
      intro harmed
      rcases hback _ harmed with heq | harmed
      · cases heq
      · exact h.unabsorbed harmed
  | requested => exact h.insert _ _ fun _ => rfl
  | requestRefused block f ledger hch ho =>
    exact h.closed (by exact ho) _ _ _ _
  | enrolled path subprotocol compression block hrole =>
    refine ⟨h.sound, fun id harmed => ?_, fun id ch hch ho harmed => ?_, h.unabsorbed⟩
    · cases hrole.symm.trans (h.asked id harmed).1
    · cases hrole.symm.trans (h.asked id harmed).1
  | @answered id =>
    have hback : ∀ u, (c.timers.cancel (.handshakeTimeout id)).Armed u →
        u ≠ .handshakeTimeout id ∧ c.timers.Armed u := fun _ => Timers.armed_cancel.mp
    constructor
    case sound => exact h.sound.cancel _
    case asked => exact fun i harmed => h.asked i (hback _ harmed).2
    case pending =>
      intro i e he ho harmed
      obtain ⟨hne, harmed⟩ := hback _ harmed
      rcases Table.get?_insert_cases he with ⟨rfl, -⟩ | he
      · exact absurd rfl hne
      · exact h.pending i e he ho harmed
    case unabsorbed => exact fun harmed => h.unabsorbed (hback _ harmed).2
  | ended kind ledger journal hch ho hout =>
    exact h.closed hout.closed _ _ _ _
  | tornDown =>
    exact ⟨h.sound, h.asked, fun i e he => h.pending i e (Table.get?_of_erase he), h.unabsorbed⟩
  | cleared =>
    exact ⟨Timers.sound_empty, fun _ harmed => absurd harmed (Timers.not_armed_empty _),
      fun _ _ _ _ harmed => absurd harmed (Timers.not_armed_empty _), Timers.not_armed_empty _⟩
  | missed hpop => exact h.of_popDue hpop c.registry
  | expired hpop => exact h.of_popDue hpop _
  | unreserved | sent => exact ⟨h.sound, h.asked, h.pending, h.unabsorbed⟩

end Timely

/-- The first timer that is due is taken and fired. -/
def Fires (now : Time) (c e : Connection) : Prop :=
  ∃ t ts, c.timers.popDue now = some (t, ts) ∧ e = { c with timers := ts }.fireTimer t

/-- What may happen in one round: a stream is forgotten, a handshake is given up, or the handshake
that was waited for is not pending any more. -/
theorem Fires.cases (h : Fires now c e) :
    (∃ s ts, c.timers.popDue now = some (.registryRemoval s, ts) ∧
      e = { c with timers := ts, registry := c.registry.removeClosed s }) ∨
    (∃ id ts ch, c.timers.popDue now = some (.handshakeTimeout id, ts) ∧
      c.channels.get? id = some ch ∧ ch.closed = false ∧
      e = { c with timers := ts }.failHandshake id (.handshake .timedOut)) ∨
    (∃ id ts, c.timers.popDue now = some (.handshakeTimeout id, ts) ∧
      (∀ ch, c.channels.get? id = some ch → ch.closed = false → ch.handshake.isPending = false) ∧
      e = { c with timers := ts }) := by
  obtain ⟨t, ts, hpop, rfl⟩ := h
  cases t with
  | registryRemoval s => exact .inl ⟨s, ts, hpop, rfl⟩
  | handshakeTimeout id =>
    rw [fireTimer]
    split
    next hwaits =>
      have hwaits : (c.channels.get? id).any _ = true := hwaits
      cases hch : c.channels.get? id with
      | none =>
        rw [hch] at hwaits
        cases hwaits
      | some ch =>
        rw [hch, Option.any_some, Bool.and_eq_true, Bool.not_eq_true'] at hwaits
        exact .inr (.inl ⟨id, ts, ch, hpop, hch, hwaits.1, rfl⟩)
    next hnot =>
      refine .inr (.inr ⟨id, ts, hpop, fun ch hch ho => ?_, rfl⟩)
      rw [Bool.not_eq_true] at hnot
      simpa [hch, ho] using hnot

theorem Fires.path (h : Fires now c e) : StreamPath False ⟨c, .timePassed now⟩ c e := by
  obtain ⟨t, ts, hpop, rfl⟩ := h
  exact streamPath_fireTimer hpop rfl

end Connection

end ChannelMux
