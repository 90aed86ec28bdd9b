import ChannelMux.Proofs.CorePaths
import ChannelMux.Proofs.Dispatch
import Mathlib.Algebra.Order.BigOperators.Group.List
import Mathlib.Algebra.Order.Group.Nat
import Mathlib.Data.List.Pairwise

/-!
# Deadlines: what the timer table promises

At most one deadline is armed for each purpose, and the earliest stands first, so a deadline that is
due is found at the front.  When time passes, the due ones fire one after another, and firing may
arm a further one: giving up a handshake closes its channel, whose stream is then absorbed for a
while.  A round limit bounds this loop, and it is never what stops it: every deadline accounts for
as many rounds as it can still cause.
-/

namespace ChannelMux

namespace Timers

variable {ts ts' : Timers} {t u : Timer} {at_ due due' now : Time}

/-- The deadlines are in their order, and there is one for each purpose. -/
structure Sound (ts : Timers) : Prop where
  sorted : ts.entries.Pairwise fun d e => d.1 ≤ e.1
  distinct : ts.entries.Pairwise fun d e => d.2 ≠ e.2

theorem sound_empty : Sound {} := ⟨.nil, .nil⟩

theorem perm_place (at_ : Time) (t : Timer) (es : List (Time × Timer)) :
    (place at_ t es).Perm ((at_, t) :: es) := by
  induction es with
  | nil => exact .refl _
  | cons e es ih =>
    rw [place]
    split
    · exact (ih.cons e).trans (.swap ..)
    · exact .refl _

theorem pairwise_place {es : List (Time × Timer)} (h : es.Pairwise fun d e => d.1 ≤ e.1) :
    (place at_ t es).Pairwise fun d e => d.1 ≤ e.1 := by
  induction es with
  | nil => exact List.pairwise_singleton ..
  | cons e es ih =>
    obtain ⟨hfirst, hrest⟩ := List.pairwise_cons.mp h
    rw [place]
    split
    next hle =>
      refine List.pairwise_cons.mpr ⟨fun d hd => ?_, ih hrest⟩
      rcases (mem_place ..).mp hd with rfl | hd
      · exact hle
      · exact hfirst d hd
    next hlt =>
      have hbefore : at_ ≤ e.1 := Nat.le_of_lt (Nat.not_le.mp hlt)
      refine List.pairwise_cons.mpr ⟨fun d hd => ?_, h⟩
      rcases List.mem_cons.mp hd with rfl | hd
      · exact hbefore
      · exact Nat.le_trans hbefore (hfirst d hd)

theorem popDue_eq_some (h : ts.popDue now = some (t, ts')) :
    ∃ due, ts.entries = (due, t) :: ts'.entries ∧ due ≤ now := by
  obtain ⟨es⟩ := ts
  rw [popDue] at h
  cases es with
  | nil => cases h
  | cons e es =>
    dsimp only at h
    split at h
    next hle =>
      obtain ⟨rfl, rfl⟩ := Prod.mk.inj (Option.some.inj h)
      exact ⟨e.1, rfl, hle⟩
    next => cases h

namespace Sound

theorem cancel (h : ts.Sound) (t : Timer) : (ts.cancel t).Sound :=
  ⟨h.sorted.filter _, h.distinct.filter _⟩

theorem arm (h : ts.Sound) (at_ : Time) (t : Timer) : (ts.arm at_ t).Sound where
  sorted := pairwise_place (h.cancel t).sorted
  distinct := by
    refine ((perm_place at_ t _).pairwise_iff fun hne => hne.symm).mpr ?_
    refine List.pairwise_cons.mpr ⟨fun e he => ?_, (h.cancel t).distinct⟩
    exact ((mem_cancel ts t e).mp he).2.symm

theorem popDue (h : ts.Sound) (hpop : ts.popDue now = some (t, ts')) :
    ts'.Sound ∧ ¬ ts'.Armed t := by
  obtain ⟨due, heq, -⟩ := popDue_eq_some hpop
  have hsorted := h.sorted
  have hdistinct := h.distinct
  rw [heq] at hsorted hdistinct
  obtain ⟨hother, hdistinct⟩ := List.pairwise_cons.mp hdistinct
  refine ⟨⟨(List.pairwise_cons.mp hsorted).2, hdistinct⟩, ?_⟩
  rintro ⟨due', hmem⟩
  exact hother _ hmem rfl

/-- What was armed for another purpose stays armed when a deadline fires. -/
theorem armed_popDue_iff (h : ts.Sound) (hpop : ts.popDue now = some (t, ts')) :
    ts'.Armed u ↔ u ≠ t ∧ ts.Armed u := by
  obtain ⟨-, hback, hforth⟩ := armed_popDue (u := u) hpop
  constructor
  · intro harmed
    refine ⟨?_, hback harmed⟩
    rintro rfl
    exact (h.popDue hpop).2 harmed
  · rintro ⟨hne, harmed⟩
    exact (hforth harmed).resolve_left hne

/-- When nothing is due any more, every deadline is later. -/
theorem lt_of_popDue_eq_none (h : ts.Sound) (hpop : ts.popDue now = none)
    (hmem : (due, t) ∈ ts.entries) : now < due := by
  obtain ⟨es⟩ := ts
  rw [Timers.popDue] at hpop
  cases es with
  | nil => cases hmem
  | cons e es =>
    dsimp only at hpop
    split at hpop
    next => cases hpop
    next hlt =>
      have hnow := Nat.not_le.mp hlt
      rcases List.mem_cons.mp hmem with rfl | hmem
      · exact hnow
      · exact Nat.lt_of_lt_of_le hnow ((List.pairwise_cons.mp h.sorted).1 _ hmem)

end Sound

theorem mem_of_popDue (h : ts.popDue now = some (t, ts')) (hmem : (due, u) ∈ ts.entries) :
    u = t ∧ due ≤ now ∨ (due, u) ∈ ts'.entries := by
  obtain ⟨due', heq, hle⟩ := popDue_eq_some h
  rw [heq] at hmem
  rcases List.mem_cons.mp hmem with hsame | hmem
  · obtain ⟨rfl, rfl⟩ := Prod.mk.inj hsame
    exact .inl ⟨rfl, hle⟩
  · exact .inr hmem

theorem mem_cancel_of_ne (h : u ≠ t) (hmem : (due, u) ∈ ts.entries) :
    (due, u) ∈ (ts.cancel t).entries :=
  (mem_cancel ts t _).mpr ⟨hmem, h⟩

theorem mem_arm_of_ne (h : u ≠ t) (hmem : (due, u) ∈ ts.entries) :
    (due, u) ∈ (ts.arm at_ t).entries :=
  (mem_place ..).mpr (.inr (mem_cancel_of_ne h hmem))

/-! ## Rounds -/

end Timers

/-- How many rounds a deadline can account for: giving up a handshake may arm another one. -/
def Timer.rounds : Timer → Nat
  | registryRemoval _ => 1
  | handshakeTimeout _ => 2

namespace Timers

variable {ts ts' : Timers} {t : Timer} {now : Time}

def rounds (ts : Timers) : Nat := (ts.entries.map fun e => e.2.rounds).sum

theorem rounds_le (ts : Timers) : ts.rounds ≤ 2 * ts.entries.length := by
  rw [rounds]
  induction ts.entries with
  | nil => exact Nat.le_refl _
  | cons e es ih =>
    have hfirst : e.2.rounds ≤ 2 := by cases e.2 <;> simp [Timer.rounds]
    rw [List.map_cons, List.sum_cons, List.length_cons]
    omega

theorem rounds_cancel (ts : Timers) (t : Timer) : (ts.cancel t).rounds ≤ ts.rounds :=
  (List.filter_sublist.map _).sum_le_sum fun _ _ => Nat.zero_le _

theorem rounds_arm (ts : Timers) (at_ : Time) (t : Timer) :
    (ts.arm at_ t).rounds ≤ ts.rounds + t.rounds := by
  have hsum : (ts.arm at_ t).rounds = t.rounds + (ts.cancel t).rounds :=
    ((perm_place at_ t (ts.cancel t).entries).map fun e : Time × Timer => e.2.rounds).sum_eq
  have hcancel := ts.rounds_cancel t
  omega

theorem rounds_popDue (h : ts.popDue now = some (t, ts')) :
    ts.rounds = t.rounds + ts'.rounds := by
  obtain ⟨due, heq, -⟩ := popDue_eq_some h
  rw [rounds, heq]
  rfl

theorem popDue_of_rounds_eq_zero (h : ts.rounds = 0) : ts.popDue now = none := by
  cases hpop : ts.popDue now with
  | none => rfl
  | some p =>
    have hsum := rounds_popDue hpop
    have hpos : 0 < p.1.rounds := by cases p.1 <;> simp [Timer.rounds]
    omega

end Timers

namespace Connection

variable {c : Connection} {id : ChannelId} {ch : Channel} {now : Time}

theorem sound_retiredTimers {ts : Timers} (h : ts.Sound) (due : Time) (stream : StreamId)
    (absorb : Bool) : (retiredTimers ts due stream absorb).Sound := by
  unfold retiredTimers
  split
  · exact h
  · split
    · exact h.arm _ _
    · exact h

theorem rounds_retiredTimers (ts : Timers) (due : Time) (stream : StreamId) (absorb : Bool) :
    (retiredTimers ts due stream absorb).rounds ≤ ts.rounds + 1 := by
  unfold retiredTimers
  split
  · exact Nat.le_succ _
  · split
    · exact ts.rounds_arm ..
    · exact Nat.le_succ _

theorem rounds_close (c : Connection) (id : ChannelId) (kind : CloseKind) :
    (c.close id kind).timers.rounds ≤ c.timers.rounds + 1 := by
  rcases close_cases c id kind with ⟨-, heq⟩ | ⟨ch, h, ho⟩
  · rw [heq]
    exact Nat.le_succ _
  · obtain ⟨_, _, heq, -⟩ := close_exact h ho kind
    have hcancel := c.timers.rounds_cancel (.handshakeTimeout id)
    have hretired := rounds_retiredTimers (c.timers.cancel (.handshakeTimeout id))
      (c.clock + c.config.grace) ch.stream
      (c.isActive && (ch.shut kind).initiator = some .ours)
    rw [heq]
    dsimp only
    omega

/-- Firing costs a round, and what it arms costs no more than what is left. -/
theorem rounds_fireTimer (c : Connection) (t : Timer) :
    (c.fireTimer t).timers.rounds + 1 ≤ c.timers.rounds + t.rounds := by
  cases t with
  | registryRemoval stream => exact Nat.le_refl _
  | handshakeTimeout id =>
    have hfail : (c.failHandshake id (.handshake .timedOut)).timers.rounds ≤
        c.timers.rounds + 1 := by
      rcases failHandshake_cases c id (.handshake .timedOut) with heq | ⟨ch, h, ho⟩
      · rw [heq]
        exact Nat.le_succ _
      · rw [failHandshake_eq h ho]
        exact rounds_close ..
    rw [fireTimer]
    split
    · exact Nat.succ_le_succ hfail
    · exact Nat.le_succ _

theorem popDue_fireDue (n : Nat) (h : c.timers.rounds ≤ n) :
    (fireDue now n c).timers.popDue now = none := by
  induction n generalizing c with
  | zero => exact Timers.popDue_of_rounds_eq_zero (Nat.le_zero.mp h)
  | succ n ih =>
    rw [fireDue]
    split
    next hpop => exact hpop
    next t timers hpop =>
      have hsum := Timers.rounds_popDue hpop
      have hfired := rounds_fireTimer { c with timers := timers } t
      dsimp only at hfired
      exact ih (by omega)

/-- The round limit never stops the loop: when time has passed, nothing that was due is left. -/
theorem popDue_timePassed (c : Connection) (now : Time) :
    (c.timePassed now).timers.popDue now = none :=
  popDue_fireDue _ c.timers.rounds_le

end Connection

end ChannelMux
