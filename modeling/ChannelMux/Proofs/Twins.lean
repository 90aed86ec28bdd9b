import ChannelMux.Proofs.Deadlines
import ChannelMux.Proofs.StreamSteps
import Mathlib.Data.Finmap
import Mathlib.Data.Finset.Max
import Mathlib.Data.Prod.Lex

/-!
# Twins: the deadlines in two maps

Deadlines can be kept in two maps.  One leads from ranks to timers, and its first entry fires next;
the other leads from timers to their ranks, so that a timer can be cancelled.  A rank is a deadline
with the number of its arming: equal deadlines fire in the order in which they were armed.

Both maps have to be kept in step.  `TwinMaps.Lists` says that they are, and that a list of ranks
and timers shows what is in them; every operation on the maps keeps this, for the list that the same
operation on a table of deadlines makes (`Represents`).  So the two maps of any connection are
inverse to each other, and its table is what they hold.
-/

namespace ChannelMux

/-- Where a timer stands in the order of firing. -/
abbrev Rank := Time ×ₗ Nat

abbrev Rank.due (p : Rank) : Time := (ofLex p).1

abbrev Rank.number (p : Rank) : Nat := (ofLex p).2

structure TwinMaps where
  timers : Finmap fun _ : Rank => Timer := ∅
  ranks : Finmap fun _ : Timer => Rank := ∅
  /-- The number of the last arming. -/
  armings : Nat := 0

namespace TwinMaps

def cancel (w : TwinMaps) (t : Timer) : TwinMaps :=
  match w.ranks.lookup t with
  | some p => { w with timers := w.timers.erase p, ranks := w.ranks.erase t }
  | none => w

def arm (w : TwinMaps) (at_ : Time) (t : Timer) : TwinMaps :=
  let w := w.cancel t
  let p : Rank := toLex (at_, w.armings + 1)
  { timers := Finmap.insert p t w.timers
    ranks := Finmap.insert t p w.ranks
    armings := w.armings + 1 }

/-- The first entry in the order of firing. -/
def first? (w : TwinMaps) : Option (Rank × Timer) :=
  if h : w.timers.keys.Nonempty then
    (w.timers.lookup (w.timers.keys.min' h)).map (w.timers.keys.min' h, ·)
  else none

/-- The earliest deadline. -/
def next? (w : TwinMaps) : Option Time := w.first?.map fun e => e.1.due

/-- Take the first timer that is due. -/
def popDue (w : TwinMaps) (now : Time) : Option (Timer × TwinMaps) :=
  match w.first? with
  | none => none
  | some (p, t) =>
    if p.due ≤ now then
      some (t, { w with timers := w.timers.erase p, ranks := w.ranks.erase t })
    else none

def clear (w : TwinMaps) : TwinMaps := { w with timers := ∅, ranks := ∅ }

/-! ## What is in the maps -/

/-- The maps are in step, and the list shows their entries in the order of firing. -/
structure Lists (w : TwinMaps) (es : List (Rank × Timer)) : Prop where
  sorted : es.Pairwise fun d e => d.1 < e.1
  timers : ∀ p t, w.timers.lookup p = some t ↔ (p, t) ∈ es
  ranks : ∀ p t, w.ranks.lookup t = some p ↔ (p, t) ∈ es
  numbered : ∀ e ∈ es, e.1.number ≤ w.armings

variable {w : TwinMaps} {es : List (Rank × Timer)} {p : Rank} {t : Timer} {at_ now : Time}

theorem lookup_erase_eq_some {α β : Type} [DecidableEq α] (m : Finmap fun _ : α => β) (a b : α)
    (x : β) : (m.erase a).lookup b = some x ↔ b ≠ a ∧ m.lookup b = some x := by
  by_cases h : b = a
  · rw [h, Finmap.lookup_erase]
    simp
  · rw [Finmap.lookup_erase_ne h]
    simp [h]

theorem lookup_insert_eq_some {α β : Type} [DecidableEq α] (m : Finmap fun _ : α => β) (a b : α)
    (x y : β) : (m.insert a x).lookup b = some y ↔ b = a ∧ y = x ∨ b ≠ a ∧ m.lookup b = some y := by
  by_cases h : b = a
  · rw [h, Finmap.lookup_insert]
    simp [eq_comm]
  · rw [Finmap.lookup_insert_of_ne _ h]
    simp [h]

theorem lists_empty : ({} : TwinMaps).Lists [] where
  sorted := .nil
  timers p t := by simp
  ranks p t := by simp
  numbered _ he := nomatch he

namespace Lists

theorem timer_eq (h : w.Lists es) {u : Timer} (ht : (p, t) ∈ es) (hu : (p, u) ∈ es) : t = u :=
  Option.some.inj (((h.timers p t).mpr ht).symm.trans ((h.timers p u).mpr hu))

theorem rank_eq (h : w.Lists es) {q : Rank} (hp : (p, t) ∈ es) (hq : (q, t) ∈ es) : p = q :=
  Option.some.inj (((h.ranks p t).mpr hp).symm.trans ((h.ranks q t).mpr hq))

/-- An entry is taken out of both maps. -/
theorem erase (h : w.Lists es) (hmem : (p, t) ∈ es) :
    Lists { w with timers := w.timers.erase p, ranks := w.ranks.erase t }
      (es.filter fun e => e.2 ≠ t) where
  sorted := h.sorted.filter _
  timers q u := by
    rw [lookup_erase_eq_some, h.timers, List.mem_filter, decide_eq_true_iff]
    constructor
    · rintro ⟨hne, hu⟩
      exact ⟨hu, fun (heq : u = t) => hne (h.rank_eq (heq ▸ hu) hmem)⟩
    · rintro ⟨hu, hne⟩
      refine ⟨fun heq => hne ?_, hu⟩
      exact h.timer_eq (heq ▸ hu) hmem
  ranks q u := by
    rw [lookup_erase_eq_some, h.ranks, List.mem_filter, decide_eq_true_iff]
    exact and_comm
  numbered e he := h.numbered e (List.mem_of_mem_filter he)

theorem cancel (h : w.Lists es) (t : Timer) :
    (w.cancel t).Lists (es.filter fun e => e.2 ≠ t) := by
  rw [TwinMaps.cancel]
  split
  next p hp => exact h.erase ((h.ranks p t).mp hp)
  next hnone =>
    rwa [List.filter_eq_self.mpr]
    rintro ⟨p, u⟩ hu
    refine decide_eq_true fun (heq : u = t) => ?_
    cases hnone.symm.trans ((h.ranks p t).mpr (heq ▸ hu))

/-- A deadline that is armed last stands behind those that are not later. -/
theorem exists_place {n : Nat} (hsorted : es.Pairwise fun d e => d.1 < e.1)
    (hn : ∀ e ∈ es, e.1.number < n) (at_ : Time) (t : Timer) :
    ∃ fs : List (Rank × Timer), fs.Pairwise (fun d e => d.1 < e.1) ∧
      (∀ e, e ∈ fs ↔ e = (toLex (at_, n), t) ∨ e ∈ es) ∧
      fs.map (fun e => (e.1.due, e.2)) =
        Timers.place at_ t (es.map fun e => (e.1.due, e.2)) := by
  induction es with
  | nil => exact ⟨[(toLex (at_, n), t)], List.pairwise_singleton _ _, by simp, rfl⟩
  | cons d ds ih =>
    obtain ⟨hfirst, hrest⟩ := List.pairwise_cons.mp hsorted
    rw [List.map_cons, Timers.place]
    split
    next hle =>
      obtain ⟨fs, hfs, hmem, hmap⟩ := ih hrest fun e he => hn e (List.mem_cons_of_mem _ he)
      refine ⟨d :: fs, List.pairwise_cons.mpr ⟨fun e he => ?_, hfs⟩, fun e => ?_, ?_⟩
      · rcases (hmem e).mp he with rfl | he
        · have hbefore := hn d List.mem_cons_self
          rw [Prod.Lex.lt_iff]
          exact (Nat.lt_or_eq_of_le hle).imp_right fun heq => ⟨heq, hbefore⟩
        · exact hfirst e he
      · rw [List.mem_cons, hmem, List.mem_cons]
        exact or_left_comm
      · rw [List.map_cons, hmap]
    next hlt =>
      have hbefore : (toLex (at_, n) : Rank) < d.1 :=
        (Prod.Lex.lt_iff ..).mpr (.inl (Nat.not_le.mp hlt))
      refine ⟨(toLex (at_, n), t) :: d :: ds, List.pairwise_cons.mpr ⟨fun e he => ?_, hsorted⟩,
        fun e => List.mem_cons, rfl⟩
      rcases List.mem_cons.mp he with rfl | he
      · exact hbefore
      · exact lt_trans hbefore (hfirst e he)

/-- An entry with a new rank and a new timer is put into both maps. -/
theorem insert (h : w.Lists es) {fs : List (Rank × Timer)}
    (hsorted : fs.Pairwise fun d e => d.1 < e.1)
    (hmem : ∀ e, e ∈ fs ↔ e = (p, t) ∨ e ∈ es) (hp : p.number = w.armings + 1)
    (ht : ∀ e ∈ es, e.2 ≠ t) :
    Lists { timers := Finmap.insert p t w.timers
            ranks := Finmap.insert t p w.ranks
            armings := w.armings + 1 } fs where
  sorted := hsorted
  timers q u := by
    rw [lookup_insert_eq_some, h.timers, hmem, Prod.mk.injEq]
    refine or_congr_right ⟨fun hu => hu.2, fun hu => ⟨?_, hu⟩⟩
    rintro rfl
    have hle := h.numbered _ hu
    rw [hp] at hle
    exact Nat.not_succ_le_self _ hle
  ranks q u := by
    rw [lookup_insert_eq_some, h.ranks, hmem, Prod.mk.injEq, and_comm (a := u = t)]
    exact or_congr_right ⟨fun hu => hu.2, fun hu => ⟨ht _ hu, hu⟩⟩
  numbered e he := by
    rcases (hmem e).mp he with rfl | he
    · exact Nat.le_of_eq hp
    · exact Nat.le_succ_of_le (h.numbered e he)

theorem first? (h : w.Lists es) : w.first? = es.head? := by
  cases es with
  | nil =>
    rw [TwinMaps.first?, dif_neg]
    · rfl
    rintro ⟨p, hp⟩
    obtain ⟨t, ht⟩ := Finmap.mem_iff.mp (Finmap.mem_keys.mp hp)
    exact List.not_mem_nil ((h.timers p t).mp ht)
  | cons e es =>
    obtain ⟨p, t⟩ := e
    have hlookup := (h.timers p t).mpr List.mem_cons_self
    have hmem : p ∈ w.timers.keys := Finmap.mem_keys.mpr (Finmap.mem_of_lookup_eq_some hlookup)
    have hmin : w.timers.keys.min' ⟨p, hmem⟩ = p := by
      refine le_antisymm (Finset.min'_le _ p hmem) (Finset.le_min' _ _ p fun q hq => ?_)
      obtain ⟨u, hu⟩ := Finmap.mem_iff.mp (Finmap.mem_keys.mp hq)
      rcases List.mem_cons.mp ((h.timers q u).mp hu) with heq | hlater
      · exact le_of_eq (congrArg Prod.fst heq).symm
      · exact le_of_lt ((List.pairwise_cons.mp h.sorted).1 _ hlater)
    rw [TwinMaps.first?, dif_pos ⟨p, hmem⟩, hmin, hlookup]
    rfl

end Lists

/-! ## The table that the maps stand for -/

/-- The maps are in step and hold the deadlines of the table. -/
def Represents (w : TwinMaps) (ts : Timers) : Prop :=
  ∃ es, w.Lists es ∧ ts.entries = es.map fun e => (e.1.due, e.2)

namespace Represents

variable {ts : Timers}

theorem empty : ({} : TwinMaps).Represents {} := ⟨[], lists_empty, rfl⟩

theorem cancel (h : w.Represents ts) (t : Timer) : (w.cancel t).Represents (ts.cancel t) := by
  obtain ⟨es, hlists, heq⟩ := h
  refine ⟨_, hlists.cancel t, ?_⟩
  rw [Timers.cancel, heq, List.filter_map]
  rfl

theorem arm (h : w.Represents ts) (at_ : Time) (t : Timer) :
    (w.arm at_ t).Represents (ts.arm at_ t) := by
  obtain ⟨es, hlists, heq⟩ := h.cancel t
  obtain ⟨fs, hsorted, hmem, hmap⟩ := Lists.exists_place hlists.sorted
    (fun e he => Nat.lt_succ_of_le (hlists.numbered e he)) at_ t
  refine ⟨fs, hlists.insert hsorted hmem rfl fun e he => ?_, ?_⟩
  · have hother : (e.1.due, e.2) ∈ (ts.cancel t).entries :=
      heq ▸ List.mem_map_of_mem (f := fun e : Rank × Timer => (e.1.due, e.2)) he
    exact ((Timers.mem_cancel ts t _).mp hother).2
  · rw [Timers.arm, heq, hmap]

theorem next? (h : w.Represents ts) : w.next? = ts.next? := by
  obtain ⟨es, hlists, heq⟩ := h
  rw [TwinMaps.next?, hlists.first?, Timers.next?, heq]
  cases es <;> rfl

/-- The same timer is taken out of the maps and out of the table, if one is due. -/
theorem popDue (h : w.Represents ts) (now : Time) :
    Option.Rel (fun a b => a.1 = b.1 ∧ a.2.Represents b.2) (w.popDue now) (ts.popDue now) := by
  obtain ⟨es, hlists, heq⟩ := h
  rw [TwinMaps.popDue, hlists.first?, Timers.popDue, heq]
  cases es with
  | nil => exact .none
  | cons e es =>
    obtain ⟨p, t⟩ := e
    show Option.Rel _ (if p.due ≤ now then _ else none) (if p.due ≤ now then _ else none)
    split
    next hle =>
      refine .some ⟨rfl, es, ?_, rfl⟩
      have herased := hlists.erase List.mem_cons_self
      rw [List.filter_cons_of_neg (by simp), List.filter_eq_self.mpr] at herased
      · exact herased
      rintro ⟨q, u⟩ hu
      refine decide_eq_true fun (hsame : u = t) => ?_
      have hrank := hlists.rank_eq (hsame ▸ List.mem_cons_of_mem _ hu) List.mem_cons_self
      exact absurd ((List.pairwise_cons.mp hlists.sorted).1 _ hu) (hrank ▸ lt_irrefl _)
    next => exact .none

theorem clear (w : TwinMaps) : w.clear.Represents {} :=
  ⟨[], { lists_empty with numbered := fun _ he => nomatch he }, rfl⟩

theorem mem_iff (h : w.Represents ts) (due : Time) (t : Timer) :
    (due, t) ∈ ts.entries ↔ ∃ p : Rank, p.due = due ∧ w.ranks.lookup t = some p := by
  obtain ⟨es, hlists, heq⟩ := h
  rw [heq, List.mem_map]
  constructor
  · rintro ⟨⟨p, u⟩, hmem, hsame⟩
    obtain ⟨rfl, rfl⟩ := Prod.mk.inj hsame
    exact ⟨p, rfl, (hlists.ranks p u).mpr hmem⟩
  · rintro ⟨p, rfl, hp⟩
    exact ⟨(p, t), (hlists.ranks p t).mp hp, rfl⟩

end Represents

end TwinMaps

/-! ## Operations -/

/-- What is done to deadlines. -/
inductive TimerOp where
  | arm (at_ : Time) (t : Timer)
  | cancel (t : Timer)
  /-- Take the first timer that is due, if there is one. -/
  | popDue (now : Time)
  | clear
deriving DecidableEq, Repr

def Timers.apply (ts : Timers) : TimerOp → Timers
  | .arm at_ t => ts.arm at_ t
  | .cancel t => ts.cancel t
  | .popDue now => (ts.popDue now).elim ts Prod.snd
  | .clear => {}

def TwinMaps.apply (w : TwinMaps) : TimerOp → TwinMaps
  | .arm at_ t => w.arm at_ t
  | .cancel t => w.cancel t
  | .popDue now => (w.popDue now).elim w Prod.snd
  | .clear => w.clear

/-- Each operation keeps the maps in step with each other and with the table. -/
theorem TwinMaps.Represents.apply {w : TwinMaps} {ts : Timers} (h : w.Represents ts)
    (op : TimerOp) : (w.apply op).Represents (ts.apply op) := by
  cases op with
  | arm at_ t => exact h.arm at_ t
  | cancel t => exact h.cancel t
  | popDue now =>
    have hpop := h.popDue now
    rw [TwinMaps.apply, Timers.apply]
    generalize w.popDue now = popped, ts.popDue now = popped' at hpop ⊢
    cases hpop with
    | none => exact h
    | some hsame => exact hsame.2
  | clear => exact .clear w

theorem TwinMaps.Represents.foldl {w : TwinMaps} {ts : Timers} (h : w.Represents ts)
    (ops : List TimerOp) :
    (ops.foldl TwinMaps.apply w).Represents (ops.foldl Timers.apply ts) := by
  induction ops generalizing w ts with
  | nil => exact h
  | cons op ops ih => exact ih (h.apply op)

namespace Connection

variable {strict : Prop} {k : Cause} {c d : Connection} {id : ChannelId}

theorem timers_close (c : Connection) (id : ChannelId) (kind : CloseKind) :
    ∃ ops : List TimerOp, (c.close id kind).timers = ops.foldl Timers.apply c.timers := by
  rcases close_cases c id kind with ⟨-, heq⟩ | ⟨ch, hch, ho⟩
  · exact ⟨[], congrArg Connection.timers heq⟩
  · obtain ⟨_, _, heq, -⟩ := close_exact hch ho kind
    rw [heq]
    dsimp only
    rw [retiredTimers]
    split
    · exact ⟨[.cancel (.handshakeTimeout id)], rfl⟩
    · split
      · exact ⟨[.cancel (.handshakeTimeout id),
          .arm (c.clock + c.config.grace) (.registryRemoval ch.stream)], rfl⟩
      · exact ⟨[.cancel (.handshakeTimeout id)], rfl⟩

/-- Whatever is done, deadlines are only armed, cancelled, taken or cleared. -/
theorem StreamStep.timers (h : StreamStep strict k c d) :
    ∃ ops : List TimerOp, d.timers = ops.foldl Timers.apply c.timers := by
  cases h with
  | calm hcalm => exact ⟨[], hcalm.timers⟩
  | asked path subprotocol =>
    rw [addAsking_eq]
    dsimp only
    rw [askingTimers]
    split
    next ms _ => exact ⟨[.arm (c.clock + ms) (.handshakeTimeout c.nextChannel)], rfl⟩
    · exact ⟨[], rfl⟩
  | requestRefused => exact timers_close ..
  | ended => exact timers_close ..
  | @answered id => exact ⟨[.cancel (.handshakeTimeout id)], rfl⟩
  | cleared => exact ⟨[.clear], rfl⟩
  | @missed _ now _ hpop =>
    refine ⟨[.popDue now], ?_⟩
    simp only [List.foldl_cons, List.foldl_nil, Timers.apply, hpop, Option.elim]
  | @expired _ now _ hpop =>
    refine ⟨[.popDue now], ?_⟩
    simp only [List.foldl_cons, List.foldl_nil, Timers.apply, hpop, Option.elim]
  | unreserved | requested | enrolled | sent | tornDown => exact ⟨[], rfl⟩

end Connection

end ChannelMux
