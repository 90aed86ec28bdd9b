import ChannelMux.Completion
import ChannelMux.Proofs.Tables

/-!
# Ledgers: what becomes of a promise

A promise is made once, kept at most once, and never changed by whoever collects outcomes or loses
interest in them.
-/

namespace ChannelMux.Ledger

/-- The tickets issued are those before the next one, and their promises are held or kept. -/
structure Sound (l : Ledger) : Prop where
  unissued : ∀ t, l.next ≤ t → l.promise? t = none
  issued : ∀ t, t < l.next → l.promise? t = some .held ∨ ∃ o, l.promise? t = some (.kept o)

theorem isHeld_iff {l : Ledger} {t : Ticket} : l.isHeld t = true ↔ l.promise? t = some .held := by
  simp [isHeld]

/-! ## Issuing -/

theorem promise?_issue (l : Ledger) (p : Promise) (t : Ticket) :
    (l.issue p).2.promise? t = if t = l.next then some p else l.promise? t := by
  rw [issue, promise?, Table.get?_insert]
  split <;> rfl

theorem isHeld_congr {l m : Ledger} {t : Ticket} (h : m.promise? t = l.promise? t) :
    m.isHeld t = l.isHeld t := by
  rw [isHeld, isHeld, h]

theorem Sound.congr {l m : Ledger} (h : l.Sound) (hp : ∀ t, m.promise? t = l.promise? t)
    (hn : m.next = l.next) : m.Sound where
  unissued t ht := (hp t).trans (h.unissued t (hn ▸ ht))
  issued t ht := by rw [hp]; exact h.issued t (hn ▸ ht)

theorem Sound.issue {l : Ledger} (h : l.Sound) {p : Promise} (hp : p = .held ∨ ∃ o, p = .kept o) :
    (l.issue p).2.Sound where
  unissued t ht := by
    rw [promise?_issue, if_neg (Nat.ne_of_gt ht)]
    exact h.unissued t (Nat.le_of_succ_le ht)
  issued t ht := by
    rw [promise?_issue]
    split
    next =>
      rcases hp with rfl | ⟨o, rfl⟩
      · exact .inl rfl
      · exact .inr ⟨o, rfl⟩
    next hne => exact h.issued t (Nat.lt_of_le_of_ne (Nat.le_of_lt_succ ht) hne)

/-! ## Settling -/

@[simp] theorem next_resolve (l : Ledger) (t : Ticket) (o : Outcome) :
    (l.resolve t o).next = l.next := rfl

theorem promise?_resolve (l : Ledger) (t : Ticket) (o : Outcome) (u : Ticket) :
    (l.resolve t o).promise? u =
      if u = t ∧ l.isHeld u = true then some (.kept o) else l.promise? u :=
  promise?_settle l t (.kept o) u

theorem isHeld_resolve (l : Ledger) (t : Ticket) (o : Outcome) (u : Ticket) :
    (l.resolve t o).isHeld u = (l.isHeld u && decide (u ≠ t)) := by
  rw [isHeld, promise?_resolve]
  by_cases hu : u = t
  · subst hu
    by_cases hh : l.isHeld u = true
    · simp [hh]
    · rw [if_neg fun h => hh h.2]
      simpa [isHeld] using hh
  · rw [if_neg fun h => hu h.1]
    simp [hu, isHeld]

theorem resolveAll_cons (l : Ledger) (t : Ticket) (ts : List Ticket) (o : Outcome) :
    l.resolveAll (t :: ts) o = (l.resolve t o).resolveAll ts o := rfl

@[simp] theorem next_resolveAll (l : Ledger) (ts : List Ticket) (o : Outcome) :
    (l.resolveAll ts o).next = l.next := by
  induction ts generalizing l with
  | nil => rfl
  | cons t ts ih => rw [resolveAll_cons, ih, next_resolve]

theorem promise?_resolveAll (l : Ledger) (ts : List Ticket) (o : Outcome) (u : Ticket) :
    (l.resolveAll ts o).promise? u =
      if u ∈ ts ∧ l.isHeld u = true then some (.kept o) else l.promise? u := by
  induction ts generalizing l with
  | nil => rfl
  | cons t ts ih =>
    rw [resolveAll_cons, ih, isHeld_resolve, promise?_resolve]
    by_cases hh : l.isHeld u = true
    · by_cases hu : u = t
      · simp [hu, hu ▸ hh]
      · simp [hu, hh]
    · simp [hh]

theorem isHeld_resolveAll (l : Ledger) (ts : List Ticket) (o : Outcome) (u : Ticket) :
    (l.resolveAll ts o).isHeld u = (l.isHeld u && decide (u ∉ ts)) := by
  rw [isHeld, promise?_resolveAll]
  by_cases hh : l.isHeld u = true
  · by_cases hu : u ∈ ts
    · simp [hu, hh]
    · rw [if_neg fun h => hu h.1, isHeld_iff.mp hh]
      simp [hu, hh]
  · rw [if_neg fun h => hh h.2]
    have hne : l.promise? u ≠ some .held := fun h => hh (isHeld_iff.mpr h)
    simp [isHeld, hne]

theorem Sound.resolveAll {l : Ledger} (h : l.Sound) (ts : List Ticket) (o : Outcome) :
    (l.resolveAll ts o).Sound where
  unissued t ht := by
    rw [next_resolveAll] at ht
    have hnone := h.unissued t ht
    rw [promise?_resolveAll, if_neg fun hu => ?_, hnone]
    rw [isHeld_iff, hnone] at hu
    cases hu.2
  issued t ht := by
    rw [next_resolveAll] at ht
    rw [promise?_resolveAll]
    split
    · exact .inr ⟨o, rfl⟩
    · exact h.issued t ht

theorem Sound.resolve {l : Ledger} (h : l.Sound) (t : Ticket) (o : Outcome) :
    (l.resolve t o).Sound := h.resolveAll [t] o

/-! ## Collecting -/

@[simp] theorem promise_tryTake (c : Completion) : c.tryTake.2.promise = c.promise := by
  unfold Completion.tryTake
  split
  · rfl
  · split <;> rfl

@[simp] theorem promise?_collect (l : Ledger) (t : Ticket) :
    l.collect.2.promise? t = l.promise? t := by
  rw [collect, promise?, Table.get?_mapEntries, promise?, Option.map_map]
  refine congrArg (Option.map · _) (funext ?_)
  intro c
  simp only [Function.comp_apply]
  split
  · rfl
  · exact promise_tryTake c

@[simp] theorem promise?_drop (l : Ledger) (t u : Ticket) :
    (l.drop t).promise? u = l.promise? u := by
  rw [drop, promise?, Table.get?_modify, promise?]
  split
  · rw [Option.map_map]; rfl
  · rfl

/-! ## Kept promises stay kept -/

/-- Every promise kept in `l` is kept in `m` in the same way. -/
def Keeps (l m : Ledger) : Prop :=
  l.next ≤ m.next ∧ ∀ t o, l.promise? t = some (.kept o) → m.promise? t = some (.kept o)

theorem Keeps.refl (l : Ledger) : l.Keeps l := ⟨Nat.le_refl _, fun _ _ h => h⟩

theorem Keeps.trans {l m n : Ledger} (h : l.Keeps m) (h' : m.Keeps n) : l.Keeps n :=
  ⟨Nat.le_trans h.1 h'.1, fun t o ht => h'.2 t o (h.2 t o ht)⟩

theorem keeps_resolveAll (l : Ledger) (ts : List Ticket) (o : Outcome) :
    l.Keeps (l.resolveAll ts o) := by
  refine ⟨Nat.le_of_eq (next_resolveAll l ts o).symm, ?_⟩
  intro t o' h
  rw [promise?_resolveAll, if_neg fun hu => ?_, h]
  rw [isHeld_iff, h] at hu
  cases hu.2

theorem keeps_resolve (l : Ledger) (t : Ticket) (o : Outcome) : l.Keeps (l.resolve t o) :=
  keeps_resolveAll l [t] o

theorem Sound.keeps_issue {l : Ledger} (h : l.Sound) (p : Promise) : l.Keeps (l.issue p).2 := by
  refine ⟨Nat.le_succ _, ?_⟩
  intro t o ht
  rw [promise?_issue, if_neg, ht]
  intro heq
  rw [h.unissued t (Nat.le_of_eq heq.symm)] at ht
  cases ht

end ChannelMux.Ledger
