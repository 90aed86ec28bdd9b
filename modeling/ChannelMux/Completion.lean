import ChannelMux.Fault
import ChannelMux.Table

/-! # Completions

Whoever starts a write or a close gets a ticket, under which its outcome can be learned once. The
connection holds the promise that belongs to the ticket, and keeps it or breaks it.
-/

namespace ChannelMux

/-- How a write or a close ended. -/
inductive Outcome where
  | done
  | failed (cause : Fault)
deriving DecidableEq, Repr

/-- Where a promise stands. -/
inductive Promise where
  | held
  | kept (outcome : Outcome)
  /-- Given up without an outcome. -/
  | broken
deriving DecidableEq, Repr

/-- What the holder of the ticket may learn; a broken promise reads as a closed channel. -/
def Promise.outcome? : Promise → Option Outcome
  | held => none
  | kept o => some o
  | broken => some (.failed .channelClosed)

structure Completion where
  promise : Promise := .held
  /-- The outcome has been learned. -/
  taken : Bool := false
  /-- The holder of the ticket has lost interest. -/
  dropped : Bool := false
deriving DecidableEq, Repr

namespace Completion

/-- Ask for the outcome without waiting; it is given once. -/
def tryTake (c : Completion) : Option Outcome × Completion :=
  if c.taken then (none, c)
  else match c.promise.outcome? with
    | none => (none, c)
    | some o => (some o, { c with taken := true })

/-- Wait for the outcome, which must not have been learned before. -/
def poll (c : Completion) : Option Outcome × Completion :=
  if c.taken then (some (.failed (.state .completionConsumed)), c)
  else match c.promise.outcome? with
    | none => (none, c)
    | some o => (some o, { c with taken := true })

end Completion

/-! ## Ledgers -/

/-- Numbers completions in the order in which they were issued. -/
abbrev Ticket := Nat

/-- All completions ever issued. -/
structure Ledger where
  completions : Table Completion := .empty
  next : Ticket := 0
deriving DecidableEq, Repr

namespace Ledger

/-- Issue a ticket whose promise stands as given. -/
def issue (l : Ledger) (p : Promise) : Ticket × Ledger :=
  (l.next, { completions := l.completions.insert l.next { promise := p }, next := l.next + 1 })

def promise? (l : Ledger) (t : Ticket) : Option Promise := (l.completions.get? t).map (·.promise)

/-- Whether the promise of a ticket can still be kept or broken. -/
def isHeld (l : Ledger) (t : Ticket) : Bool := l.promise? t = some .held

/-- Keep or break a promise; one that is no longer held stays as it is. -/
def settle (l : Ledger) (t : Ticket) (p : Promise) : Ledger :=
  { l with completions := l.completions.modify t fun c =>
      if c.promise = .held then { c with promise := p } else c }

def resolve (l : Ledger) (t : Ticket) (o : Outcome) : Ledger := l.settle t (.kept o)

def resolveAll (l : Ledger) (ts : List Ticket) (o : Outcome) : Ledger :=
  ts.foldl (fun l t => l.resolve t o) l

/-- The holder of a ticket loses interest. -/
def drop (l : Ledger) (t : Ticket) : Ledger :=
  { l with completions := l.completions.modify t fun c => { c with dropped := true } }

/-- The completion of a ticket whose holder is still interested. -/
def open? (l : Ledger) (t : Ticket) : Option Completion :=
  (l.completions.get? t).filter fun c => !c.dropped

/-- Let the holder of a ticket ask in the given way; `none` if there is no such holder. -/
def ask (l : Ledger) (t : Ticket) (how : Completion → Option Outcome × Completion) :
    Option (Option Outcome × Ledger) :=
  (l.open? t).map fun c =>
    ((how c).1, { l with completions := l.completions.insert t (how c).2 })

/-- Every holder asks for its outcome: what they learn, by ascending ticket. -/
def collect (l : Ledger) : List (Ticket × Outcome) × Ledger :=
  (l.completions.entries.filterMap fun e =>
      if e.2.dropped then none else e.2.tryTake.1.map (e.1, ·),
    { l with completions := l.completions.mapEntries fun _ c =>
        if c.dropped then c else c.tryTake.2 })

theorem promise?_settle (l : Ledger) (t : Ticket) (p : Promise) (u : Ticket) :
    (l.settle t p).promise? u =
      if u = t ∧ l.isHeld u then some p else l.promise? u := by
  have hget : (l.settle t p).promise? u = ((l.completions.modify t fun c =>
      if c.promise = .held then { c with promise := p } else c).get? u).map (·.promise) := rfl
  rw [hget, Table.get?_modify]
  obtain hc | ⟨c, hc⟩ := Option.eq_none_or_eq_some (l.completions.get? u)
  · simp [isHeld, promise?, hc]
  · by_cases h : u = t
    · by_cases hp : c.promise = .held <;> simp_all [isHeld, promise?]
    · simp [h, isHeld, promise?, hc]

end Ledger

end ChannelMux
