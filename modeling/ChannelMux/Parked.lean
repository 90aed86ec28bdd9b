import ChannelMux.Completion
import ChannelMux.Header

/-! # Parked writes

Until a server has accepted the conversation nothing may be sent on its stream, so a client parks
its writes. They are all taken for sending, or all failed, and this happens once.
-/

namespace ChannelMux

structure Parked where
  writes : List (Bytes × Ticket) := []
  /-- The payload bytes of the parked writes. -/
  bytes : Nat := 0
  settled : Bool := false
deriving DecidableEq, Repr

namespace Parked

/-- Park a write, unless it is too late for that. -/
def push? (p : Parked) (payload : Bytes) (ticket : Ticket) : Option Parked :=
  if p.settled then none
  else some { p with writes := p.writes ++ [(payload, ticket)], bytes := p.bytes + payload.length }

/-- No writes, and none to come. -/
def done : Parked := { settled := true }

/-- Take every write in the order of parking, if that has not happened yet. -/
def take (p : Parked) : Option (List (Bytes × Ticket)) × Parked :=
  if p.settled then (none, p) else (some p.writes, done)

/-- Give up every write: the tickets to be failed, if that has not happened yet. -/
def giveUp (p : Parked) : Option (List Ticket) × Parked :=
  if p.settled then (none, p) else (some (p.writes.map Prod.snd), done)

def size (p : Parked) : Nat := p.writes.length

@[simp] theorem settled_done : done.settled = true := rfl
@[simp] theorem take_done : done.take = (none, done) := rfl
@[simp] theorem giveUp_done : done.giveUp = (none, done) := rfl
@[simp] theorem push?_done (payload : Bytes) (t : Ticket) : done.push? payload t = none := rfl

/-! ## Requests

A request is one use of parked writes, and its answer is what the user learns. The promises behind
the tickets stand in a ledger. -/

inductive Request where
  | push (payload : Bytes) (ticket : Ticket)
  | take
  | fail (cause : Fault)
deriving DecidableEq, Repr

inductive Answer where
  | parked
  /-- The write came too late and is handed back. -/
  | returned (payload : Bytes) (ticket : Ticket)
  | taken (writes : Option (List (Bytes × Ticket)))
  /-- How many writes were given up. -/
  | failed (count : Option Nat)
deriving DecidableEq, Repr

def serve (p : Parked) (l : Ledger) : Request → Answer × Parked × Ledger
  | .push payload ticket =>
    match p.push? payload ticket with
    | some p' => (.parked, p', l)
    | none => (.returned payload ticket, p, l)
  | .take => (.taken p.take.1, p.take.2, l)
  | .fail cause =>
    (.failed (p.giveUp.1.map List.length), p.giveUp.2,
      l.resolveAll (p.giveUp.1.getD []) (.failed cause))

end Parked

end ChannelMux
