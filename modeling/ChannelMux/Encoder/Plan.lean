import ChannelMux.Encoder

/-! # Planned encoders

An encoder whose answers are laid down ahead: which calls of a kind it refuses, and from which
number its streams are counted. Streams are odd or even throughout, so numbers advance by two, and
they are words of 32 bits.
-/

namespace ChannelMux

/-- The calls that may be refused. -/
inductive WireKind where
  | reserve | headers | data | reset | priority
deriving DecidableEq, Repr

def WireCall.kind? : WireCall → Option WireKind
  | reserve _ => some .reserve
  | headers .. => some .headers
  | data .. => some .data
  | reset .. => some .reset
  | priority .. => some .priority
  | flush | consume .. | forward _ | inactive => none

namespace Encoder

/-- How many calls of a kind a log holds. -/
def calls (kind : WireKind) (log : List WireEntry) : Nat :=
  log.countP fun e => e.call.kind? = some kind

/-- How many streams have been reserved. -/
def reserved (log : List WireEntry) : Nat :=
  log.countP fun e => e.call.kind? = some .reserve && e.fault.isNone

/-- After `first` calls of its kind in all, refuse `times` of them, or all if that is not given. -/
structure Refusal where
  kind : WireKind
  first : Nat
  times : Option Nat
  fault : WriteFault
deriving DecidableEq, Repr

def Refusal.applies (r : Refusal) (n : Nat) : Bool :=
  r.first ≤ n && r.times.all fun t => n < r.first + t

structure Plan where
  active : Bool := true
  writable : Bool := true
  /-- The stream to be reserved when `reservedBefore` streams have been reserved. -/
  stream : StreamId := 1
  reservedBefore : Nat := 0
  refusals : List Refusal := []
deriving DecidableEq, Repr

namespace Plan

def refusal? (p : Plan) (kind : WireKind) : Option Refusal :=
  p.refusals.find? fun r => r.kind = kind

def toEncoder (p : Plan) : Encoder where
  active _ := p.active
  writable _ := p.writable
  nextStream log := (p.stream + 2 * (reserved log - p.reservedBefore)) % UInt32.size
  fault log call :=
    (call.kind?.bind p.refusal?).bind fun r =>
      if r.applies (calls r.kind log) then some r.fault else none

/-- Count streams from a number onwards. -/
def countFrom (p : Plan) (stream : StreamId) (log : List WireEntry) : Plan :=
  { p with stream := stream, reservedBefore := reserved log }

/-- Take back what was planned for a kind. -/
def allow (p : Plan) (kind : WireKind) : Plan :=
  { p with refusals := p.refusals.filter fun r => r.kind ≠ kind }

/-- Let `skip` more calls of a kind pass and then refuse `times` of them. -/
def refuse (p : Plan) (kind : WireKind) (skip : Nat) (times : Option Nat) (fault : WriteFault)
    (log : List WireEntry) : Plan :=
  { p with refusals := ⟨kind, calls kind log + skip, times, fault⟩ :: (p.allow kind).refusals }

end Plan

end Encoder

end ChannelMux
