import ChannelMux.ReadBatch

/-! # Timers

At most one deadline is armed for each purpose. Deadlines fire in their order, and equal ones in
the order in which they were armed. Times are milliseconds since the start.
-/

namespace ChannelMux

abbrev Time := Nat

inductive Timer where
  /-- Stop absorbing late frames of a stream. -/
  | registryRemoval (stream : StreamId)
  /-- Give up waiting for the answer to a channel's request. -/
  | handshakeTimeout (channel : ChannelId)
deriving DecidableEq, Repr

/-- The armed deadlines, in the order in which they fire. -/
structure Timers where
  entries : List (Time × Timer) := []
deriving DecidableEq, Repr

namespace Timers

/-- The earliest deadline. -/
def next? (ts : Timers) : Option Time := ts.entries.head?.map Prod.fst

def cancel (ts : Timers) (t : Timer) : Timers := ⟨ts.entries.filter fun e => e.2 ≠ t⟩

/-- Place a deadline behind all that are not later. -/
def place (at_ : Time) (t : Timer) : List (Time × Timer) → List (Time × Timer)
  | [] => [(at_, t)]
  | e :: es => if e.1 ≤ at_ then e :: place at_ t es else (at_, t) :: e :: es

/-- Arm a timer, in place of an earlier deadline for the same purpose. -/
def arm (ts : Timers) (at_ : Time) (t : Timer) : Timers := ⟨place at_ t (ts.cancel t).entries⟩

/-- Take the first timer that is due. -/
def popDue (ts : Timers) (now : Time) : Option (Timer × Timers) :=
  match ts.entries with
  | [] => none
  | e :: es => if e.1 ≤ now then some (e.2, ⟨es⟩) else none

theorem mem_place (at_ : Time) (t : Timer) (es : List (Time × Timer)) (e : Time × Timer) :
    e ∈ place at_ t es ↔ e = (at_, t) ∨ e ∈ es := by
  induction es with
  | nil => simp [place]
  | cons d ds ih =>
    rw [place]
    split
    · rw [List.mem_cons, ih, List.mem_cons]
      exact or_left_comm
    · rw [List.mem_cons]

theorem mem_cancel (ts : Timers) (t : Timer) (e : Time × Timer) :
    e ∈ (ts.cancel t).entries ↔ e ∈ ts.entries ∧ e.2 ≠ t := by
  simp [cancel]

end Timers

end ChannelMux
