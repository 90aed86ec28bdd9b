import ChannelMux.Frame

/-! # Batches of finished reads

While the connection is inside one read cycle, channels whose reads are finished wait here, to be
completed together and followed by one flush.
-/

namespace ChannelMux

/-- Numbers channels in the order in which they were made. -/
abbrev ChannelId := Nat

structure ReadBatch where
  queue : List ChannelId := []
  capacity : Nat
  draining : Bool := false
deriving DecidableEq, Repr

namespace ReadBatch

/-- What became of a channel that asked to wait. -/
inductive Admission where
  | queued
  /-- The batch has to be drained first. -/
  | full
  /-- The batch is being drained; the read completes on its own. -/
  | draining
deriving DecidableEq, Repr

def ofCapacity (n : Nat) : ReadBatch := { capacity := max n 1 }

def setCapacity (b : ReadBatch) (n : Nat) : ReadBatch := { b with capacity := max n 1 }

def enqueue (b : ReadBatch) (c : ChannelId) : Admission × ReadBatch :=
  if b.draining then (.draining, b)
  else if b.capacity ≤ b.queue.length then (.full, b)
  else (.queued, { b with queue := b.queue ++ [c] })

/-- Start draining: the waiting channels, in the order of their arrival. -/
def beginDrain (b : ReadBatch) : List ChannelId × ReadBatch :=
  (b.queue, { b with queue := [], draining := true })

def finishDrain (b : ReadBatch) : ReadBatch := { b with draining := false }

def clear (b : ReadBatch) : ReadBatch := { b with queue := [], draining := false }

/-- Forget a channel that will not wait any longer. -/
def remove (b : ReadBatch) (c : ChannelId) : ReadBatch :=
  { b with queue := b.queue.filter (· ≠ c) }

@[simp] theorem queue_beginDrain (b : ReadBatch) : b.beginDrain.2.queue = [] := rfl
@[simp] theorem draining_beginDrain (b : ReadBatch) : b.beginDrain.2.draining = true := rfl
@[simp] theorem draining_finishDrain (b : ReadBatch) : b.finishDrain.draining = false := rfl
@[simp] theorem queue_finishDrain (b : ReadBatch) : b.finishDrain.queue = b.queue := rfl
@[simp] theorem queue_remove (b : ReadBatch) (c : ChannelId) :
    (b.remove c).queue = b.queue.filter (· ≠ c) := rfl

theorem capacity_pos_setCapacity (b : ReadBatch) (n : Nat) : 0 < (b.setCapacity n).capacity := by
  show 0 < max n 1
  omega

end ReadBatch

end ChannelMux
