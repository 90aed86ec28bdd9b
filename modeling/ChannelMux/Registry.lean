import ChannelMux.Frame
import ChannelMux.Table

/-! # The stream registry

Which stream belongs to which channel. Most connections carry one conversation, so a registry
holds a single entry in place and becomes a table when a second stream is registered; it stays one
from then on. `Registry.toTable` forgets the difference.
-/

namespace ChannelMux

inductive Slot (V : Type) where
  /-- The stream of a live channel. -/
  | active (v : V)
  /-- A stream that was closed here and may still receive late frames. -/
  | closed
deriving DecidableEq, Repr

def Slot.value? {V : Type} : Slot V → Option V
  | active v => some v
  | closed => none

inductive Registry (V : Type) where
  | empty
  | one (stream : StreamId) (slot : Slot V)
  | many (table : Table (Slot V))
deriving DecidableEq, Repr

namespace Registry

variable {V : Type}

/-- The entries as a table. -/
def toTable : Registry V → Table (Slot V)
  | empty => .empty
  | one s slot => Table.empty.insert s slot
  | many t => t

def get? (r : Registry V) (s : StreamId) : Option (Slot V) :=
  match r with
  | empty => none
  | one t slot => if s = t then some slot else none
  | many t => t.get? s

/-- The live channel of a stream. -/
def active? (r : Registry V) (s : StreamId) : Option V := (r.get? s).bind Slot.value?

/-- Set an entry; a second stream turns the registry into a table. -/
def put (r : Registry V) (s : StreamId) (slot : Slot V) : Registry V :=
  match r with
  | empty => one s slot
  | one t old => if s = t then one s slot else many ((Table.empty.insert t old).insert s slot)
  | many t => many (t.insert s slot)

def insert (r : Registry V) (s : StreamId) (v : V) : Registry V := r.put s (.active v)

/-- Note that the stream of an entry was closed here. -/
def markClosed (r : Registry V) (s : StreamId) : Registry V :=
  match r.get? s with
  | some _ => r.put s .closed
  | none => r

def remove (r : Registry V) (s : StreamId) : Registry V :=
  match r with
  | empty => empty
  | one t slot => if s = t then empty else one t slot
  | many t => many (t.erase s)

/-- Remove an entry only if its stream was closed here. -/
def removeClosed (r : Registry V) (s : StreamId) : Registry V :=
  match r.get? s with
  | some .closed => r.remove s
  | _ => r

def clear : Registry V → Registry V
  | many _ => many .empty
  | _ => empty

def size : Registry V → Nat
  | empty => 0
  | one .. => 1
  | many t => t.size

def isEmpty (r : Registry V) : Bool := r.size = 0

/-- Whether the registry has become a table. -/
def isPromoted : Registry V → Bool
  | many _ => true
  | _ => false

/-- All entries, by ascending stream. -/
def entries (r : Registry V) : List (StreamId × Slot V) := r.toTable.entries

/-- The live channels, by ascending stream. -/
def activeEntries (r : Registry V) : List (StreamId × V) :=
  r.entries.filterMap fun e => e.2.value?.map (e.1, ·)

/-! ## The entries after each operation -/

@[simp] theorem get?_toTable (r : Registry V) (s : StreamId) : r.toTable.get? s = r.get? s := by
  cases r <;> simp [toTable, get?]

@[simp] theorem get?_empty (s : StreamId) : (empty : Registry V).get? s = none := rfl

@[simp] theorem get?_put (r : Registry V) (s : StreamId) (slot : Slot V) (t : StreamId) :
    (r.put s slot).get? t = if t = s then some slot else r.get? t := by
  cases r with
  | empty => rfl
  | one u old =>
    rw [put]
    split
    next h =>
      subst h
      simp only [get?]
      split <;> rfl
    next h => simp [get?]
  | many u => simp [put, get?]

@[simp] theorem get?_insert (r : Registry V) (s : StreamId) (v : V) (t : StreamId) :
    (r.insert s v).get? t = if t = s then some (.active v) else r.get? t :=
  get?_put r s (.active v) t

@[simp] theorem get?_remove (r : Registry V) (s t : StreamId) :
    (r.remove s).get? t = if t = s then none else r.get? t := by
  cases r with
  | empty => simp [remove]
  | one u slot =>
    rw [remove]
    split
    next h =>
      subst h
      simp only [get?]
      split <;> rfl
    next h =>
      simp only [get?]
      split
      next ht => rw [if_neg (ht ▸ Ne.symm h)]
      next ht => simp
  | many u => simp [remove, get?]

@[simp] theorem get?_clear (r : Registry V) (s : StreamId) : r.clear.get? s = none := by
  cases r <;> rfl

/-! ## Requests

A request is one use of a registry, and its answer is what the user learns. -/

inductive Request (V : Type) where
  | insert (stream : StreamId) (v : V)
  | get (stream : StreamId)
  | active (stream : StreamId)
  | markClosed (stream : StreamId)
  | remove (stream : StreamId)
  | removeClosed (stream : StreamId)
  | clear
deriving DecidableEq, Repr

inductive Answer (V : Type) where
  /-- An entry: the one asked for, or the one that was replaced or removed. -/
  | slot (slot : Option (Slot V))
  | value (v : Option V)
  /-- Whether there was an entry to act on. -/
  | acted (yes : Bool)
  | unit
deriving DecidableEq, Repr

def serve (r : Registry V) : Request V → Answer V × Registry V
  | .insert s v => (.slot (r.get? s), r.insert s v)
  | .get s => (.slot (r.get? s), r)
  | .active s => (.value (r.active? s), r)
  | .markClosed s => (.acted (r.get? s).isSome, r.markClosed s)
  | .remove s => (.slot (r.get? s), r.remove s)
  | .removeClosed s =>
    (.acted (match r.get? s with | some .closed => true | _ => false), r.removeClosed s)
  | .clear => (.unit, r.clear)

end Registry

end ChannelMux
