import ChannelMux.Fault

/-! # The encoder of the connection

The sending half of the HTTP/2 connection, shared by all channels, together with the next listener,
which receives what is no channel's business. Everything handed to either is recorded in one log.
An encoder is known by its answers, which may depend on all that it was given before.
-/

namespace ChannelMux

/-- Numbers DATA writes, so that their fate can be reported. -/
abbrev WriteId := Nat

/-- Something handed to the encoder or to the next listener. -/
inductive WireCall where
  /-- Reserve the stream that is next. -/
  | reserve (stream : StreamId)
  | headers (stream : StreamId) (block : HeaderBlock) (endStream : Bool)
  | data (write : WriteId) (stream : StreamId) (payload : Bytes) (endStream : Bool)
  | reset (stream : StreamId) (reason : Reason)
  | priority (stream : StreamId) (priority : Priority)
  | flush
  /-- Bytes of a stream have been delivered, so its window may grow. -/
  | consume (stream : StreamId) (bytes : Nat)
  /-- Pass a frame on to the next listener. -/
  | forward (frame : Frame)
  /-- Tell the next listener that the connection is gone. -/
  | inactive
deriving DecidableEq, Repr

/-- A call and the fault with which it was refused, if it was. -/
structure WireEntry where
  call : WireCall
  fault : Option WriteFault
deriving DecidableEq, Repr

structure Encoder where
  /-- Whether the connection can carry frames. -/
  active : List WireEntry → Bool
  /-- Whether the connection has room for more. -/
  writable : List WireEntry → Bool
  /-- The stream that would be reserved next. -/
  nextStream : List WireEntry → StreamId
  /-- The fault with which a call is refused. -/
  fault : List WireEntry → WireCall → Option WriteFault

end ChannelMux
