import ChannelMux.Fault
import ChannelMux.ReadBatch

/-! # Events

What the application learns about its channels.
-/

namespace ChannelMux

/-- How the peer ended a stream. -/
inductive RemoteClose where
  | reset (reason : Reason)
  | endOfStream
  | connectionClosed
deriving DecidableEq, Repr

inductive Happening where
  /-- A server accepted the conversation. -/
  | opened (stream : StreamId) (path : String) (subprotocol : Option String)
  | read (data : Bytes)
  | readComplete
  | writability (writable : Bool)
  | remoteClosed (how : RemoteClose)
  | goAway (last : StreamId) (reason : Reason)
  /-- A weight that was asked for here has been sent. -/
  | priorityApplied (weight : Nat)
  | peerPriority (priority : Priority)
  /-- A server accepted the conversation that was asked for here. -/
  | handshakeCompleted (subprotocol extensions : Option String)
  | failed (cause : Fault)
  | inactive
  | unregistered
deriving DecidableEq, Repr

structure Event where
  channel : ChannelId
  what : Happening
deriving DecidableEq, Repr

end ChannelMux
