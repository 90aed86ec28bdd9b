import ChannelMux.Deflate.Params
import ChannelMux.Frame

/-! # Faults

Everything that can go wrong, as causes. A cause may also come from outside, in a caller's own
words; those are the `stated` ones. `Fault.message` gives the wording of each.
-/

namespace ChannelMux

open Text

/-- What the connection's encoder reports when it cannot take a frame. -/
inductive WriteFault where
  | streamClosed (stream : StreamId)
  | connectionClosed
  | idsExhausted
  | stated (text : String)
deriving DecidableEq, Repr

def WriteFault.message : WriteFault → String
  | streamClosed s => "stream " ++ toString s ++ " already closed"
  | connectionClosed => "connection closed"
  | idsExhausted => "stream ids exhausted"
  | stated text => text

/-- Why an extended CONNECT did not lead to a conversation. -/
inductive HandshakeFault where
  | statusMissing
  | statusUnexpected (status : Nat)
  | endOfStream
  | subprotocol (name : String)
  | timedOut
  | notEnabled
  | stated (text : String)
deriving DecidableEq, Repr

def HandshakeFault.message : HandshakeFault → String
  | statusMissing => "response missing :status"
  | statusUnexpected status => "unexpected response status " ++ toString status
  | endOfStream => "200 response with end of stream"
  | subprotocol name => "unsupported subprotocol " ++ quote name
  | timedOut => "timed out"
  | notEnabled => "peer does not enable extended CONNECT"
  | stated text => text

/-- How a peer breaks the rules of one stream. -/
inductive Violation where
  | paddedData
  | dataBeforeHandshake
  | dataAfterEnd
  | unexpectedHeaders
  | stated (text : String)
deriving DecidableEq, Repr

def Violation.message : Violation → String
  | paddedData => "padded DATA frame"
  | dataBeforeHandshake => "DATA before handshake completed"
  | dataAfterEnd => "DATA after end of stream"
  | unexpectedHeaders => "unexpected HEADERS"
  | stated text => text

inductive ExtensionFault where
  | deflate (cause : Deflate.Fault)
  | unrequested (header : String)
  | stated (text : String)
deriving DecidableEq, Repr

def ExtensionFault.message : ExtensionFault → String
  | deflate cause => cause.message
  | unrequested header => "unrequested extensions " ++ quote header
  | stated text => text

inductive StateFault where
  | completionConsumed
  | notClient
  | stated (text : String)
deriving DecidableEq, Repr

def StateFault.message : StateFault → String
  | completionConsumed => "completion already consumed"
  | notClient => "only a client opens streams"
  | stated text => text

inductive ConfigFault where
  | highWatermarkZero
  | lowAboveHigh
  | batchCapacityZero
  | messagesPerReadZero
  | stated (text : String)
deriving DecidableEq, Repr

def ConfigFault.message : ConfigFault → String
  | highWatermarkZero => "high watermark must be positive"
  | lowAboveHigh => "low watermark above high watermark"
  | batchCapacityZero => "read complete batch capacity must be positive"
  | messagesPerReadZero => "max messages per read must be positive"
  | stated text => text

inductive Fault where
  | handshake (cause : HandshakeFault)
  | violation (cause : Violation)
  | streamReset (reason : Reason)
  | goAway (reason : Reason)
  | connectionClosed
  | channelClosed
  | write (cause : WriteFault)
  | extension (cause : ExtensionFault)
  | weight (weight : Nat)
  | state (cause : StateFault)
  | config (cause : ConfigFault)
deriving DecidableEq, Repr

namespace Fault

def message : Fault → String
  | handshake cause => "handshake failed: " ++ cause.message
  | violation cause => "stream protocol error: " ++ cause.message
  | streamReset reason => "stream reset by peer: " ++ reason.name
  | goAway reason => "connection going away: " ++ reason.name
  | connectionClosed => "connection closed"
  | channelClosed => "channel closed"
  | write cause => "write failed: " ++ cause.message
  | extension cause => "extension negotiation failed: " ++ cause.message
  | weight n => "invalid priority weight: " ++ toString n
  | state cause => "invalid state: " ++ cause.message
  | config cause => "invalid config: " ++ cause.message

/-- Faults that end every channel of the connection. -/
def isConnectionFatal : Fault → Bool
  | connectionClosed | goAway _ => true
  | _ => false

end Fault

end ChannelMux
