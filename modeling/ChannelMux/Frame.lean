import ChannelMux.Header

/-! # HTTP/2 frames

Frames as the connection layer hands them over, already decoded.
-/

namespace ChannelMux

/-- Numbers streams; zero is the connection itself. -/
abbrev StreamId := Nat

/-- An HTTP/2 error code. -/
structure Reason where
  code : Nat
deriving DecidableEq, Repr

namespace Reason

def cancel : Reason := ⟨8⟩

/-- Codes have names up to thirteen; any other is shown in hexadecimal. -/
def name (r : Reason) : String :=
  match ["NO_ERROR", "PROTOCOL_ERROR", "INTERNAL_ERROR", "FLOW_CONTROL_ERROR", "SETTINGS_TIMEOUT",
      "STREAM_CLOSED", "FRAME_SIZE_ERROR", "REFUSED_STREAM", "CANCEL", "COMPRESSION_ERROR",
      "CONNECT_ERROR", "ENHANCE_YOUR_CALM", "INADEQUATE_SECURITY", "HTTP_1_1_REQUIRED"][r.code]? with
  | some name => name
  | none => "Reason(" ++ String.ofList (Nat.toDigits 16 r.code) ++ ")"

end Reason

/-- Where a stream hangs in the dependency tree. -/
structure Priority where
  dependency : StreamId
  weight : Nat
  exclusive : Bool
deriving DecidableEq, Repr

/-- A weight under the connection itself. -/
def Priority.ofWeight (weight : Nat) : Priority := ⟨0, weight, false⟩

/-- The settings that matter to channels; a frame may state either or both. -/
structure Settings where
  maxStreams : Option Nat := none
  extendedConnect : Option Bool := none
deriving DecidableEq, Repr

/-- The number under which SETTINGS announce extended CONNECT. -/
def Settings.extendedConnectId : Nat := 8

inductive Frame where
  | data (stream : StreamId) (payload : Bytes) (padding : Nat) (endStream : Bool)
  | headers (stream : StreamId) (block : HeaderBlock) (endStream : Bool)
  | reset (stream : StreamId) (reason : Reason)
  | priority (stream : StreamId) (priority : Priority)
  | windowUpdate (stream : StreamId) (increment : Nat)
  | settings (settings : Settings)
  | goAway (last : StreamId) (reason : Reason) (debug : Bytes)
  | unknown (stream : StreamId) (kind flags : Nat) (payload : Bytes)
deriving DecidableEq, Repr

namespace Frame

def stream : Frame → StreamId
  | data s .. | headers s .. | reset s _ | priority s _ | windowUpdate s _ | unknown s .. => s
  | settings _ | goAway .. => 0

/-- The payload bytes a frame holds. -/
def payloadSize : Frame → Nat
  | data _ p .. | goAway _ _ p | unknown _ _ _ p => p.length
  | headers .. | reset .. | priority .. | windowUpdate .. | settings _ => 0

def kindName : Frame → String
  | data .. => "DATA"
  | headers .. => "HEADERS"
  | reset .. => "RST_STREAM"
  | priority .. => "PRIORITY"
  | windowUpdate .. => "WINDOW_UPDATE"
  | settings _ => "SETTINGS"
  | goAway .. => "GOAWAY"
  | unknown .. => "UNKNOWN"

end Frame

end ChannelMux
