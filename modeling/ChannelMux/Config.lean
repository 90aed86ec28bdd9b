import ChannelMux.Deflate.Terms
import ChannelMux.Fault

/-! # Configuration

What a side of the connection is told before it starts. Durations are in milliseconds.
-/

namespace ChannelMux

inductive Role where
  | client | server
deriving DecidableEq, Repr

/-- Only a client masks what it sends (RFC 6455). -/
def Role.masks (r : Role) : Bool := r = .client

/-- What the framing layer of each channel is told. -/
structure Framing where
  maxFrameSize : Nat
  validateUtf8 : Bool
  maskPayload : Bool
deriving DecidableEq, Repr

def Framing.forRole (r : Role) : Framing := ⟨16 * 1024 * 1024, true, r.masks⟩

structure Config where
  role : Role := .client
  framing : Framing := .forRole .client
  /-- A channel turns unwritable when its pending bytes rise above this mark. -/
  highWatermark : Nat := 64 * 1024
  /-- A channel turns writable again when its pending bytes fall below this mark. -/
  lowWatermark : Nat := 32 * 1024
  /-- How long late frames of a stream that was closed here are absorbed. -/
  grace : Nat := 10000
  /-- How many channels may wait for a shared completion of their reads. -/
  batchCapacity : Nat := 16
  /-- How many items one read delivers. -/
  messagesPerRead : Nat := 16
  autoRead : Bool := true
  /-- Whether a failed write closes its channel, or only the channel's sending side. -/
  closeOnWriteFailure : Bool := true
  handshakeTimeout : Option Nat := some 15000
  authority : String := "localhost"
  /-- What a server speaks, the most preferred first. -/
  subprotocols : List String := []
  /-- The paths a server accepts; any if there are none. -/
  paths : List String := []
  /-- The origins a server accepts; any if there are none. -/
  origins : List String := []
  compression : Option Deflate.Terms := none
deriving DecidableEq, Repr

namespace Config

/-- What every connection relies on; the first broken rule is reported. -/
def validate (c : Config) : Except ConfigFault Unit :=
  if c.highWatermark = 0 then .error .highWatermarkZero
  else if c.highWatermark < c.lowWatermark then .error .lowAboveHigh
  else if c.batchCapacity = 0 then .error .batchCapacityZero
  else if c.messagesPerRead = 0 then .error .messagesPerReadZero
  else .ok ()

/-! ## Choices -/

/-- One choice made while a configuration is put together. -/
inductive Choice where
  | role (r : Role)
  | maxFrameSize (n : Nat)
  | validateUtf8 (on : Bool)
  | maskPayload (on : Bool)
  | watermarks (low high : Nat)
  | grace (ms : Nat)
  | batchCapacity (n : Nat)
  | messagesPerRead (n : Nat)
  | autoRead (on : Bool)
  | closeOnWriteFailure (on : Bool)
  | handshakeTimeout (ms : Option Nat)
  | authority (name : String)
  | subprotocols (names : List String)
  | paths (paths : List String)
  | origins (origins : List String)
  | compression (terms : Deflate.Terms)
deriving DecidableEq, Repr

/-- Choosing a role also sets masking to what the role requires. -/
def choose (c : Config) : Choice → Config
  | .role r => { c with role := r, framing := { c.framing with maskPayload := r.masks } }
  | .maxFrameSize n => { c with framing := { c.framing with maxFrameSize := n } }
  | .validateUtf8 on => { c with framing := { c.framing with validateUtf8 := on } }
  | .maskPayload on => { c with framing := { c.framing with maskPayload := on } }
  | .watermarks low high => { c with lowWatermark := low, highWatermark := high }
  | .grace ms => { c with grace := ms }
  | .batchCapacity n => { c with batchCapacity := n }
  | .messagesPerRead n => { c with messagesPerRead := n }
  | .autoRead on => { c with autoRead := on }
  | .closeOnWriteFailure on => { c with closeOnWriteFailure := on }
  | .handshakeTimeout ms => { c with handshakeTimeout := ms }
  | .authority name => { c with authority := name }
  | .subprotocols names => { c with subprotocols := names }
  | .paths paths => { c with paths := paths }
  | .origins origins => { c with origins := origins }
  | .compression terms => { c with compression := some terms }

def ofChoices (cs : List Choice) : Config := cs.foldl choose {}

@[simp] theorem ofChoices_nil : ofChoices [] = {} := rfl
@[simp] theorem choose_role_role (c : Config) (r : Role) : (c.choose (.role r)).role = r := rfl

/-- A valid configuration has positive limits and ordered watermarks. -/
theorem validate_eq_ok_iff {c : Config} : c.validate = .ok () ↔
    0 < c.highWatermark ∧ c.lowWatermark ≤ c.highWatermark ∧ 0 < c.batchCapacity ∧
      0 < c.messagesPerRead := by
  unfold validate
  repeat' split
  all_goals simp
  all_goals omega

end Config

end ChannelMux
