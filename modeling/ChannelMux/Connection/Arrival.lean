import ChannelMux.Connection.Admission
import ChannelMux.Connection.Handshaking
import ChannelMux.Connection.Reading

/-! # Frames that arrive

Each frame that arrives belongs to a channel, is absorbed for a stream that was closed here, opens
a conversation, or is passed on to the next listener. Settings and announcements of the
connection's end concern all channels and are passed on as well.
-/

namespace ChannelMux

/-- The rule that DATA breaks on a channel, if it breaks one. -/
def Channel.dataViolation? (ch : Channel) (padding : Nat) : Option Violation :=
  if 0 < padding then some .paddedData
  else if ch.handshake.isPending then some .dataBeforeHandshake
  else if ch.inboundClosed then some .dataAfterEnd
  else none

namespace Connection

/-- A frame is absorbed. -/
def absorb (c : Connection) (f : Frame) : Connection := c.discard 1 f.payloadSize

/-! ## Frames of one channel -/

/-- Queue an item that has arrived, and deliver it if it is wanted. -/
def receive (c : Connection) (id : ChannelId) (ch : Channel) (item : Inbound) : Connection :=
  let c := { c with channels := c.channels.insert id (ch.receive item) }
  if ch.demand = .idle then c else c.drain id

def dataArrived (c : Connection) (id : ChannelId) (payload : Bytes) (padding : Nat)
    (endStream : Bool) : Connection :=
  match c.channels.get? id with
  | none => c
  | some ch =>
    match ch.dataViolation? padding with
    | some v => (c.discard 1 payload.length).failChannel id (.violation v)
    | none => c.receive id ch (.data payload endStream)

def headersArrived (c : Connection) (id : ChannelId) (h : HeaderBlock) (endStream : Bool) :
    Connection :=
  match c.channels.get? id with
  | none => c
  | some ch =>
    if ch.handshake = .requestSent then c.responseArrived id h endStream
    else if ¬ endStream ∨ ch.inboundClosed then
      c.failChannel id (.violation .unexpectedHeaders)
    else c.receive id ch .trailers

def resetArrived (c : Connection) (id : ChannelId) (reason : Reason) : Connection :=
  match c.channels.get? id with
  | none => c
  | some _ =>
    let c := c.updateChannel id fun ch => { ch with remoteReset := true }.noteInitiator .theirs
    let c := c.failParked id (.streamReset reason)
    (c.emit id (.remoteClosed (.reset reason))).close id .remote

/-- A frame for the stream of a channel. -/
def channelFrame (c : Connection) (id : ChannelId) (f : Frame) : Connection :=
  match f with
  | .data _ payload padding endStream => c.dataArrived id payload padding endStream
  | .headers _ h endStream => c.headersArrived id h endStream
  | .reset _ reason => c.resetArrived id reason
  | .priority _ p => c.emit id (.peerPriority p)
  | .windowUpdate .. => c
  | .unknown .. => c.absorb f
  | .settings _ | .goAway .. => c.forward f

/-! ## Frames of no channel -/

/-- A frame for a stream that is not registered. -/
def strayFrame (c : Connection) (f : Frame) : Connection :=
  match c.config.role, f with
  | .server, .headers stream h endStream =>
    match candidate? h with
    | some r => c.answerRequest stream r endStream
    | none => c.forward f
  | _, _ => c.forward f

/-! ## Frames of the connection -/

/-- Remember what the peer's settings say. The batch holds no more channels than there can be. -/
def noteSettings (c : Connection) (s : Settings) : Connection :=
  let c := { c with peer := { c.peer with
    settingsReceived := true
    extendedConnect := s.extendedConnect.getD c.peer.extendedConnect } }
  match s.maxStreams with
  | some n => { c with
      peer := { c.peer with maxStreams := some n }
      batch := c.batch.setCapacity (min c.config.batchCapacity n) }
  | none => c

def settingsArrived (c : Connection) (s : Settings) : Connection := (c.noteSettings s).startDeferred

/-- Tell a channel that the connection is ending, and close it if the peer has not processed it. -/
def announceEnd (last : StreamId) (reason : Reason) (c : Connection) (id : ChannelId) :
    Connection :=
  match c.channels.get? id with
  | none => c
  | some ch =>
    let c := c.emit id (.goAway last reason)
    if ch.stream = 0 then c.failHandshake id (.goAway reason)
    else if last < ch.stream then (c.emit id (.failed (.goAway reason))).close id .remote
    else c

def goAwayArrived (c : Connection) (last : StreamId) (reason : Reason) : Connection :=
  c.openChannels.foldl (announceEnd last reason) { c with goingAway := some reason }

/-- A frame has arrived. -/
def frameArrived (c : Connection) (f : Frame) : Connection :=
  let c := { c with reading := true }
  match f with
  | .settings s => (c.settingsArrived s).forward f
  | .goAway last reason _ => (c.goAwayArrived last reason).forward f
  | f =>
    match c.registry.get? f.stream with
    | some (.active id) => c.channelFrame id f
    | some .closed => c.absorb f
    | none => c.strayFrame f

/-- Something is wrong with a stream; without a channel for it, the fault is handed back. -/
def streamFailed (c : Connection) (stream : StreamId) (cause : Fault) : Outcome × Connection :=
  match c.registry.active? stream with
  | some id => (.done, c.failChannel id cause)
  | none => (.failed cause, c)

end Connection

end ChannelMux
