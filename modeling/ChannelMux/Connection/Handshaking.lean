import ChannelMux.Connect.Request
import ChannelMux.Connect.Response
import ChannelMux.Connection.Writing

/-! # Opening conversations

The client's half of an extended CONNECT. A channel exists before its stream does: the request goes
out once the peer has said that it knows extended CONNECT, and what is written before the answer
arrives is parked and sent afterwards in the same order.
-/

namespace ChannelMux.Connection

open Connect

/-- End a handshake: fail what is parked, report the cause and reset the stream. -/
def failHandshake (c : Connection) (id : ChannelId) (cause : Fault) : Connection :=
  match c.channels.get? id with
  | none => c
  | some ch => if ch.closed then c else (c.failParked id cause).failChannel id cause

/-! ## Requests -/

/-- The request that asks for a channel's conversation. -/
def requestFor (c : Connection) (ch : Channel) : Request :=
  { Request.forPath c.config.authority ch.path ch.requested with
    extensions := c.config.compression.map (·.offerHeader) }

/-- Send a weight that was set before there was a stream; a refusal is passed over. -/
def sendCachedWeight (c : Connection) (id : ChannelId) (stream : StreamId) :
    Option Nat → Connection
  | none => c
  | some weight => (c.sendPriority id stream weight).2

/-- Give a channel a stream and enter it in the registry. -/
def assignStream (c : Connection) (id : ChannelId) (stream : StreamId) : Connection :=
  { c.updateChannel id (fun ch => { ch with stream := stream, cachedWeight := none }) with
    registry := c.registry.insert stream id }

/-- Reserve a stream for a channel and send its request. -/
def startHandshake (c : Connection) (id : ChannelId) : Connection :=
  match c.reserve id with
  | (.error f, c) => c.failHandshake id (.write f)
  | (.ok stream, c) =>
    match c.channels.get? id with
    | none => c
    | some ch =>
      let c := c.assignStream id stream
      match c.submit (some id) (.headers stream (c.requestFor ch).toHeaders false) with
      | (some f, c) => c.failHandshake id (.write f)
      | (none, c) =>
        let c := c.updateChannel id fun ch => { ch with handshake := .requestSent }
        (c.sendCachedWeight id stream ch.cachedWeight).flush

def isAwaitingSettings (c : Connection) (id : ChannelId) : Bool :=
  (c.channels.get? id).any fun ch => ch.handshake = .awaitingSettings

/-- Send a request that waited for the peer's settings, or fail it if they do not allow it. -/
def decideDeferred (c : Connection) (id : ChannelId) : Connection :=
  if c.peer.extendedConnect then c.startHandshake id
  else c.failHandshake id (.handshake .notEnabled)

/-- The peer's settings have arrived: decide on every request that waited for them. -/
def startDeferred (c : Connection) : Connection :=
  (c.openChannels.filter c.isAwaitingSettings).foldl decideDeferred c

/-- Make a channel that asks for a conversation, and arm its timeout. -/
def addAsking (c : Connection) (path : String) (subprotocol : Option String) :
    ChannelId × Connection :=
  let (id, c) := c.allocate path
  let c := c.updateChannel id fun ch => { ch with requested := subprotocol }
  let c := match c.config.handshakeTimeout with
    | some ms => { c with timers := c.timers.arm (c.clock + ms) (.handshakeTimeout id) }
    | none => c
  (id, { c with stats := { c.stats with opened := c.stats.opened + 1 } })

/-- Open a channel; its request is sent at once if the peer's settings have arrived. -/
def openStream (c : Connection) (path : String) (subprotocol : Option String) :
    Except Fault ChannelId × Connection :=
  if c.config.role ≠ .client then (.error (.state .notClient), c)
  else match c.goingAway with
    | some reason => (.error (.goAway reason), c)
    | none =>
      if ¬ c.isActive then (.error .connectionClosed, c)
      else if c.peer.settingsReceived && !c.peer.extendedConnect then
        (.error (.handshake .notEnabled), c)
      else
        let (id, c) := c.addAsking path subprotocol
        (.ok id, if c.peer.settingsReceived then c.startHandshake id else c)

/-! ## Responses -/

/-- The terms of compression that a response states. -/
def acceptExtensions (c : Connection) :
    Option String → Except ExtensionFault (Option Deflate.Terms)
  | none => .ok none
  | some header =>
    match c.config.compression with
    | none => .error (.unrequested header)
    | some offer =>
      match offer.accept header with
      | .ok terms => .ok (some terms)
      | .error f => .error (.deflate f)

/-- Send what was parked; if that closes the channel, the rest fails. -/
def replay (id : ChannelId) (stream : StreamId) : List (Bytes × Ticket) → Connection → Connection
  | [], c => c
  | w :: ws, c =>
    replay id stream ws <|
      if c.isOpen id then c.sendData id stream w.1 w.2 else c.resolve w.2 (.failed .channelClosed)

/-- The conversation is accepted. -/
def completeHandshake (c : Connection) (id : ChannelId) (response : Response)
    (compression : Option Deflate.Terms) : Connection :=
  match c.channels.get? id with
  | none => c
  | some ch =>
    let (writes, parked) := ch.parked.take
    let c := c.updateChannel id fun ch =>
      { ch with
        handshake := .complete
        subprotocol := response.protocol
        compression := compression
        parked := parked }
    let c := { c with timers := c.timers.cancel (.handshakeTimeout id) }
    let c := replay id ch.stream (writes.getD []) c
    (c.flushChannel id).emit id (.handshakeCompleted response.protocol response.extensions)

/-- The answer to a channel's request has arrived. -/
def responseArrived (c : Connection) (id : ChannelId) (h : HeaderBlock) (endStream : Bool) :
    Connection :=
  match c.channels.get? id with
  | none => c
  | some ch =>
    match Response.ofHeaders h endStream ch.requested with
    | .error f => c.failHandshake id (.handshake f)
    | .ok response =>
      match c.acceptExtensions response.extensions with
      | .error f => c.failHandshake id (.extension f)
      | .ok compression => c.completeHandshake id response compression

end ChannelMux.Connection
