import ChannelMux.Connect.Request
import ChannelMux.Connect.Response
import ChannelMux.Connection.Closing

/-! # Admitting conversations

The server's half of an extended CONNECT: which requests are admitted, and with which subprotocol.
An admitted request gets a channel, and a refused one a status and nothing else.
-/

namespace ChannelMux

open Connect Text

namespace Config

/-- The most preferred subprotocol that is offered. -/
def selectSubprotocol? (c : Config) (offered : List String) : Option String :=
  c.subprotocols.find? fun own => offered.any (sameIgnoringCase · own)

/-- Whether a request comes from an origin that is allowed. -/
def allowsOrigin (c : Config) (origin : Option String) : Bool :=
  c.origins.isEmpty || origin.any fun o => c.origins.any (sameIgnoringCase · o)

def servesPath (c : Config) (path : String) : Bool := c.paths.isEmpty || c.paths.contains path

/-- The selected subprotocol, if any, or the status with which a request is refused. -/
def verdict (c : Config) (r : Request) (endStream : Bool) : Except Nat (Option String) :=
  if endStream then .error 400
  else match r.refusal? with
    | some status => .error status
    | none =>
      if ¬ c.servesPath r.pathOnly then .error 404
      else if ¬ c.allowsOrigin r.origin then .error 403
      else if r.subprotocolList = [] then .ok none
      else match c.selectSubprotocol? r.subprotocolList with
        | some selected => .ok (some selected)
        | none => .error 400

/-- The terms of compression on which an offer is granted. -/
def grantCompression (c : Config) (offer : Option String) : Option Deflate.Terms :=
  match c.compression, offer with
  | some own, some header => own.negotiate header
  | _, _ => none

end Config

namespace Connection

/-- The request that a block of headers makes, if it asks for a conversation. -/
def candidate? (h : HeaderBlock) : Option Request := (Request.ofHeaders? h).filter (·.isWebSocket)

def refuse (c : Connection) (stream : StreamId) (status : Nat) : Connection :=
  (c.submit none (.headers stream (Response.refusing status).toHeaders true)).2.flush

/-- Make a channel for an admitted request and answer it; if the answer is not taken, the channel
is forgotten. -/
def accept (c : Connection) (stream : StreamId) (path : String) (subprotocol : Option String)
    (compression : Option Deflate.Terms) : Connection :=
  let (id, c) := c.allocate path
  let c := { c.updateChannel id (fun ch =>
      { ch with stream := stream, subprotocol := subprotocol, compression := compression }) with
    registry := c.registry.insert stream id }
  let response := Response.accepting subprotocol (compression.map (·.responseHeader))
  match c.submit (some id) (.headers stream response.toHeaders false) with
  | (some _, c) =>
    { c with registry := c.registry.remove stream, channels := c.channels.erase id }
  | (none, c) =>
    { c.flush with stats := { c.stats with accepted := c.stats.accepted + 1 } }.emit id
      (.opened stream path subprotocol)

/-- Answer a request. -/
def answerRequest (c : Connection) (stream : StreamId) (r : Request) (endStream : Bool) :
    Connection :=
  match c.config.verdict r endStream with
  | .error status => c.refuse stream status
  | .ok subprotocol =>
    c.accept stream r.path subprotocol (c.config.grantCompression r.extensions)

end Connection

end ChannelMux
