import ChannelMux.Header
import ChannelMux.Text.Blank
import ChannelMux.Text.Pieces

/-! # Extended CONNECT requests

A conversation begins with a HEADERS frame of method `CONNECT` that names a protocol (RFC 8441).
`Request.toHeaders` writes such a request and `Request.ofHeaders?` reads one.
-/

namespace ChannelMux.Connect

open Text

/-- The protocol name, matched without regard to case. -/
def websocket : String := "websocket"

/-- The only version of the protocol in use. -/
def version13 : String := "13"

structure Request where
  path : String
  authority : String
  scheme : String
  protocol : Option String := none
  subprotocols : Option String := none
  extensions : Option String := none
  origin : Option String := none
  version : Option String := none
deriving DecidableEq, Repr

namespace Request

/-! ## Headers -/

/-- A CONNECT that names no protocol asks for a tunnel and is not an extended one. -/
def ofHeaders? (h : HeaderBlock) : Option Request :=
  if h.pseudo.method = some "CONNECT" then
    h.pseudo.protocol.map fun protocol => {
      path := h.pseudo.path.getD ""
      authority := h.pseudo.authority.getD ""
      scheme := h.pseudo.scheme.getD ""
      protocol := some protocol
      subprotocols := h.get? HeaderBlock.subprotocolName
      extensions := h.get? HeaderBlock.extensionsName
      origin := h.get? HeaderBlock.originName
      version := h.get? HeaderBlock.versionName }
  else none

def pseudo (r : Request) : PseudoHeaders where
  method := some "CONNECT"
  scheme := some r.scheme
  authority := some r.authority
  path := some r.path
  protocol := r.protocol

def toHeaders (r : Request) : HeaderBlock :=
  { pseudo := r.pseudo : HeaderBlock }
    |>.putText HeaderBlock.versionName r.version
    |>.putText HeaderBlock.subprotocolName r.subprotocols
    |>.putText HeaderBlock.extensionsName r.extensions
    |>.putText HeaderBlock.originName r.origin

/-- The request for a path on a connection; the empty path stands for the root. -/
def forPath (authority path : String) (subprotocol : Option String) : Request where
  path := if path = "" then "/" else path
  authority := authority
  scheme := "https"
  protocol := some websocket
  subprotocols := subprotocol
  version := some version13

/-! ## Contents -/

def isWebSocket (r : Request) : Bool := r.protocol.any (sameIgnoringCase · websocket)

/-- The elements of a comma-separated list that are not blank. -/
def offered (list : String) : List String :=
  (((split ',' list.toList).map trim).filter (· ≠ [])).map String.ofList

def subprotocolList (r : Request) : List String := (r.subprotocols.map offered).getD []

/-- The status with which a malformed request is refused. -/
def refusal? (r : Request) : Option Nat :=
  if ¬ r.isWebSocket then some 501
  else if r.path = "" ∨ r.scheme = "" then some 400
  else if r.version.any (· ≠ version13) then some 400
  else none

/-- The path without its query. -/
def pathOnly (r : Request) : String := String.ofList (pieces '?' r.path.toList).1

@[simp] theorem isWebSocket_forPath (authority path : String) (subprotocol : Option String) :
    (forPath authority path subprotocol).isWebSocket = true := by
  simp [forPath, isWebSocket]

end Request

end ChannelMux.Connect
