import ChannelMux.Fault

/-! # Extended CONNECT responses

A response of status 200 that leaves the stream open accepts the conversation. `Response.ofHeaders`
reads a response as the client that asked for it.
-/

namespace ChannelMux.Connect

open Text

structure Response where
  status : Nat
  protocol : Option String := none
  extensions : Option String := none
deriving DecidableEq, Repr

namespace Response

def ok : Response := ⟨200, none, none⟩

def accepting (protocol extensions : Option String) : Response := ⟨200, protocol, extensions⟩

def refusing (status : Nat) : Response := ⟨status, none, none⟩

def toHeaders (r : Response) : HeaderBlock :=
  HeaderBlock.ofStatus r.status
    |>.putText HeaderBlock.subprotocolName r.protocol
    |>.putText HeaderBlock.extensionsName r.extensions

/-- A server may select one entry of the list that was asked for, or nothing. -/
def selects (selected : String) (requested : Option String) : Bool :=
  match requested with
  | none => false
  | some list => (split ',' list.toList).any fun entry =>
      sameIgnoringCase (String.ofList (trim entry)) (String.ofList (trim selected.toList))

/-- Read a response; `requested` is the list of subprotocols that was asked for. -/
def ofHeaders (h : HeaderBlock) (endStream : Bool) (requested : Option String) :
    Except HandshakeFault Response :=
  match h.pseudo.status with
  | none => .error .statusMissing
  | some status =>
    if status ≠ 200 then .error (.statusUnexpected status)
    else if endStream then .error .endOfStream
    else
      let response := accepting (h.get? HeaderBlock.subprotocolName)
        (h.get? HeaderBlock.extensionsName)
      match response.protocol with
      | none => .ok response
      | some selected =>
        if selects selected requested then .ok response else .error (.subprotocol selected)

end Response

end ChannelMux.Connect
