import ChannelMux.Deflate.Params

/-! # Terms of compression

`Terms` are what one side prefers or both sides agreed on. A client writes its terms as an offer,
a server answers an offer by `negotiate`, and the client checks the answer by `accept`.
-/

namespace ChannelMux.Deflate

open Text

structure Terms where
  serverBits : Nat := maxBits
  clientBits : Nat := maxBits
  serverNoTakeover : Bool := false
  clientNoTakeover : Bool := false
deriving DecidableEq, Repr

namespace Terms

/-- Small windows, forgotten after every message. -/
def lowMemory : Terms := ⟨10, 10, true, true⟩

/-- A window that is not given a size has the default one. -/
def ofParams (ps : Params) : Terms where
  serverBits := ps.serverBits.getD maxBits
  clientBits := match ps.clientWindow with
    | .bits n => n
    | .absent | .bare => maxBits
  serverNoTakeover := ps.serverNoTakeover
  clientNoTakeover := ps.clientNoTakeover

def ofParamList (ps : List Extension.Param) : Except Fault Terms := (Params.ofList ps).map ofParams

/-! ## Elements that state terms -/

def flagParam (p : Parameter) (set : Bool) : List Extension.Param :=
  if set then [⟨p.name, none⟩] else []

/-- A window at its default size is not mentioned. -/
def bitsParam (p : Parameter) (bits : Nat) : List Extension.Param :=
  if bits < maxBits then [⟨p.name, some (toString bits)⟩] else []

def sharedParams (t : Terms) : List Extension.Param :=
  flagParam .serverNoTakeover t.serverNoTakeover ++
    flagParam .clientNoTakeover t.clientNoTakeover ++ bitsParam .serverBits t.serverBits

/-- A client always mentions its window, so that the server may limit it. -/
def offer (t : Terms) : Extension :=
  ⟨extensionName, t.sharedParams ++
    if t.clientBits < maxBits then bitsParam .clientBits t.clientBits
    else [⟨Parameter.clientBits.name, none⟩]⟩

def response (t : Terms) : Extension :=
  ⟨extensionName, t.sharedParams ++ bitsParam .clientBits t.clientBits⟩

def offerHeader (t : Terms) : String := t.offer.render

def responseHeader (t : Terms) : String := t.response.render

/-! ## Negotiation -/

/-- The terms on which a server preferring `t` grants an offer. -/
def grant (t : Terms) (offered : Params) : Terms where
  serverBits := match offered.serverBits with
    | some n => min n t.serverBits
    | none => t.serverBits
  clientBits := match offered.clientWindow with
    | .bits n => min n t.clientBits
    | .bare => min maxBits t.clientBits
    | .absent => maxBits
  serverNoTakeover := offered.serverNoTakeover || t.serverNoTakeover
  clientNoTakeover := offered.clientNoTakeover || t.clientNoTakeover

/-- The parameters of an element that offers compression in due form. -/
def offered? (e : Extension) : Option Params :=
  if sameIgnoringCase e.name extensionName then (Params.ofList e.params).toOption else none

/-- A server grants the first offer in due form and passes over the others. -/
def negotiate (t : Terms) (header : String) : Option Terms :=
  (((Extension.parseList header).filterMap offered?).head?).map t.grant

/-- The server's window in a response to the offer `t`. -/
def acceptServerBits (t : Terms) : Option Nat → Except Fault Nat
  | some n => if t.serverBits < n then .error (.serverBitsExceed n t.serverBits) else .ok n
  | none => if t.serverBits < maxBits then .error .serverBitsIgnored else .ok maxBits

/-- The client's window in a response to the offer `t`. -/
def acceptClientBits (t : Terms) : ClientWindow → Except Fault Nat
  | .bare => .error .clientBitsBare
  | .bits n => .ok n
  | .absent => .ok t.clientBits

/-- A client that offered `t` accepts a response of exactly one element, the one it asked for. -/
def accept (t : Terms) (header : String) : Except Fault Terms :=
  match Extension.parseList header with
  | [e] => do
    if ¬ sameIgnoringCase e.name extensionName then throw (.unrequested e.name)
    let ps ← Params.ofList e.params
    let serverBits ← t.acceptServerBits ps.serverBits
    let clientBits ← t.acceptClientBits ps.clientWindow
    return { serverBits, clientBits, serverNoTakeover := ps.serverNoTakeover,
             clientNoTakeover := ps.clientNoTakeover || t.clientNoTakeover }
  | es => throw (.elementCount es.length)

@[simp] theorem grant_serverNoTakeover (t : Terms) (p : Params) :
    (t.grant p).serverNoTakeover = (p.serverNoTakeover || t.serverNoTakeover) := rfl
@[simp] theorem grant_clientNoTakeover (t : Terms) (p : Params) :
    (t.grant p).clientNoTakeover = (p.clientNoTakeover || t.clientNoTakeover) := rfl

end Terms

end ChannelMux.Deflate
