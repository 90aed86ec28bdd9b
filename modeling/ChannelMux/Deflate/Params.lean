import ChannelMux.Extension
import ChannelMux.Text.Quoted

/-! # Parameters of `permessage-deflate`

The four parameters of RFC 7692 as one element of an extension list states them. A parameter may
be left out; the client's window may also be mentioned without a size.
-/

namespace ChannelMux.Deflate

open Text

/-- The name of the extension, matched without regard to case. -/
def extensionName : String := "permessage-deflate"

/-- Window sizes are exponents of two between these bounds; the upper one is the default. -/
def minBits : Nat := 8
def maxBits : Nat := 15

inductive Parameter where
  | serverNoTakeover | clientNoTakeover | serverBits | clientBits
deriving DecidableEq, Repr

namespace Parameter

def all : List Parameter := [serverNoTakeover, clientNoTakeover, serverBits, clientBits]

def name : Parameter → String
  | serverNoTakeover => "server_no_context_takeover"
  | clientNoTakeover => "client_no_context_takeover"
  | serverBits => "server_max_window_bits"
  | clientBits => "client_max_window_bits"

def ofName? (s : String) : Option Parameter := all.find? (·.name = s)

end Parameter

/-- Why an element, or a response as a whole, is not acceptable. -/
inductive Fault where
  | misplaced (p : Parameter)
  | unknown (name : String)
  | bitsText (text : String)
  | bitsRange (bits : Nat)
  | elementCount (n : Nat)
  | unrequested (name : String)
  | serverBitsExceed (bits offered : Nat)
  | serverBitsIgnored
  | clientBitsBare
deriving DecidableEq, Repr

def Fault.message : Fault → String
  | misplaced p => "invalid or duplicate " ++ p.name
  | unknown name => "unknown permessage-deflate parameter " ++ quote name
  | bitsText text => "invalid window bits " ++ quote text
  | bitsRange bits => "window bits " ++ toString bits ++ " out of range (8-15)"
  | elementCount n => "expected exactly one extension in response, got " ++ toString n
  | unrequested name => "unrequested extension " ++ quote name
  | serverBitsExceed bits offered =>
    "server_max_window_bits " ++ toString bits ++ " exceeds offered " ++ toString offered
  | serverBitsIgnored => "server ignored requested server_max_window_bits"
  | clientBitsBare => "client_max_window_bits without value in response"

/-! ## Window sizes -/

/-- The number below 256 that a text of decimal digits stands for; a plus sign may precede it. -/
def octet? (cs : List Char) : Option Nat :=
  let digits := if cs.head? = some '+' then cs.tail else cs
  if digits ≠ [] ∧ digits.all Char.isDigit then
    let n := digits.foldl (fun n d => 10 * n + (d.toNat - '0'.toNat)) 0
    if n < 256 then some n else none
  else none

def bitsOfText (s : String) : Except Fault Nat :=
  match octet? s.toList with
  | none => .error (.bitsText s)
  | some n => if minBits ≤ n ∧ n ≤ maxBits then .ok n else .error (.bitsRange n)

/-! ## Parameter lists -/

/-- What an element says about the client's window. -/
inductive ClientWindow where
  | absent
  /-- Mentioned without a size: the client lets the server choose one. -/
  | bare
  | bits (n : Nat)
deriving DecidableEq, Repr

structure Params where
  serverNoTakeover : Bool := false
  clientNoTakeover : Bool := false
  serverBits : Option Nat := none
  clientWindow : ClientWindow := .absent
deriving DecidableEq, Repr

namespace Params

/-- Take in one more parameter, which must not have occurred before. -/
def add (ps : Params) (p : Extension.Param) : Except Fault Params :=
  match Parameter.ofName? p.name with
  | none => .error (.unknown p.name)
  | some .serverNoTakeover =>
    if p.value.isSome || ps.serverNoTakeover then .error (.misplaced .serverNoTakeover)
    else .ok { ps with serverNoTakeover := true }
  | some .clientNoTakeover =>
    if p.value.isSome || ps.clientNoTakeover then .error (.misplaced .clientNoTakeover)
    else .ok { ps with clientNoTakeover := true }
  | some .serverBits =>
    match ps.serverBits, p.value with
    | none, some v => (bitsOfText v).map fun n => { ps with serverBits := some n }
    | _, _ => .error (.misplaced .serverBits)
  | some .clientBits =>
    match ps.clientWindow, p.value with
    | .absent, none => .ok { ps with clientWindow := .bare }
    | .absent, some v => (bitsOfText v).map fun n => { ps with clientWindow := .bits n }
    | _, _ => .error (.misplaced .clientBits)

/-- Read a parameter list from the left; the first fault decides. -/
def ofList (ps : List Extension.Param) : Except Fault Params := ps.foldlM add {}

@[simp] theorem ofList_nil : ofList [] = .ok {} := rfl

end Params

end ChannelMux.Deflate
