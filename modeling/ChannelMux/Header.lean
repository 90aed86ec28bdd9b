/-! # Header blocks

A decoded block of headers: the pseudo-headers that HTTP/2 defines, and fields with names in lower
case. Values are bytes. Any text free of control characters can be written as a value, in UTF-8;
only visible ASCII and the tab can be read back as text.
-/

namespace ChannelMux

abbrev Bytes := List UInt8

/-! ## Field values as text -/

/-- The bytes a field value may hold: none of ASCII's control characters but the tab. -/
def isFieldByte (b : UInt8) : Bool := (0x20 ≤ b && b ≠ 0x7f) || b = 0x09

/-- The bytes that can be read as text: visible ASCII, the space and the tab. -/
def isTextByte (b : UInt8) : Bool := (0x20 ≤ b && b ≤ 0x7e) || b = 0x09

def utf8 (s : String) : Bytes := s.toList.flatMap String.utf8EncodeChar

def textOfField? (bs : Bytes) : Option String :=
  if bs.all isTextByte then some (String.ofList (bs.map fun b => Char.ofNat b.toNat)) else none

def fieldOfText? (s : String) : Option Bytes :=
  if (utf8 s).all isFieldByte then some (utf8 s) else none

/-! ## Blocks -/

structure PseudoHeaders where
  method : Option String := none
  scheme : Option String := none
  authority : Option String := none
  path : Option String := none
  protocol : Option String := none
  status : Option Nat := none
deriving DecidableEq, Repr

structure HeaderBlock where
  pseudo : PseudoHeaders := {}
  fields : List (String × Bytes) := []
deriving DecidableEq, Repr

namespace HeaderBlock

/-- A block that carries only a status. -/
def ofStatus (status : Nat) : HeaderBlock := { pseudo := { status := some status } }

def lowerName (name : String) : String := String.ofList (name.toList.map Char.toLower)

/-- Append a value under a name, which keeps the values it has. -/
def append (h : HeaderBlock) (name : String) (value : Bytes) : HeaderBlock :=
  { h with fields := h.fields ++ [(lowerName name, value)] }

/-- The first value under a name, if it can be read as text. -/
def get? (h : HeaderBlock) (name : String) : Option String :=
  (h.fields.lookup (lowerName name)).bind textOfField?

/-- Add a text under a name; a text that no field value can hold is left out. -/
def putText (h : HeaderBlock) (name : String) (text : Option String) : HeaderBlock :=
  match text.bind fieldOfText? with
  | some value => h.append name value
  | none => h

/-! ## Names in use -/

def subprotocolName : String := "sec-websocket-protocol"
def extensionsName : String := "sec-websocket-extensions"
def versionName : String := "sec-websocket-version"
def originName : String := "origin"

end HeaderBlock

end ChannelMux
