import ChannelMux.Text.Blank
import ChannelMux.Text.Pieces

/-! # Extension lists

The value of `sec-websocket-extensions`: elements between commas, each a name followed by
parameters, all between semicolons. `parseList` reads such a value and `renderList` writes one.
-/

namespace ChannelMux

open Text

namespace Extension

structure Param where
  name : String
  value : Option String
deriving DecidableEq, Repr

end Extension

structure Extension where
  name : String
  params : List Extension.Param
deriving DecidableEq, Repr

namespace Extension

/-! ## Reading -/

/-- A value may stand between double quotes, which are not part of it. -/
def unquote (cs : List Char) : List Char := strip (· = '"') cs

def Param.ofChars (cs : List Char) : Param :=
  match cut? '=' cs with
  | some (name, value) =>
    ⟨String.ofList (trim name), some (String.ofList (unquote (trim value)))⟩
  | none => ⟨String.ofList cs, none⟩

/-- Blank parameters are passed over, and so is an element without a name. -/
def ofChars? (cs : List Char) : Option Extension :=
  let parts := pieces ';' cs
  let name := trim parts.1
  if name = [] then none
  else some ⟨String.ofList name, ((parts.2.map trim).filter (· ≠ [])).map Param.ofChars⟩

def parseList (s : String) : List Extension := (split ',' s.toList).filterMap ofChars?

/-! ## Writing -/

def Param.render (p : Param) : String :=
  match p.value with
  | some v => p.name ++ "=" ++ v
  | none => p.name

def render (e : Extension) : String := "; ".intercalate (e.name :: e.params.map Param.render)

def renderList (es : List Extension) : String := ", ".intercalate (es.map render)

end Extension

end ChannelMux
