import ChannelMux.Text.Printable

/-! # Quotations in messages

A message that repeats a text from a peer puts it between double quotes, with quotes, backslashes
and everything invisible escaped.
-/

namespace ChannelMux.Text

/-- The form of one character inside a quotation. -/
def escape (c : Char) : List Char :=
  match c with
  | '\x00' => ['\\', '0']
  | '\t' => ['\\', 't']
  | '\n' => ['\\', 'n']
  | '\r' => ['\\', 'r']
  | '"' => ['\\', '"']
  | '\\' => ['\\', '\\']
  | c => if isEscaped c then "\\u\x7b".toList ++ Nat.toDigits 16 c.toNat ++ ['\x7d'] else [c]

def quote (s : String) : String :=
  String.ofList ('"' :: s.toList.flatMap escape ++ ['"'])

end ChannelMux.Text
