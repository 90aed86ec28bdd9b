/-! # Lists written with a separator

Header values carry lists: elements between commas, parameters between semicolons. A text always
has at least one piece, so `pieces` returns the first apart from the others.
-/

namespace ChannelMux.Text

/-- The pieces of a text between occurrences of `sep`: the first, and those after it. -/
def pieces (sep : Char) : List Char → List Char × List (List Char)
  | [] => ([], [])
  | c :: cs =>
    let rest := pieces sep cs
    if c = sep then ([], rest.1 :: rest.2) else (c :: rest.1, rest.2)

/-- All pieces of a text, the first included. -/
def split (sep : Char) (cs : List Char) : List (List Char) :=
  (pieces sep cs).1 :: (pieces sep cs).2

/-- The texts before and after the first occurrence of `sep`. -/
def cut? (sep : Char) : List Char → Option (List Char × List Char)
  | [] => none
  | c :: cs => if c = sep then some ([], cs) else (cut? sep cs).map fun p => (c :: p.1, p.2)

@[simp] theorem pieces_nil (sep : Char) : pieces sep [] = ([], []) := rfl
@[simp] theorem split_nil (sep : Char) : split sep [] = [[]] := rfl
@[simp] theorem cut?_nil (sep : Char) : cut? sep [] = none := rfl

/-- Two texts are the same up to the case of ASCII letters. -/
def sameIgnoringCase (a b : String) : Bool := a.toList.map Char.toLower = b.toList.map Char.toLower

@[simp] theorem sameIgnoringCase_self (a : String) : sameIgnoringCase a a := by
  simp [sameIgnoringCase]

end ChannelMux.Text
