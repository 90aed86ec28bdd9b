/-! # Blank characters

The blank characters are those of Unicode's `White_Space` property. Header values are lists whose
elements may be surrounded by blanks; `trim` removes them, and only them, from both ends.
-/

namespace ChannelMux.Text

/-- The ranges of `White_Space`, in order. -/
def blankRanges : List (Nat × Nat) :=
  [(0x09, 0x0d), (0x20, 0x20), (0x85, 0x85), (0xa0, 0xa0), (0x1680, 0x1680), (0x2000, 0x200a),
    (0x2028, 0x2029), (0x202f, 0x202f), (0x205f, 0x205f), (0x3000, 0x3000)]

def isBlank (c : Char) : Bool :=
  blankRanges.any fun r => r.1 ≤ c.toNat && c.toNat ≤ r.2

/-- Remove the longest run of characters satisfying `p` from each end. -/
def strip (p : Char → Bool) (cs : List Char) : List Char :=
  ((cs.dropWhile p).reverse.dropWhile p).reverse

def trim (cs : List Char) : List Char := strip isBlank cs

@[simp] theorem strip_nil (p : Char → Bool) : strip p [] = [] := rfl
@[simp] theorem trim_nil : trim [] = [] := rfl

end ChannelMux.Text
