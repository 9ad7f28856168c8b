/-!
# White space

The characters that the Unicode standard counts as white space.
-/

namespace SegmentFlow

def whitespaceRanges : List (Nat × Nat) :=
  [ (0x0009, 0x000D), (0x0020, 0x0020), (0x0085, 0x0085), (0x00A0, 0x00A0), (0x1680, 0x1680),
    (0x2000, 0x200A), (0x2028, 0x2029), (0x202F, 0x202F), (0x205F, 0x205F), (0x3000, 0x3000) ]

def isWhitespace (c : Char) : Bool :=
  whitespaceRanges.any fun (first, last) => first ≤ c.toNat && c.toNat ≤ last

/-- What follows the white space at the beginning of a text. -/
def skipWhitespace (cs : List Char) : List Char :=
  cs.dropWhile isWhitespace

end SegmentFlow
