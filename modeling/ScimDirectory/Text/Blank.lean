/-!
# Blank text

A storage name that shows nothing on the page cannot name a backend attribute. This module holds
the Unicode property White_Space and the test whether a text consists of such characters only.
-/

namespace ScimDirectory

/-- The closed ranges of code points with the Unicode property White_Space, ascending and apart. -/
def whiteSpaceRanges : List (Nat × Nat) :=
  [(0x09, 0x0D), (0x20, 0x20), (0x85, 0x85), (0xA0, 0xA0), (0x1680, 0x1680), (0x2000, 0x200A),
    (0x2028, 0x2029), (0x202F, 0x202F), (0x205F, 0x205F), (0x3000, 0x3000)]

/-- The character has the Unicode property White_Space. -/
def isWhiteSpace (c : Char) : Bool :=
  whiteSpaceRanges.any fun range => range.1 ≤ c.toNat && c.toNat ≤ range.2

/-- The text is **blank**: it is empty or holds white space only. -/
def isBlank (s : String) : Bool :=
  s.toList.all isWhiteSpace

end ScimDirectory
