/-!
# Blank characters

`isBlank` is the Unicode property `White_Space`, and `trim` drops blanks at both ends of a text.
The list is complete: twenty-five code points have the property.
-/

namespace ComputeScript

namespace Text

/-- The code points with the property `White_Space`, as inclusive ranges. -/
def blanks : List (Nat × Nat) :=
  [(0x09, 0x0D), (0x20, 0x20), (0x85, 0x85), (0xA0, 0xA0), (0x1680, 0x1680), (0x2000, 0x200A),
   (0x2028, 0x2029), (0x202F, 0x202F), (0x205F, 0x205F), (0x3000, 0x3000)]

/-- Whether `c` is white space. -/
def isBlank (c : Char) : Bool :=
  blanks.any fun r => decide (r.1 ≤ c.toNat) && decide (c.toNat ≤ r.2)

/-- The text without the blanks before and after it. -/
def trimChars (cs : List Char) : List Char :=
  ((cs.dropWhile isBlank).reverse.dropWhile isBlank).reverse

/-- The string without the blanks before and after it. -/
def trim (s : String) : String :=
  String.ofList (trimChars s.toList)

end Text

end ComputeScript
