/-!
# Words written as numbers

Scripts and objects write 32-bit words as numbers.  A value is a signed word, an `Int32`; a count,
an index, an offset or a depth is an unsigned word, a `UInt32`.  Each function here accepts the
numbers of one range.
-/

namespace ComputeScript

namespace Word

/-- The value of a number from `-2 ^ 31` to `2 ^ 31 - 1`. -/
def ofSigned? (i : Int) : Option Int32 :=
  if -0x80000000 ≤ i ∧ i < 0x80000000 then some (Int32.ofInt i) else none

/-- The value of a number from `-2 ^ 31` to `2 ^ 32 - 1`; from `2 ^ 31` on it is the value with the
same bits. -/
def ofNumber? (i : Int) : Option Int32 :=
  if -0x80000000 ≤ i ∧ i < 0x100000000 then some (Int32.ofInt i) else none

/-- The index of a number from `0` to `2 ^ 32 - 1`. -/
def index? (i : Int) : Option UInt32 :=
  if 0 ≤ i ∧ i < 0x100000000 then some (UInt32.ofNat i.toNat) else none

end Word

end ComputeScript
