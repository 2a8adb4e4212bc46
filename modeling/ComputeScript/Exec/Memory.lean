/-!
# Memory

A memory is an array of bytes.  A word is four bytes, the least significant first, at any address;
`Memory.holds` says whether it lies within the memory, and only then may it be read or written.
-/

namespace ComputeScript

/-- A memory. -/
structure Memory where
  bytes : Array UInt8
  deriving DecidableEq, Repr

namespace Memory

/-- The number of bytes of a page. -/
def pageSize : Nat := 65536

/-- A memory of one page that holds zeros. -/
def page : Memory := ⟨Array.replicate pageSize 0⟩

/-- Whether the word at an address lies within the memory. -/
def holds (m : Memory) (address : Nat) : Bool :=
  decide (address + 4 ≤ m.bytes.size)

/-- The byte at an address, as an unsigned word. -/
def byte (m : Memory) (address : Nat) : UInt32 :=
  (m.bytes.getD address 0).toUInt32

/-- The word at an address. -/
def read (m : Memory) (address : Nat) : Int32 :=
  (m.byte address ||| m.byte (address + 1) <<< 8 ||| m.byte (address + 2) <<< 16 |||
    m.byte (address + 3) <<< 24).toInt32

/-- The memory with a word written at an address. -/
def write (m : Memory) (address : Nat) (word : Int32) : Memory :=
  let w := word.toUInt32
  ⟨(((m.bytes.setIfInBounds address w.toUInt8).setIfInBounds
    (address + 1) (w >>> 8).toUInt8).setIfInBounds
    (address + 2) (w >>> 16).toUInt8).setIfInBounds
    (address + 3) (w >>> 24).toUInt8⟩

end Memory

end ComputeScript
