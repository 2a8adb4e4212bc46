import ComputeScript.Pass

/-!
# Variable-length integers

LEB128 writes a number in groups of seven bits, least significant first, with the high bit set on
every byte but the last.  `encodeNat` and `encodeInt` write the shortest form; `decodeNat` and
`decodeInt` read any form off the front of a list of bytes.
-/

namespace ComputeScript

namespace Leb128

/-- The shortest form of a natural number. -/
def encodeNat (n : Nat) : Bytes :=
  if n < 128 then [UInt8.ofNat n]
  else UInt8.ofNat (n % 128 + 128) :: encodeNat (n / 128)

/-- The shortest form of an integer; the sign is the seventh bit of the last group. -/
def encodeInt (i : Int) : Bytes :=
  if -64 ≤ i ∧ i < 64 then [UInt8.ofNat (i % 128).toNat]
  else UInt8.ofNat ((i % 128).toNat + 128) :: encodeInt (i / 128)
termination_by i.natAbs
decreasing_by omega

/-- Reads a natural number. -/
def decodeNat : Bytes → Option (Nat × Bytes)
  | [] => none
  | b :: bs =>
    if b < 128 then some (b.toNat, bs)
    else (decodeNat bs).map fun r => (b.toNat - 128 + 128 * r.1, r.2)

/-- Reads an integer. -/
def decodeInt : Bytes → Option (Int × Bytes)
  | [] => none
  | b :: bs =>
    if b < 64 then some (b.toNat, bs)
    else if b < 128 then some (b.toNat - 128, bs)
    else (decodeInt bs).map fun r => (b.toNat - 128 + 128 * r.1, r.2)

end Leb128

end ComputeScript
