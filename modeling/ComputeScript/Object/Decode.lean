import ComputeScript.Object.Encode
import ComputeScript.Word

/-!
# Reading an object

`Image.decode?` reads the bytes of an object back into an image.  It accepts the part of the
WebAssembly binary format that objects use, and all bytes must be used up.
-/

namespace ComputeScript

namespace Binary

/-- A function that reads a value off the front of a list of bytes. -/
abbrev Decoder (α : Type) : Type := StateT Bytes Option α

/-- One byte. -/
def anyByte : Decoder UInt8
  | [] => none
  | b :: bs => some (b, bs)

/-- The given byte. -/
def theByte (wanted : UInt8) : Decoder Unit
  | [] => none
  | b :: bs => if b = wanted then some ((), bs) else none

/-- A natural number. -/
def nat : Decoder Nat := Leb128.decodeNat

/-- A count, an index, an offset or a depth. -/
def index : Decoder UInt32 := fun bytes => do
  let (n, rest) ← Leb128.decodeNat bytes
  return (← Word.index? n, rest)

/-- A word, written as a signed number. -/
def word : Decoder Int32 := fun bytes => do
  let (i, rest) ← Leb128.decodeInt bytes
  return (← Word.ofSigned? i, rest)

/-- The given number of items. -/
def times {α : Type} (item : Decoder α) : Nat → Decoder (List α)
  | 0 => pure []
  | n + 1 => do
    let x ← item
    return x :: (← times item n)

/-- A list of items after their number. -/
def items {α : Type} (item : Decoder α) : Decoder (List α) := do
  times item (← nat)

/-- A decoder that must use up exactly the bytes whose number comes first. -/
def within {α : Type} (p : Decoder α) : Decoder α := do
  let size ← nat
  let bytes ← get
  if size ≤ bytes.length then
    match p (bytes.take size) with
    | some (x, []) =>
      set (bytes.drop size)
      return x
    | _ => failure
  else failure

/-- All the bytes that are left. -/
def everything : Decoder Bytes := fun bytes => some (bytes, [])

/-- A name in UTF-8. -/
def anyText : Decoder String := do
  let bytes ← within everything
  match String.fromUTF8? ⟨bytes.toArray⟩ with
  | some s => return s
  | none => failure

/-- A section with the given number. -/
def inSection {α : Type} (id : UInt8) (p : Decoder α) : Decoder α := do
  theByte id
  within p

/-- A section with the given number if it comes next, and otherwise the given value. -/
def inSectionOr {α : Type} (id : UInt8) (absent : α) (p : Decoder α) : Decoder α := do
  if (← get).head? = some id then inSection id p else return absent

end Binary

open Binary

/-- The operator with this byte. -/
def BinOp.ofOpcode? (b : UInt8) : Option BinOp :=
  all.find? fun op => op.opcode == b

/-- An instruction. -/
def Inst.decode : Decoder (Inst Nat) := do
  let b ← anyByte
  if b = 0x41 then return .const (← word)
  else if b = 0x20 then return .localGet (← index)
  else if b = 0x21 then return .localSet (← index)
  else if b = 0x22 then return .localTee (← index)
  else if b = 0x23 then return .globalGet (← nat)
  else if b = 0x24 then return .globalSet (← nat)
  else if b = 0x28 then do
    theByte 0x02
    return .load (← index)
  else if b = 0x36 then do
    theByte 0x02
    return .store (← index)
  else if b = 0x45 then return .eqz
  else if b = 0x10 then return .call (← nat)
  else if b = 0x02 then do
    theByte 0x40
    return .block
  else if b = 0x03 then do
    theByte 0x40
    return .loop
  else if b = endByte then return .close
  else if b = 0x0C then return .br (← index)
  else if b = 0x0D then return .brIf (← index)
  else if b = 0x1A then return .drop
  else if b = 0x0F then return .ret
  else
    match BinOp.ofOpcode? b with
    | some op => return .binary op
    | none => failure

/-- At most `fuel` instructions, up to an end that is the last byte. -/
def Inst.decodeBody : (fuel : Nat) → Decoder (List (Inst Nat))
  | 0 => failure
  | fuel + 1 => do
    if (← get) = [endByte] then
      set ([] : Bytes)
      return []
    else
      let inst ← Inst.decode
      return inst :: (← Inst.decodeBody fuel)

/-- A function type. -/
def FuncType.decode : Decoder FuncType := do
  theByte 0x60
  let params ← items (theByte wordType)
  let results ← items (theByte wordType)
  return ⟨UInt32.ofNat params.length, UInt32.ofNat results.length⟩

/-- A kind of export. -/
def ExportKind.decode : Decoder ExportKind := do
  let b ← anyByte
  if b = 0x00 then return .func
  else if b = 0x02 then return .memory
  else if b = 0x03 then return .global
  else failure

/-- An export. -/
def Exported.decode : Decoder Exported := do
  return ⟨← anyText, ← ExportKind.decode, ← nat⟩

namespace Code

/-- A declaration of locals, which all have one type. -/
def decodeLocals : Decoder UInt32 := do
  let b ← anyByte
  if b = 0x00 then return 0
  else if b = 0x01 then
    let locals ← index
    theByte wordType
    return locals
  else failure

/-- The locals and the body of a function, after their size. -/
def decode : Decoder (UInt32 × List (Inst Nat)) := within do
  let locals ← decodeLocals
  let bytes ← get
  return (locals, ← Inst.decodeBody bytes.length)

end Code

namespace Image

/-- A mutable global that holds a word at first. -/
def decodeGlobal : Decoder Int32 := do
  theByte wordType
  theByte 0x01
  theByte 0x41
  let init ← word
  theByte endByte
  return init

/-- An image. -/
def decoder : Decoder Image := do
  for b in header do theByte b
  let types ← inSection 1 (items FuncType.decode)
  let typeIndices ← inSection 3 (items nat)
  let memory ← inSectionOr 5 false do
    theByte 0x01
    theByte 0x00
    theByte 0x01
    return true
  let globals ← inSectionOr 6 [] (items decodeGlobal)
  let exports ← inSection 7 (items Exported.decode)
  let bodies ← inSection 10 (items Code.decode)
  if typeIndices.length = bodies.length then
    let funcs := List.zipWith (fun t c => ⟨t, c.1, c.2⟩) typeIndices bodies
    return { types, funcs, memory, globals, exports }
  else failure

/-- The image that an object holds. -/
def decode? (bytes : Bytes) : Option Image :=
  match decoder bytes with
  | some (image, []) => some image
  | _ => none

end Image

end ComputeScript
