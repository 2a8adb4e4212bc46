import ComputeScript.Object.Image
import ComputeScript.Object.Leb128

/-!
# The bytes of an object

`Image.encode` writes an image in the WebAssembly binary format: a header and the sections for
types, functions, the memory, globals, exports and code, in this order.  The sections for the
memory and for globals are left out where there is nothing to say; the others are always written.
-/

namespace ComputeScript

namespace Binary

/-- A list of items after their number. -/
def vector {α : Type} (item : α → Bytes) (xs : List α) : Bytes :=
  Leb128.encodeNat xs.length ++ xs.flatMap item

/-- Bytes after their number. -/
def sized (bytes : Bytes) : Bytes :=
  Leb128.encodeNat bytes.length ++ bytes

/-- A section with its number. -/
def sectionOf (id : UInt8) (bytes : Bytes) : Bytes :=
  id :: sized bytes

/-- A name in UTF-8. -/
def text (s : String) : Bytes :=
  sized s.toByteArray.toList

/-- The type of a word. -/
def wordType : UInt8 := 0x7F

/-- The byte that ends a block and a body. -/
def endByte : UInt8 := 0x0B

end Binary

open Binary

/-- The byte of an operator. -/
def BinOp.opcode : BinOp → UInt8
  | add => 0x6A
  | sub => 0x6B
  | mul => 0x6C
  | divS => 0x6D
  | remS => 0x6F
  | and => 0x71
  | or => 0x72
  | xor => 0x73
  | shl => 0x74
  | shrS => 0x75
  | eq => 0x46
  | ne => 0x47
  | ltS => 0x48
  | leS => 0x4C
  | gtS => 0x4A
  | geS => 0x4E

/-- The bytes of an instruction.  Blocks have no result, and accesses to memory are aligned to a
word. -/
def Inst.encode : Inst Nat → Bytes
  | const value => 0x41 :: Leb128.encodeInt value.toInt
  | localGet index => 0x20 :: Leb128.encodeNat index.toNat
  | localSet index => 0x21 :: Leb128.encodeNat index.toNat
  | localTee index => 0x22 :: Leb128.encodeNat index.toNat
  | globalGet target => 0x23 :: Leb128.encodeNat target
  | globalSet target => 0x24 :: Leb128.encodeNat target
  | load offset => 0x28 :: 0x02 :: Leb128.encodeNat offset.toNat
  | store offset => 0x36 :: 0x02 :: Leb128.encodeNat offset.toNat
  | binary op => [op.opcode]
  | eqz => [0x45]
  | call target => 0x10 :: Leb128.encodeNat target
  | block => [0x02, 0x40]
  | loop => [0x03, 0x40]
  | close => [endByte]
  | br depth => 0x0C :: Leb128.encodeNat depth.toNat
  | brIf depth => 0x0D :: Leb128.encodeNat depth.toNat
  | drop => [0x1A]
  | ret => [0x0F]

/-- The bytes of a function type. -/
def FuncType.encode (t : FuncType) : Bytes :=
  0x60 :: vector (fun _ => [wordType]) (List.replicate t.params.toNat ()) ++
    vector (fun _ => [wordType]) (List.replicate t.results.toNat ())

/-- The byte of a kind of export. -/
def ExportKind.encode : ExportKind → UInt8
  | func => 0x00
  | memory => 0x02
  | global => 0x03

/-- The bytes of an export. -/
def Exported.encode (e : Exported) : Bytes :=
  text e.name ++ e.kind.encode :: Leb128.encodeNat e.index

namespace Code

/-- The declaration of locals, which all have one type. -/
def encodeLocals (locals : UInt32) : Bytes :=
  if locals = 0 then [0x00] else 0x01 :: Leb128.encodeNat locals.toNat ++ [wordType]

/-- The bytes of a function: its locals and its body, after their size. -/
def encode (c : Code) : Bytes :=
  sized (encodeLocals c.locals ++ c.body.flatMap Inst.encode ++ [endByte])

end Code

namespace Image

/-- The bytes that an object begins with. -/
def header : Bytes :=
  [0x00, 0x61, 0x73, 0x6D, 0x01, 0x00, 0x00, 0x00]

/-- The memory section, for a memory of one page at first. -/
def encodeMemory : Bytes :=
  sectionOf 5 [0x01, 0x00, 0x01]

/-- A mutable global that holds a word at first. -/
def encodeGlobal (init : Int32) : Bytes :=
  wordType :: 0x01 :: 0x41 :: Leb128.encodeInt init.toInt ++ [endByte]

/-- The bytes of an image. -/
def encode (image : Image) : Bytes :=
  header ++
    sectionOf 1 (vector FuncType.encode image.types) ++
    sectionOf 3 (vector (fun c => Leb128.encodeNat c.typeIndex) image.funcs) ++
    (if image.memory then encodeMemory else []) ++
    (if image.globals.isEmpty then [] else sectionOf 6 (vector encodeGlobal image.globals)) ++
    sectionOf 7 (vector Exported.encode image.exports) ++
    sectionOf 10 (vector Code.encode image.funcs)

end Image

/-- The object of a module. -/
def Module.object (m : Module) : Except ImageFault Bytes :=
  m.image.map Image.encode

end ComputeScript
