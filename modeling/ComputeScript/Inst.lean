import ComputeScript.BinOp

/-!
# Instructions

A function body is a flat list of stack-machine instructions; `block` and `loop` open a block that
the matching `close` ends.  `Inst σ` leaves open how functions and globals are referred to: `σ` is
`String` in a script and an index in an object.  `Inst.resolve` passes from one to the other.
-/

namespace ComputeScript

/-- An instruction whose references are of type `σ`. -/
inductive Inst (σ : Type) where
  | const (value : Int32)
  | localGet (index : UInt32)
  | localSet (index : UInt32)
  | localTee (index : UInt32)
  | globalGet (target : σ)
  | globalSet (target : σ)
  | load (offset : UInt32)
  | store (offset : UInt32)
  | binary (op : BinOp)
  | eqz
  | call (target : σ)
  | block
  | loop
  | close
  | br (depth : UInt32)
  | brIf (depth : UInt32)
  | drop
  | ret
  deriving DecidableEq, Repr

namespace Inst

variable {σ τ ε : Type}

/-- The function or global that an instruction refers to. -/
def reference? : Inst σ → Option σ
  | globalGet target => some target
  | globalSet target => some target
  | call target => some target
  | _ => none

/-- Whether an instruction reads or writes memory. -/
def usesMemory : Inst σ → Bool
  | load _ => true
  | store _ => true
  | _ => false

/-- The instruction with its reference replaced, which may fail; functions and globals are looked
up apart. -/
def resolve (func global : σ → Except ε τ) : Inst σ → Except ε (Inst τ)
  | const value => .ok (const value)
  | localGet index => .ok (localGet index)
  | localSet index => .ok (localSet index)
  | localTee index => .ok (localTee index)
  | globalGet target => (global target).map globalGet
  | globalSet target => (global target).map globalSet
  | load offset => .ok (load offset)
  | store offset => .ok (store offset)
  | binary op => .ok (binary op)
  | eqz => .ok eqz
  | call target => (func target).map call
  | block => .ok block
  | loop => .ok loop
  | close => .ok close
  | br depth => .ok (br depth)
  | brIf depth => .ok (brIf depth)
  | drop => .ok drop
  | ret => .ok ret

end Inst

end ComputeScript
