import ComputeScript.Object.Image

/-!
# Type-checking code

Every operand is a word, so the type of a stack is its height.  `Checker` holds the height and the
blocks around a place in a body, and `Checker.inst` follows one instruction.  Behind a branch or a
return the stack of a block is polymorphic: it provides whatever is asked for.
`Image.isValid` checks a whole image.  Its limits are those of wasmparser, with which the engine
that runs the objects checks them first.
-/

namespace ComputeScript

variable {σ : Type}

/-- A block around a place in a body. -/
structure Region where
  /-- the height of the stack at the start of the block -/
  height : Nat
  /-- the number of operands that a branch to it takes -/
  arity : Nat
  /-- whether the place cannot be reached -/
  polymorphic : Bool := false
  deriving DecidableEq, Repr

/-- What is known at a place in a body. -/
structure Checker where
  height : Nat
  inner : Region
  outer : List Region := []
  deriving DecidableEq, Repr

/-- What a body may refer to. -/
structure Context (σ : Type) where
  /-- the number of locals, parameters included -/
  locals : Nat
  results : Nat
  func? : σ → Option FuncType
  hasGlobal : σ → Bool
  hasMemory : Bool

namespace Checker

/-- Takes an operand. -/
def pop (c : Checker) : Option Checker :=
  if c.inner.height < c.height then some { c with height := c.height - 1 }
  else if c.inner.polymorphic then some c
  else none

/-- Takes operands. -/
def popMany : Nat → Checker → Option Checker
  | 0, c => some c
  | n + 1, c => c.pop.bind (popMany n)

/-- Leaves operands. -/
def push (n : Nat) (c : Checker) : Checker :=
  { c with height := c.height + n }

/-- What is known behind a place that is never passed. -/
def unreachable (c : Checker) : Checker :=
  { c with height := c.inner.height, inner := { c.inner with polymorphic := true } }

/-- The number of operands that a branch to a depth takes. -/
def arity? (c : Checker) (depth : Nat) : Option Nat :=
  ((c.inner :: c.outer)[depth]?).map Region.arity

/-- Enters a block. -/
def enter (c : Checker) : Checker :=
  { c with inner := ⟨c.height, 0, false⟩, outer := c.inner :: c.outer }

/-- Leaves a block, which has no results. -/
def leave (c : Checker) : Option Checker :=
  match c.outer with
  | [] => none
  | inner :: outer => if c.height = c.inner.height then some { c with inner, outer } else none

/-- Follows one instruction. -/
def inst (ctx : Context σ) (c : Checker) : Inst σ → Option Checker
  | .const _ => some (c.push 1)
  | .localGet index => if index.toNat < ctx.locals then some (c.push 1) else none
  | .localSet index => if index.toNat < ctx.locals then c.pop else none
  | .localTee index => if index.toNat < ctx.locals then c.pop.map (push 1) else none
  | .globalGet target => if ctx.hasGlobal target then some (c.push 1) else none
  | .globalSet target => if ctx.hasGlobal target then c.pop else none
  | .load _ => if ctx.hasMemory then c.pop.map (push 1) else none
  | .store _ => if ctx.hasMemory then c.popMany 2 else none
  | .binary _ => (c.popMany 2).map (push 1)
  | .eqz => c.pop.map (push 1)
  | .call target =>
    (ctx.func? target).bind fun t => (c.popMany t.params.toNat).map (push t.results.toNat)
  | .block => some c.enter
  | .loop => some c.enter
  | .close => c.leave
  | .br depth => (c.arity? depth.toNat).bind fun n => (c.popMany n).map unreachable
  | .brIf depth =>
    (c.arity? depth.toNat).bind fun n => c.pop.bind fun c => (c.popMany n).map (push n)
  | .drop => c.pop
  | .ret => (c.popMany ctx.results).map unreachable

/-- Follows a body to its end, where the results must be on the stack and nothing else. -/
def body (ctx : Context σ) (c : Checker) : List (Inst σ) → Bool
  | [] =>
    match c.popMany ctx.results with
    | some c => c.outer.isEmpty && c.height == 0
    | none => false
  | inst :: rest =>
    match c.inst ctx inst with
    | some c => c.body ctx rest
    | none => false

end Checker

/-- Whether a body type-checks. -/
def Context.accepts (ctx : Context σ) (body : List (Inst σ)) : Bool :=
  Checker.body ctx ⟨0, ⟨0, ctx.results, false⟩, []⟩ body

namespace Image

/-- What a function with this type and number of locals may refer to. -/
def context (image : Image) (t : FuncType) (locals : UInt32) : Context Nat where
  locals := t.params.toNat + locals.toNat
  results := t.results.toNat
  func? := image.funcType?
  hasGlobal index := decide (index < image.globals.length)
  hasMemory := image.memory

/-- The most parameters, and the most results, that a function may have. -/
def maxParams : Nat := 1000

/-- The most locals, parameters included, that a function may have. -/
def maxLocals : Nat := 50000

/-- Whether a function type-checks within the limits. -/
def isValidCode (image : Image) (c : Code) : Bool :=
  match image.types[c.typeIndex]? with
  | none => false
  | some t =>
    decide (t.params.toNat + c.locals.toNat ≤ maxLocals) &&
      (image.context t c.locals).accepts c.body

/-- The most bytes that the name of an export may have. -/
def maxNameBytes : Nat := 100000

/-- Whether what an export refers to is there. -/
def hasExported (image : Image) (e : Exported) : Bool :=
  match e.kind with
  | .func => decide (e.index < image.funcs.length)
  | .memory => image.memory && e.index == 0
  | .global => decide (e.index < image.globals.length)

/-- Whether an export refers to something, under a name that is not too long. -/
def isValidExport (image : Image) (e : Exported) : Bool :=
  decide (e.name.utf8ByteSize ≤ maxNameBytes) && image.hasExported e

/-- Whether an image type-checks. -/
def isValid (image : Image) : Bool :=
  image.types.all (fun t =>
    decide (t.params.toNat ≤ maxParams) && decide (t.results.toNat ≤ maxParams)) &&
    image.funcs.all image.isValidCode &&
    image.exports.all image.isValidExport &&
    (firstRepeat? [] (image.exports.map Exported.name)).isNone

end Image

end ComputeScript
