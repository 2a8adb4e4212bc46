import ComputeScript.Object.Image

/-!
# The words of a frame

A call takes up a frame of words: the locals of the function, its operands where they are most,
and the constants that its instructions need but have no place for.  `Layout` holds what is known
of the operands at a place in a body, and `Layout.inst` follows one instruction.  Operators on
constants are computed beforehand, and code that is then never reached takes up nothing.
`Image.frameSize?` is the size of the frame; a function with too many locals or operands has none.
The words of a frame and their limits are those of wasmi 0.51, the engine that runs the objects.
-/

namespace ComputeScript

/-- What is known of an operand. -/
inductive Operand where
  | known (value : Int32)
  | computed
  deriving DecidableEq, Repr

/-- A block around a place in a body. -/
structure Enclosure where
  /-- the number of operands below the block -/
  height : Nat
  isLoop : Bool
  /-- whether a branch that is reached leads to it -/
  branched : Bool := false
  deriving DecidableEq, Repr

/-- What is known at a place in a body, and what the frame needs up to there. -/
structure Layout where
  /-- the operands, topmost first -/
  operands : List Operand := []
  height : Nat := 0
  /-- the blocks around the place, innermost first -/
  blocks : List Enclosure := []
  reached : Bool := true
  /-- the greatest height so far -/
  deepest : Nat := 0
  /-- the greatest height so far with a computed operand on top -/
  deepestComputed : Nat := 0
  /-- the constants that instructions have no place for -/
  constants : List Int32 := []
  deriving DecidableEq, Repr

namespace Layout

/-! ### Operands -/

/-- Leaves an operand. -/
def push (operand : Operand) (l : Layout) : Layout :=
  { l with
    operands := operand :: l.operands
    height := l.height + 1
    deepest := max l.deepest (l.height + 1) }

/-- Leaves an operand that has to be computed. -/
def pushComputed (l : Layout) : Layout :=
  { l.push .computed with deepestComputed := max l.deepestComputed (l.height + 1) }

/-- The topmost operand, and the rest. -/
def pop (l : Layout) : Operand × Layout :=
  match l.operands with
  | [] => (.computed, l)
  | operand :: operands => (operand, { l with operands, height := l.height - 1 })

/-- What is known where the code is never reached. -/
def stop (l : Layout) : Layout :=
  { l with reached := false }

/-- Keeps a constant in the frame. -/
def keep (value : Int32) (l : Layout) : Layout :=
  if value ∈ l.constants then l else { l with constants := value :: l.constants }

/-- Whether an instruction has a place for a constant, which is one of 16 bits. -/
def isShort (value : Int32) : Bool :=
  decide (-32768 ≤ value) && decide (value ≤ 32767)

/-- Keeps a constant in the frame if an instruction has no place for it. -/
def keepLong (value : Int32) (l : Layout) : Layout :=
  if isShort value then l else l.keep value

/-- Takes the arguments of a call, topmost first.  A call has no place for constants. -/
def popArguments : Nat → Layout → Layout
  | 0, l => l
  | n + 1, l =>
    match l.pop with
    | (.known value, l) => popArguments n (l.keep value)
    | (.computed, l) => popArguments n l

/-- Follows an operator. -/
def binary (op : BinOp) (left right : Operand) (l : Layout) : Layout :=
  match left, right with
  | .known left, .known right =>
    match op.eval left right with
    | some value => l.push (.known value)
    | none => l.stop
  | .known left, .computed => (l.keepLong left).pushComputed
  | .computed, .known right =>
    match op with
    | .shl => l.pushComputed
    | .shrS => l.pushComputed
    | .divS => if right = 0 then l.stop else (l.keepLong right).pushComputed
    | .remS => if right = 0 then l.stop else (l.keepLong right).pushComputed
    | .sub => (if isShort (-right) then l else l.keep right).pushComputed
    | _ => (l.keepLong right).pushComputed
  | .computed, .computed => l.pushComputed

/-! ### Blocks -/

/-- Enters a block. -/
def enter (isLoop : Bool) (l : Layout) : Layout :=
  { l with blocks := { height := l.height, isLoop } :: l.blocks }

/-- Leaves a block.  Its end is reached from within or by a branch, that of a loop only from
within. -/
def leave (l : Layout) : Layout :=
  match l.blocks with
  | [] => l
  | block :: blocks =>
    { l with
      blocks
      operands := l.operands.drop (l.height - block.height)
      height := block.height
      reached := l.reached || (block.branched && !block.isLoop) }

/-- Notes a branch to a depth. -/
def branch (depth : Nat) (l : Layout) : Layout :=
  { l with blocks := l.blocks.modify depth fun block => { block with branched := true } }

/-! ### Instructions -/

/-- Follows one instruction that is reached. -/
def effect (type? : Nat → Option FuncType) (l : Layout) : Inst Nat → Layout
  | .const value => l.push (.known value)
  | .localGet _ => l.push .computed
  | .localSet _ => l.pop.2
  | .localTee _ => l
  | .globalGet _ => l.pushComputed
  | .globalSet _ =>
    match l.pop with
    | (.known value, l) => l.keepLong value
    | (.computed, l) => l
  | .load _ => l.pop.2.pushComputed
  | .store _ =>
    match l.pop with
    | (.known value, l) => (l.keepLong value).pop.2
    | (.computed, l) => l.pop.2
  | .binary op => l.pop.2.pop.2.binary op l.pop.2.pop.1 l.pop.1
  | .eqz =>
    match l.pop with
    | (.known value, l) => l.push (.known (BinOp.truth (value == 0)))
    | (.computed, l) => l.pushComputed
  | .call target =>
    match type? target with
    | some t => t.results.toNat.repeat pushComputed (l.popArguments t.params.toNat)
    | none => l
  | .br depth => (l.branch depth.toNat).stop
  | .brIf depth =>
    match l.pop with
    | (.known value, l) => if value = 0 then l else (l.branch depth.toNat).stop
    | (.computed, l) => l.branch depth.toNat
  | .drop => l.pop.2
  | .ret => l.stop
  | .block => l.enter false
  | .loop => l.enter true
  | .close => l.leave

/-- Follows one instruction.  Of code that is not reached only the blocks count. -/
def inst (type? : Nat → Option FuncType) (l : Layout) : Inst Nat → Layout
  | .block => l.enter false
  | .loop => l.enter true
  | .close => l.leave
  | inst => if l.reached then l.effect type? inst else l

/-- What is known at the end of a body. -/
def ofBody (type? : Nat → Option FuncType) (body : List (Inst Nat)) : Layout :=
  body.foldl (inst type?) {}

end Layout

namespace Image

/-- The most locals, parameters included, that a frame has a place for.  A function with more of
them may be valid, and the engine refuses it only when it is called. -/
def maxFrameLocals : Nat := 30000

/-- The most locals and computed operands that a frame has places for, which the engine's
instructions name by indices of 15 bits. -/
def maxFramePlaces : Nat := 32768

/-- The words of a frame of a function, unless it is too large for one. -/
def frameSize? (image : Image) (t : FuncType) (c : Code) : Option Nat :=
  let locals := t.params.toNat + c.locals.toNat
  let layout := Layout.ofBody image.funcType? c.body
  if locals ≤ maxFrameLocals ∧ locals + layout.deepestComputed ≤ maxFramePlaces then
    some (locals + layout.deepest + layout.constants.length)
  else none

end Image

end ComputeScript
