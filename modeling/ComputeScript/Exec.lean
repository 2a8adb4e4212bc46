import ComputeScript.Exec.Memory
import ComputeScript.Inst

/-!
# Running code

Code runs on a stack of words, with locals, a memory and global variables.  `step` makes one step
inside a function and `run` runs a function with everything it calls, within a budget of steps and
with some `Room` for nested calls.  A run ends with values, with a trap, or stuck where no step is
possible, which happens only in code that does not type-check; `Ending` tells these apart from a
budget that is used up.  What the run has done to the memory and the globals is part of its result,
however it ends.

Inside a block the stack starts empty; the operands below wait in the block's `Label`.  A branch
drops what is on the stack and goes on behind its block, or at the start of its loop.
-/

namespace ComputeScript

variable {σ : Type}

/-- What can be run: a function without its name. -/
structure Procedure (σ : Type) where
  params : UInt32
  results : UInt32
  locals : UInt32
  body : List (Inst σ)
  /-- the words that a call takes up; without a number there is never room for a call -/
  words : Option Nat := some 0

/-- The room for nested calls. -/
structure Room where
  /-- how many calls may still be nested -/
  calls : Nat
  /-- how many words these may take up together -/
  words : Nat
  deriving DecidableEq, Repr

/-- The room inside a call of a function, if there is enough for the call. -/
def Room.enter? (room : Room) (p : Procedure σ) : Option Room :=
  match p.words with
  | none => none
  | some words =>
    if 0 < room.calls ∧ words ≤ room.words then some ⟨room.calls - 1, room.words - words⟩ else none

/-- What all functions share. -/
structure Store (σ : Type) where
  memory : Memory
  globals : List (σ × Int32)

namespace Store

/-- The value of a global. -/
def global? [BEq σ] (s : Store σ) (target : σ) : Option Int32 :=
  (s.globals.find? fun g => g.1 == target).map Prod.snd

/-- The store after a global has been set. -/
def setGlobal [BEq σ] (s : Store σ) (target : σ) (value : Int32) : Store σ :=
  { s with globals := s.globals.map fun g => if g.1 == target then (g.1, value) else g }

/-- The store after a word has been written to memory. -/
def write (s : Store σ) (address : Nat) (word : Int32) : Store σ :=
  { s with memory := s.memory.write address word }

end Store

/-- A block that has been entered. -/
structure Label (σ : Type) where
  /-- for a loop, its code from the start -/
  again : Option (List (Inst σ))
  /-- the operands below the block -/
  below : List Int32

/-- A function that is being run. -/
structure Frame (σ : Type) where
  /-- the instructions still to come -/
  code : List (Inst σ)
  /-- the blocks around them, innermost first -/
  labels : List (Label σ)
  /-- the operands in the innermost block, topmost first -/
  stack : List Int32
  locals : Array Int32

/-- What a step leads to. -/
inductive Step (σ : Type) where
  | next (frame : Frame σ)
  | call (target : σ) (frame : Frame σ)
  /-- the function ends with these values, topmost first -/
  | finish (values : List Int32)
  | trap
  | stuck

/-- How a run ends. -/
inductive Ending where
  /-- with these values, topmost first -/
  | done (values : List Int32)
  | trap
  | stuck
  /-- the steps are used up -/
  | outOfFuel
  /-- there is no room for a call -/
  | noRoom
  deriving DecidableEq, Repr

/-- The code behind the end of the block that is the given number of blocks further out than the
innermost one. -/
def behind : Nat → List (Inst σ) → Option (List (Inst σ))
  | _, [] => none
  | n, .block :: code => behind (n + 1) code
  | n, .loop :: code => behind (n + 1) code
  | 0, .close :: code => some code
  | n + 1, .close :: code => behind n code
  | n, _ :: code => behind n code

namespace Frame

/-- The end of a function with the values on top of the stack. -/
def finish (results : Nat) (f : Frame σ) : Step σ :=
  if results ≤ f.stack.length then .finish (f.stack.take results) else .stuck

/-- A branch out of, or back to the start of, the block at a depth; behind all blocks it ends the
function. -/
def branch (results : Nat) (depth : Nat) (f : Frame σ) : Step σ :=
  match f.labels.drop depth with
  | [] => if depth = f.labels.length then f.finish results else .stuck
  | label :: outer =>
    match label.again with
    | some code => .next { f with code, labels := label :: outer, stack := [] }
    | none =>
      match behind depth f.code with
      | some code => .next { f with code, labels := outer, stack := label.below }
      | none => .stuck

end Frame

/-- The address that an access with an offset refers to. -/
def address (base : Int32) (offset : UInt32) : Nat :=
  base.toUInt32.toNat + offset.toNat

/-- One step of a function with the given number of results, and the store after it. -/
def step [BEq σ] (results : Nat) (f : Frame σ) (s : Store σ) : Step σ × Store σ :=
  match f.code with
  | [] =>
    (if f.labels.isEmpty && f.stack.length == results then .finish f.stack else .stuck, s)
  | inst :: code =>
    let f := { f with code }
    match inst, f.stack with
    | .const value, stack => (.next { f with stack := value :: stack }, s)
    | .localGet index, stack =>
      match f.locals[index.toNat]? with
      | some value => (.next { f with stack := value :: stack }, s)
      | none => (.stuck, s)
    | .localSet index, value :: stack =>
      if index.toNat < f.locals.size then
        (.next { f with stack, locals := f.locals.setIfInBounds index.toNat value }, s)
      else (.stuck, s)
    | .localTee index, value :: _ =>
      if index.toNat < f.locals.size then
        (.next { f with locals := f.locals.setIfInBounds index.toNat value }, s)
      else (.stuck, s)
    | .globalGet target, stack =>
      match s.global? target with
      | some value => (.next { f with stack := value :: stack }, s)
      | none => (.stuck, s)
    | .globalSet target, value :: stack =>
      if (s.global? target).isSome then (.next { f with stack }, s.setGlobal target value)
      else (.stuck, s)
    | .load offset, base :: stack =>
      if s.memory.holds (address base offset) then
        (.next { f with stack := s.memory.read (address base offset) :: stack }, s)
      else (.trap, s)
    | .store offset, value :: base :: stack =>
      if s.memory.holds (address base offset) then
        (.next { f with stack }, s.write (address base offset) value)
      else (.trap, s)
    | .binary op, r :: l :: stack =>
      match op.eval l r with
      | some value => (.next { f with stack := value :: stack }, s)
      | none => (.trap, s)
    | .eqz, value :: stack => (.next { f with stack := BinOp.truth (value == 0) :: stack }, s)
    | .call target, _ => (.call target f, s)
    | .block, stack => (.next { f with labels := ⟨none, stack⟩ :: f.labels, stack := [] }, s)
    | .loop, stack => (.next { f with labels := ⟨some code, stack⟩ :: f.labels, stack := [] }, s)
    | .close, [] =>
      match f.labels with
      | label :: outer => (.next { f with labels := outer, stack := label.below }, s)
      | [] => (.stuck, s)
    | .br depth, _ => (f.branch results depth.toNat, s)
    | .brIf depth, condition :: stack =>
      (if condition = 0 then .next { f with stack }
        else { f with stack }.branch results depth.toNat, s)
    | .drop, _ :: stack => (.next { f with stack }, s)
    | .ret, _ => (f.finish results, s)
    | _, _ => (.stuck, s)

/-- A function that has just been called with arguments, topmost first. -/
def Procedure.enter (p : Procedure σ) (arguments : List Int32) : Frame σ where
  code := p.body
  labels := []
  stack := []
  locals := arguments.reverse.toArray ++ Array.replicate p.locals.toNat 0

/-- Runs a function from a frame on, with at most `fuel` steps and with some room for what it
calls. -/
def run [BEq σ] (procs : σ → Option (Procedure σ)) :
    (fuel : Nat) → Room → (results : Nat) → Frame σ → Store σ → Ending × Store σ
  | 0, _, _, _, s => (.outOfFuel, s)
  | fuel + 1, room, results, f, s =>
    match step results f s with
    | (.next f, s) => run procs fuel room results f s
    | (.finish values, s) => (.done values, s)
    | (.trap, s) => (.trap, s)
    | (.stuck, s) => (.stuck, s)
    | (.call target f, s) =>
      match procs target with
      | none => (.stuck, s)
      | some p =>
        if f.stack.length < p.params.toNat then (.stuck, s)
        else
          match room.enter? p with
          | none => (.noRoom, s)
          | some inner =>
            let frame := p.enter (f.stack.take p.params.toNat)
            match run procs fuel inner p.results.toNat frame s with
            | (.done values, s) =>
              run procs fuel room results
                { f with stack := values ++ f.stack.drop p.params.toNat } s
            | ending => ending

/-- Calls a function with arguments, topmost first. -/
def call [BEq σ] (procs : σ → Option (Procedure σ)) (fuel : Nat) (room : Room) (p : Procedure σ)
    (arguments : List Int32) (s : Store σ) : Ending × Store σ :=
  match room.enter? p with
  | none => (.noRoom, s)
  | some inner => run procs fuel inner p.results.toNat (p.enter arguments) s

end ComputeScript
