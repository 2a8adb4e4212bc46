import ComputeScript.Export
import ComputeScript.Pass

/-!
# Kernel wrappers

For every kernel that has no wrapper yet, `Module.expand` appends an external function that runs
the kernel over a range of indices, so that a whole range is launched with one call.  The wrapper
takes the input pointer, the output pointer, the first index, the index to stop before, and the
distances between input and between output elements; `wrapperBody` is the loop it runs.  All
kernels are checked before the first wrapper is made.
-/

namespace ComputeScript

/-- Why a kernel has no wrapper. -/
inductive ExpandFault where
  | noKernel (kernel module : String)
  | wrongShape (kernel : Kernel) (params results : UInt32)
  deriving DecidableEq, Repr

namespace ExpandFault

/-- The wording of a fault. -/
def message : ExpandFault → String
  | noKernel kernel module => s!"foreach kernel '{kernel}' is not defined in '{module}'"
  | wrongShape kernel params results =>
    s!"foreach kernel '{kernel.name}' takes {params} parameter(s) and returns {results} value(s), "
      ++ s!"but signature {kernel.signature.text} needs {kernel.signature.params} and "
      ++ s!"{kernel.signature.results}"

end ExpandFault

namespace Kernel

/-! ### The locals of a wrapper, which are its parameters -/

def inPtr : UInt32 := 0
def outPtr : UInt32 := 1
def first : UInt32 := 2
def stop : UInt32 := 3
def inStep : UInt32 := 4
def outStep : UInt32 := 5

/-- The size in bytes of an element. -/
def elementSize : Int32 := 4

/-- The distance to the next element: the size of an element if steps are fixed, otherwise what
the caller passes. -/
def step (fixed : Bool) (param : UInt32) : Inst String :=
  if fixed then .const elementSize else .localGet param

/-- Adds a step to a local. -/
def advance (index : UInt32) (step : Inst String) : List (Inst String) :=
  [.localGet index, step, .binary .add, .localSet index]

/-- The loop over a range: while the index is below its end, calls the kernel on the current
element and moves on. -/
def wrapperBody (fixed : Bool) (k : Kernel) : List (Inst String) :=
  [Inst.block, .loop, .localGet first, .localGet stop, .binary .geS, .brIf 1] ++
    (if k.signature.returnsOut then [Inst.localGet outPtr] else []) ++
    (if k.signature.takesIn then [Inst.localGet inPtr, .load 0] else []) ++
    (if k.signature.takesIndex then [Inst.localGet first] else []) ++
    [Inst.call k.name] ++
    (if k.signature.returnsOut then [Inst.store 0] else []) ++
    (if k.signature.takesIn then advance inPtr (step fixed inStep) else []) ++
    (if k.signature.returnsOut then advance outPtr (step fixed outStep) else []) ++
    advance first (Inst.const 1) ++
    [Inst.br 0, .close, .close]

/-- The function that runs a kernel over a range. -/
def wrapper (fixed : Bool) (k : Kernel) : Func where
  name := k.wrapperName
  params := 6
  body := k.wrapperBody fixed

/-- What keeps a kernel from having a wrapper in `m`. -/
def fault? (m : Module) (k : Kernel) : Option ExpandFault :=
  match m.func? k.name with
  | none => some (.noKernel k.name m.id)
  | some f =>
    if f.params = k.signature.params ∧ f.results = k.signature.results then none
    else some (.wrongShape k f.params f.results)

end Kernel

namespace Module

/-- The kernels of a list that have no wrapper in `m`. -/
def unexpanded (m : Module) (kernels : List Kernel) : List Kernel :=
  kernels.filter fun k => !m.defines k.wrapperName

/-- The module with a wrapper for every kernel of the list, or the fault of the first kernel that
has one. -/
def expand (fixed : Bool) (kernels : List Kernel) (m : Module) : Except ExpandFault Module :=
  match (m.unexpanded kernels).findSome? (Kernel.fault? m) with
  | some fault => .error fault
  | none =>
    .ok { m with funcs := m.funcs ++ (m.unexpanded kernels).map (Kernel.wrapper fixed) }

end Module

/-- Makes the wrappers of kernels. -/
def Pass.expand {m : Type → Type} [Monad m] (fixed : Bool) (kernels : List Kernel) : Pass m :=
  .ofFunction "foreach-expand" fun module =>
    match module.expand fixed kernels with
    | .error fault => .error fault.message
    | .ok expanded => .ok (expanded, !(module.unexpanded kernels).isEmpty)

end ComputeScript
