import ComputeScript.Pass.Eliminate
import ComputeScript.Pass.Emit
import ComputeScript.Pass.Fold
import ComputeScript.Target

/-!
# The passes of a target

Each stage adds a fixed sequence of passes for a machine: whole-program optimization folds
constants and eliminates dead code, and code generation ends in the emitter for the type of file
that was asked for, after folding once more unless optimization is off.
-/

namespace ComputeScript

namespace Machine

variable {m : Type → Type} [Monad m]

/-- The passes of whole-program optimization. -/
def ltoPasses : List (Pass m) := [.fold, .eliminate]

/-- The emitter for the machine's type of file. -/
def emitter (machine : Machine) : Pass m :=
  match machine.fileType with
  | .object => .emitObject
  | .assembly => .emitAssembly machine.triple.text machine.optLevel

/-- The passes of code generation; there are none where the target cannot emit the machine's type
of file. -/
def codegenPasses (machine : Machine) : Except CompileError (List (Pass m)) :=
  if machine.arch.fileTypes.contains machine.fileType then
    .ok ((if machine.optLevel = .o0 then [] else [.fold]) ++ [machine.emitter])
  else .error .badFileType

/-- The passes that a stage adds. -/
def stagePasses (machine : Machine) : Stage → Except CompileError (List (Pass m))
  | .lto => .ok ltoPasses
  | .codegen => machine.codegenPasses

end Machine

end ComputeScript
