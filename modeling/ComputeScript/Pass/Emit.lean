import ComputeScript.Object.Encode
import ComputeScript.Module.Printer
import ComputeScript.Pass
import ComputeScript.Script

/-!
# Emitters

The two passes that close code generation: `Pass.emitObject` emits the object of a module, and
`Pass.emitAssembly` its text under a heading of comments that name the target and the level of
optimization.  Neither changes the module.
-/

namespace ComputeScript

/-- A string in UTF-8. -/
def utf8 (s : String) : Bytes :=
  s.toByteArray.toList

/-- The assembly listing of a module. -/
def Module.listing (triple : String) (level : OptLevel) (m : Module) : String :=
  s!"; target: {triple}\n; opt: {level.toNat}\n" ++ m.text

namespace Pass

variable {m : Type → Type} [Monad m]

/-- Emits the object of the module. -/
def emitObject : Pass m :=
  .ofEmitter "emit-object" fun module =>
    match module.object with
    | .error fault => .error (module.invalid fault.message)
    | .ok bytes => .ok bytes

/-- Emits the assembly listing of the module. -/
def emitAssembly (triple : String) (level : OptLevel) : Pass m :=
  .ofEmitter "emit-assembly" fun module => .ok (utf8 (module.listing triple level))

end Pass

end ComputeScript
