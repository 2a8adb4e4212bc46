import ComputeScript.Pass.Expand
import ComputeScript.Pass.Internalize
import ComputeScript.Target

/-!
# Hooks

A compilation calls a hook at each of its eight points.  A hook sees the machine and may change
the `Workpiece`: the script and, as long as they have not been executed, the passes of the stage.
If it fails, the compilation stops there.  `Hooks.none` does nothing; `Hooks.script` adapts the
compilation to scripts: it hides what need not stay visible, and makes the wrappers of kernels
right before whole-program optimization unless the machine launches kernels natively.
-/

namespace ComputeScript

/-- Why a hook fails. -/
inductive HookError where
  | noExports (module purpose : String)
  | pass (e : PassError)
  | refused (reason : String)
  deriving DecidableEq, Repr

/-- The wording of a hook's failure. -/
def HookError.message : HookError → String
  | noExports module purpose => s!"module '{module}' has no export table; cannot {purpose}"
  | pass e => e.message
  | refused reason => reason

/-- What hooks work on. -/
structure Workpiece (m : Type → Type) where
  script : Script
  passes : List (Pass m) := []

/-- What is done at a hook point; the changes survive a failure. -/
abbrev Hook (m : Type → Type) : Type :=
  ExceptT HookError (StateT (Workpiece m) m) Unit

/-- What is done at each hook point. -/
structure Hooks (m : Type → Type) where
  call : HookPoint → Machine → Hook m

namespace Hooks

variable {m : Type → Type} [Monad m]

/-- The hooks that do nothing. -/
def none : Hooks m where
  call _ _ := pure ()

/-- The export table of the script, without which the purpose cannot be met. -/
def requireExports (purpose : String) : ExceptT HookError (StateT (Workpiece m) m) ExportTable := do
  let script := (← get).script
  match script.exports with
  | some table => return table
  | .none => throw (.noExports script.module.id purpose)

/-- Adds the pass that hides what need not stay visible. -/
def hide (entryPoints : List String) (machine : Machine) : Hook m := do
  let table ← requireExports "compute preserved symbols"
  modify fun w =>
    { w with passes := w.passes ++ [.internalize (table.preserved entryPoints machine.native)] }

/-- Makes the wrappers of the exported kernels at once. -/
def expand (machine : Machine) : Hook m := do
  let table ← requireExports "expand foreach kernels"
  if machine.native || table.kernels.isEmpty then return
  else
    let w ← get
    let (result, module) ← (Pass.runAll [Pass.expand (m := m) true table.kernels]).run.run w.script.module
    set { w with script := { w.script with module } }
    match result with
    | .ok _ => return
    | .error e => throw (.pass e)

/-- The hooks for scripts, with the names that the running system itself calls. -/
def script (entryPoints : List String) : Hooks m where
  call point machine :=
    match point with
    | ⟨.lto, .beforeAdd⟩ => hide entryPoints machine
    | ⟨.lto, .beforeExecute⟩ => expand machine
    | _ => pure ()

end Hooks

end ComputeScript
