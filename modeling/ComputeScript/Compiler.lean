import ComputeScript.Hooks
import ComputeScript.Module.Verify
import ComputeScript.Sink
import ComputeScript.Target.Passes

/-!
# Compiling

`Compiler.compile` takes a script to an artifact in a sink.  It checks the machine, the sink and
the module, runs whole-program optimization if that is enabled, runs code generation, and writes
what that emitted.  The first thing that fails ends it, with the reason of that thing and no
other; what was changed in the script until then stays changed.
-/

namespace ComputeScript

/-- A compiler and its settings. -/
structure Compiler where
  machine : Option Machine := none
  /-- whether whole-program optimization is enabled -/
  lto : Bool := true
  deriving DecidableEq, Repr

/-- A step of a compilation in a state that survives its failure. -/
abbrev Compiling (σ : Type) (m : Type → Type) (α : Type) : Type :=
  ExceptT CompileError (StateT σ m) α

namespace Compiler

variable {m : Type → Type} [Monad m]

/-- The compiler with the machine of a configuration. -/
def configure (config : Config) (c : Compiler) : Except CompileError Compiler :=
  (Machine.create config).map fun machine => { c with machine := some machine }

/-- Calls the hook of a point. -/
def callHook (hooks : Hooks m) (machine : Machine) (point : HookPoint) :
    Compiling (Workpiece m) m Unit :=
  ExceptT.adapt (fun _ => .hook point) (hooks.call point machine)

/-- Adds the passes of a stage to those that hooks have added. -/
def addPasses (machine : Machine) (stage : Stage) : Compiling (Workpiece m) m Unit := do
  match machine.stagePasses (m := m) stage with
  | .error e => throw e
  | .ok passes => modify fun w => { w with passes := w.passes ++ passes }

/-- Runs the passes that were added. -/
def execute (stage : Stage) : Compiling (Workpiece m) m Summary := do
  let w ← get
  let (result, module) ← (Pass.runAll w.passes).run.run w.script.module
  set { w with script := { w.script with module } }
  match result with
  | .ok summary => return summary
  | .error _ => throw (.passes stage)

/-- A stage, from its first hook to its last; it gives what its passes emitted. -/
def runStage (hooks : Hooks m) (machine : Machine) (stage : Stage) :
    Compiling (Workpiece m) m Bytes := do
  callHook hooks machine ⟨stage, .beforeAdd⟩
  addPasses machine stage
  callHook hooks machine ⟨stage, .afterAdd⟩
  callHook hooks machine ⟨stage, .beforeExecute⟩
  let summary ← execute stage
  callHook hooks machine ⟨stage, .afterExecute⟩
  return summary.output

/-- A step that begins without passes and forgets its passes in the end. -/
def withoutPasses {α : Type} (act : Compiling (Workpiece m) m α) : Compiling Script m α :=
  ExceptT.mk fun script => do
    let (result, w) ← act.run.run { script }
    return (result, w.script)

/-- The machine, the sink and the module are fit for a compilation. -/
def prepare (c : Compiler) (sink : Sink m) : Compiling Script m Machine := do
  match c.machine with
  | none => throw .noMachine
  | some machine =>
    if (← sink.state).isOpen then
      ExceptT.adapt (fun _ => .prepareSink) (sink.prepare.run : StateT Script m _)
      match (← get).module.verify with
      | .ok () => return machine
      | .error _ => throw .badModule
    else throw .usedSink

/-- Compiles a script into a sink. -/
def compile (c : Compiler) (hooks : Hooks m) (sink : Sink m) : Compiling Script m Unit := do
  let machine ← c.prepare sink
  if c.lto then
    let _ ← withoutPasses (runStage hooks machine .lto)
  let artifact ← withoutPasses (runStage hooks machine .codegen)
  ExceptT.adapt (fun _ => .writeSink) ((sink.write artifact).run : StateT Script m _)

end Compiler

end ComputeScript
