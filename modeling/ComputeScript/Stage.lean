/-!
# Stages and hook points

A compilation has two stages, whole-program optimization and code generation.  Each stage first
collects its passes and then executes them, and a hook is called before and after both steps, so
there are eight points.  `CompileError` lists the reasons why a compilation fails; a failing hook
and a failing pass are told apart by where they failed.
-/

namespace ComputeScript

/-- A stage of a compilation. -/
inductive Stage where
  /-- whole-program optimization -/
  | lto
  | codegen
  deriving DecidableEq, Repr

/-- When, within a stage, a hook is called. -/
inductive Moment where
  | beforeAdd
  | afterAdd
  | beforeExecute
  | afterExecute
  deriving DecidableEq, Repr

/-- A point at which a hook is called. -/
structure HookPoint where
  stage : Stage
  moment : Moment
  deriving DecidableEq, Repr

namespace Stage

/-- The name of a stage's passes in diagnostics. -/
def title : Stage → String
  | lto => "LTO"
  | codegen => "code-generation"

end Stage

namespace Moment

/-- A moment in words. -/
def text : Moment → String
  | beforeAdd => "before adding"
  | afterAdd => "after adding"
  | beforeExecute => "before executing"
  | afterExecute => "after executing"

/-- All moments in the order of a compilation. -/
def all : List Moment := [beforeAdd, afterAdd, beforeExecute, afterExecute]

end Moment

namespace HookPoint

/-- The points of a stage in the order of a compilation. -/
def ofStage (s : Stage) : List HookPoint := Moment.all.map fun m => ⟨s, m⟩

/-- All points in the order of a compilation. -/
def all : List HookPoint := ofStage .lto ++ ofStage .codegen

end HookPoint

/-- Why a compilation fails. -/
inductive CompileError where
  /-- the configuration names no target -/
  | noTarget
  /-- the configuration describes no target machine -/
  | badTarget
  /-- there is no target machine yet -/
  | noMachine
  /-- the module is not well formed -/
  | badModule
  /-- the sink has taken an artifact or has failed -/
  | usedSink
  /-- the sink could not be prepared -/
  | prepareSink
  /-- the target cannot emit this type of file -/
  | badFileType
  | hook (point : HookPoint)
  | passes (stage : Stage)
  /-- the artifact could not be written -/
  | writeSink
  deriving DecidableEq, Repr

namespace CompileError

/-- All reasons, in the order of their codes. -/
def all : List CompileError :=
  [noTarget, badTarget, noMachine, badModule, usedSink, prepareSink, badFileType] ++
    HookPoint.all.map hook ++ [passes .lto, passes .codegen, writeSink]

/-- The wording of a reason. -/
def message : CompileError → String
  | noTarget => "invalid compiler configuration: no target triple was supplied"
  | badTarget => "failed to create the target machine for the supplied configuration"
  | noMachine => "cannot compile without a target machine (configure the compiler first)"
  | badModule => "failed to materialize the script module"
  | usedSink => "the output target is in an invalid state (already finalized or failed)"
  | prepareSink => "failed to prepare the output target for writing"
  | badFileType => "the target cannot construct code-generation passes for the requested output"
  | hook point => s!"hook failed {point.moment.text} {point.stage.title} passes"
  | passes .lto => "an LTO pass reported a failure"
  | passes .codegen => "a code-generation pass reported a failure"
  | writeSink => "failed to write the compiled artifact to the output target"

/-- The wording of the result of a compilation. -/
def status : Except CompileError Unit → String
  | .ok () => "successfully compiled"
  | .error e => e.message

end CompileError

end ComputeScript
