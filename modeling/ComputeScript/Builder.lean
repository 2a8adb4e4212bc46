import ComputeScript.Compiler
import ComputeScript.Library.Bundled

/-!
# Building

A `Builder` links a script with a library and compiles it, for one target after another.  It makes
a new machine only when a build needs another configuration than the last one that it made a
machine for, and it loads its libraries once.
-/

namespace ComputeScript

/-- Why a build fails. -/
inductive BuildError where
  | load (e : LoadError)
  | noLibrary (name : String)
  | compile (e : CompileError)
  deriving DecidableEq, Repr

/-- The wording of a build error. -/
def BuildError.message : BuildError → String
  | load e => e.message
  | noLibrary name => s!"runtime library '{name}' is not available"
  | compile e => s!"compilation failed: {e.message}"

/-- A builder and what it keeps between builds. -/
structure Builder where
  /-- where libraries are found; without a path the bundled ones are used -/
  root : Option Path := none
  compiler : Compiler := {}
  /-- the configuration of the last machine that the builder made -/
  config : Option Config := none
  libraries : Option (List Library) := none
  /-- whether scripts are linked -/
  linking : Bool := true
  deriving DecidableEq, Repr

/-- A step of a build, in the states of the script, the builder and the sink, which all survive its
failure. -/
abbrev Building (τ : Type) (m : Type → Type) (α : Type) : Type :=
  ExceptT BuildError (StateT Script (StateT Builder (StateT τ m))) α

namespace Builder

variable {τ : Type} {m : Type → Type} [Monad m] [Files m]

/-- The configuration that a build of a script needs. -/
def configFor (script : Script) (triple : String) (fileType : FileType) : Config where
  triple := triple
  optLevel := script.optLevel
  fileType := fileType

/-- The builder with the machine of a configuration, which it may have already. -/
def configure (config : Config) (b : Builder) : Except CompileError Builder :=
  if b.config = some config ∧ b.compiler.machine.isSome then .ok b
  else
    (b.compiler.configure config).map fun compiler =>
      { b with compiler, config := some config }

/-- The libraries found at a root. -/
def loadFrom (root : Option Path) : m (Except LoadError (List Library)) :=
  match root with
  | none => return .ok Library.bundled
  | some path => do
    match ← Files.tree (m := m) path with
    | none => return .error (.noRoot path)
    | some tree => return Library.loadTree tree

/-- The libraries of the builder, which are loaded at most once with success. -/
def load : Building τ m (List Library) := do
  let b ← getThe Builder
  match b.libraries with
  | some libraries => return libraries
  | none =>
    match ← (loadFrom b.root : m (Except LoadError (List Library))) with
    | .error e => throw (.load e)
    | .ok libraries =>
      modifyThe Builder fun b => { b with libraries := some libraries }
      return libraries

/-- Links the script with the library that it asks for. -/
def link : Building τ m Unit := do
  let libraries ← load
  let preferred := (← getThe Script).library
  match Library.select? libraries preferred with
  | none => throw (.noLibrary (preferred.getD Library.defaultName))
  | some library => modifyThe Script fun s => s.link library

/-- Builds the script into a sink. -/
def buildInto (triple : String) (fileType : FileType) (sink : Sink (StateT τ m)) :
    Building τ m Unit := do
  match (← getThe Builder).configure (configFor (← getThe Script) triple fileType) with
  | .error e => throw (.compile e)
  | .ok b =>
    set b
    if b.linking then link
    let compile : Compiling Script (StateT τ m) Unit :=
      b.compiler.compile (.script ExportTable.entryPoints) sink
    let (result, script) ← (compile.run.run (← getThe Script) : StateT τ m _)
    set script
    match result with
    | .ok () => return
    | .error e => throw (.compile e)

/-- Builds a script into the file at a path. -/
def buildFile (b : Builder) (script : Script) (triple : String) (fileType : FileType)
    (output : Path) : m (Except BuildError Unit × Script × Builder) := do
  let build : Building Sink.OutputFile m Unit := buildInto triple fileType Sink.outputFile
  let (((result, script), b), file) ← ((build.run.run script).run b).run { path := output }
  let _ ← (file.drop : m _)
  return (result, script, b)

/-- Builds a script and gives the bytes of the artifact. -/
def buildBytes (b : Builder) (script : Script) (triple : String) (fileType : FileType) :
    m (Except BuildError Bytes × Script × Builder) := do
  let build : Building (Sink.Stream Bytes) m Unit :=
    buildInto triple fileType (Sink.stream Sink.memory)
  let (((result, script), b), stream) ← ((build.run.run script).run b).run { writer := [] }
  return (result.map fun _ => stream.writer, script, b)

end Builder

end ComputeScript
