import ComputeScript.Files

/-!
# Sinks

A sink takes the artifact of one compilation.  It reports its `SinkState` up front, so that an
unusable sink is refused before any work is done, and the artifact is written in one call once it
is complete.  `Sink.stream` wraps a `Writer`; `Sink.outputFile` stages a temporary file beside its
destination and renames it, so that the destination is replaced at once or not at all.
-/

namespace ComputeScript

/-- What a sink says about itself. -/
inductive SinkState where
  /-- it must be prepared first -/
  | unprepared
  | ready
  /-- it has taken an artifact -/
  | finalized
  /-- preparing or writing has failed -/
  | failed
  deriving DecidableEq, Repr

/-- Why a sink refuses to go on. -/
inductive SinkFault where
  /-- the file system refused an operation -/
  | system
  /-- a file was to be written before it was prepared -/
  | notPrepared
  /-- a writer refused, for a reason of its own -/
  | writer (reason : String)
  deriving DecidableEq, Repr

/-- The wording of a fault, unless that is left to the file system. -/
def SinkFault.message? : SinkFault → Option String
  | system => none
  | notPrepared => some "output file was not prepared"
  | writer reason => some reason

/-- A destination for one artifact. -/
structure Sink (m : Type → Type) where
  state : m SinkState
  prepare : ExceptT SinkFault m Unit
  write : Bytes → ExceptT SinkFault m Unit

/-- A destination for bytes, with a state of type `ω`. -/
structure Writer (ω : Type) (m : Type → Type) where
  put : Bytes → ExceptT SinkFault (StateT ω m) Unit
  flush : ExceptT SinkFault (StateT ω m) Unit

namespace SinkState

/-- Whether a sink in this state can still take an artifact. -/
def isOpen : SinkState → Bool
  | unprepared => true
  | ready => true
  | finalized => false
  | failed => false

/-- The state after an artifact was written, or not. -/
def ofResult {α : Type} : Except SinkFault α → SinkState
  | .ok _ => finalized
  | .error _ => failed

end SinkState

namespace Sink

variable {m : Type → Type} [Monad m]

/-! ### Streams -/

/-- A stream: its state, which is ready from the start, and its writer. -/
structure Stream (ω : Type) where
  status : SinkState := .ready
  writer : ω
  deriving DecidableEq, Repr

/-- The sink that hands its artifact to a writer.  It needs no preparation. -/
def stream {ω : Type} (w : Writer ω m) : Sink (StateT (Stream ω) m) where
  state := return (← get).status
  prepare := pure ()
  write bytes := ExceptT.mk fun s => do
    let act : ExceptT SinkFault (StateT ω m) Unit := do
      w.put bytes
      w.flush
    let (result, writer) ← act.run.run s.writer
    return (result, ⟨.ofResult result, writer⟩)

/-- The writer that keeps all bytes. -/
def memory : Writer Bytes m where
  put bytes := modify (· ++ bytes)
  flush := pure ()

/-! ### Files -/

/-- An output file: its destination, its state, and the path of its staged file if it has one. -/
structure OutputFile where
  path : Path
  status : SinkState := .unprepared
  staged : Option Path := none
  deriving DecidableEq, Repr

namespace OutputFile

/-- The directory of the staged file. -/
def directory (f : OutputFile) : Path :=
  if f.path.parent.isEmpty then "." else f.path.parent

variable [Files m]

/-- Removes the staged file. -/
def drop (f : OutputFile) : m OutputFile := do
  match f.staged with
  | some staged =>
    Files.discard staged
    return { f with staged := none }
  | none => return f

/-- Stages a file, unless one is staged already. -/
def prepare (f : OutputFile) : m (Except SinkFault Unit × OutputFile) := do
  if f.status = .ready then return (.ok (), f)
  else
    match ← Files.stage (m := m) f.directory with
    | some staged =>
      let f ← f.drop
      return (.ok (), { f with status := .ready, staged := some staged })
    | none => return (.error .system, { f with status := .failed })

/-- Fills a staged file and renames it to a destination. -/
def deliver (staged destination : Path) (bytes : Bytes) : m Bool := do
  if ← Files.fill (m := m) staged bytes then
    if ← Files.flush (m := m) staged then Files.rename (m := m) staged destination
    else return false
  else return false

/-- Writes the staged file and renames it to the destination.  Whatever goes wrong, no staged file
is left. -/
def write (bytes : Bytes) (f : OutputFile) : m (Except SinkFault Unit × OutputFile) := do
  match f.staged with
  | none => return (.error .notPrepared, f)
  | some staged =>
    if ← deliver staged f.path bytes then
      return (.ok (), { f with status := .finalized, staged := none })
    else
      Files.discard staged
      return (.error .system, { f with status := .failed, staged := none })

end OutputFile

/-- The sink that writes an output file. -/
def outputFile [Files m] : Sink (StateT OutputFile m) where
  state := return (← get).status
  prepare := ExceptT.mk fun f => f.prepare
  write bytes := ExceptT.mk fun f => f.write bytes

/-! ### Where a sink keeps its state -/

/-- A sink whose state is kept somewhere in `m`. -/
def within {σ : Type} (load : m σ) (store : σ → m Unit) (sink : Sink (StateT σ m)) : Sink m :=
  let lens {α : Type} (act : StateT σ m α) : m α := do
    let (a, s) ← act.run (← load)
    store s
    return a
  { state := lens sink.state
    prepare := ExceptT.mk (lens sink.prepare.run)
    write := fun bytes => ExceptT.mk (lens (sink.write bytes).run) }

end Sink

end ComputeScript
