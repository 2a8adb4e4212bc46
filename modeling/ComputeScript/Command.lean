import ComputeScript.Builder
import ComputeScript.Exec.Object

/-!
# The command line

`Command.execute` does what the command line asks for: it reads a script from a file or from the
standard input, builds it into the output file, and may run the root of the object that it has
written.  It answers with what is to be printed.  `CommandError.causes` lists what went wrong
from the outside to the inside.
-/

namespace ComputeScript

/-- What the command line asks for. -/
structure Command where
  /-- the script; without a path it comes from the standard input -/
  input : Option Path := none
  output : Path
  target : String := "wasm32-unknown-unknown"
  fileType : FileType := .object
  /-- where libraries are found; without a path the bundled ones are used -/
  libraries : Option Path := none
  /-- whether whole-program optimization is enabled -/
  lto : Bool := true
  /-- whether the root of the object is run -/
  runs : Bool := false
  deriving DecidableEq, Repr

/-- What goes wrong with a command. -/
inductive CommandError where
  | noInput (path : Path)
  | inputNotText (path : Option Path)
  | read (e : ReadError)
  | noDirectory (path : Path)
  | build (id target : String) (e : BuildError)
  | noOutput (path : Path)
  | run (e : RunError)
  deriving DecidableEq, Repr

/-- What is behind a build error, from the outside to the inside. -/
def BuildError.causes (e : BuildError) : List String :=
  e.message ::
    match e with
    | load .notText => [notTextMessage]
    | compile e => [e.message]
    | _ => []

namespace CommandError

/-- Reading the script failed. -/
def noScript : Option Path → String
  | some path => s!"failed to read input file {path}"
  | none => "failed to read script from stdin"

/-- What went wrong, from the outside to the inside. -/
def causes : CommandError → List String
  | noInput path => [noScript (some path)]
  | inputNotText path => [noScript path, notTextMessage]
  | read e => ["failed to parse script", e.message]
  | noDirectory path => [s!"failed to create directory {path}"]
  | build id target e => s!"failed to compile '{id}' for {target}" :: e.causes
  | noOutput path => [s!"failed to read back {path}"]
  | run e => [e.message]

end CommandError

namespace Command

variable {m : Type → Type} [Monad m] [Files m]

/-- The text of the script. -/
def source (c : Command) (stdin : m Bytes) : ExceptT CommandError m String := do
  let bytes ← match c.input with
    | none => (stdin : m Bytes)
    | some path => do
      match ← (Files.read path : m (Option Bytes)) with
      | some bytes => pure bytes
      | none => throw (.noInput path)
  match Library.textOf bytes with
  | .ok text => return text
  | .error _ => throw (.inputNotText c.input)

/-- Makes the directory of the output file. -/
def makeDirectory (c : Command) : ExceptT CommandError m Unit := do
  let parent := Path.parent c.output
  if parent.isEmpty then return
  if ← (Files.makeDirs parent : m Bool) then return
  throw (.noDirectory parent)

/-- The builder that the command asks for. -/
def builder (c : Command) : Builder where
  root := c.libraries
  compiler := { lto := c.lto }

/-- Builds a script into the output file. -/
def build (c : Command) (script : Script) : ExceptT CommandError m Unit := do
  let (result, script, _) ← (c.builder.buildFile script c.target c.fileType c.output : m _)
  match result with
  | .ok () => return
  | .error e => throw (.build script.module.id c.target e)

/-- Runs the root of the object in the output file and says what it returned. -/
def runOutput (fuel : Nat) (c : Command) : ExceptT CommandError m String := do
  match ← (Files.read c.output : m (Option Bytes)) with
  | none => throw (.noOutput c.output)
  | some bytes =>
    match runRoot fuel bytes with
    | .ok value => return s!"root returned {value.toInt}\n"
    | .error e => throw (.run e)

/-- Does what the command asks for and answers with what is to be printed.  A run takes at most
`fuel` steps. -/
def execute (fuel : Nat) (c : Command) (stdin : m Bytes) : ExceptT CommandError m String := do
  let text ← c.source stdin
  match Script.read text with
  | .error e => throw (.read e)
  | .ok script =>
    c.makeDirectory
    c.build script
    if c.runs && c.fileType = .object then c.runOutput fuel else return ""

end Command

end ComputeScript
