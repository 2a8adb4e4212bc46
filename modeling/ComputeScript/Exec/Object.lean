import ComputeScript.Exec
import ComputeScript.Exec.FrameSize
import ComputeScript.Exec.Validate
import ComputeScript.Object.Decode

/-!
# Running an object

`runRoot` decodes an object, checks it, and calls the function that it exports under the name
`root`, on a memory of zeros and on globals with their initial values.  A function that is
too large for a frame is valid, and it only fails where it is called.
-/

namespace ComputeScript

/-- Why an object does not run to an answer. -/
inductive RunError where
  /-- it is no valid object -/
  | invalid
  | noRoot
  /-- its root is not a function that takes nothing and returns a word -/
  | rootShape
  /-- its root trapped, or ran out of budget or of room -/
  | failed
  deriving DecidableEq, Repr

/-- The wording of a run error. -/
def RunError.message : RunError → String
  | invalid => "failed to compile wasm artifact"
  | noRoot => "the script does not export a `root` function"
  | rootShape => "`root` must take no arguments and return an i32"
  | failed => "failed to execute root"

namespace Image

/-- A function of an image, ready to be run. -/
def procedure? (image : Image) (c : Code) : Option (Procedure Nat) :=
  image.types[c.typeIndex]?.map fun t =>
    ⟨t.params, t.results, c.locals, c.body, image.frameSize? t c⟩

/-- The functions of an image, by index. -/
def procedures (image : Image) : Array (Option (Procedure Nat)) :=
  (image.funcs.map image.procedure?).toArray

/-- What the functions of an image share at first. -/
def store (image : Image) : Store Nat where
  memory := if image.memory then Memory.page else ⟨#[]⟩
  globals := image.globals.zipIdx.map fun g => (g.2, g.1)

/-- The name of the function that a run calls. -/
def rootName : String := "root"

/-- The index of the function that is exported under the name `root`. -/
def root? (image : Image) : Option Nat :=
  (image.exports.find? fun e => e.name == rootName && e.kind == .func).map Exported.index

/-- Calls the root of an image. -/
def callRoot (fuel : Nat) (room : Room) (image : Image) : Except RunError Int32 :=
  match image.root? with
  | none => .error .noRoot
  | some index =>
    let procedures := image.procedures
    match procedures[index]?.join with
    | none => .error .noRoot
    | some p =>
      if p.params = 0 ∧ p.results = 1 then
        match call (fun i => procedures[i]?.join) fuel room p [] image.store with
        | (.done (value :: _), _) => .ok value
        | _ => .error .failed
      else .error .rootShape

end Image

/-- The room that the call of a root has.  The engine's stack, wasmi 0.51 in its default
configuration, takes 1000 calls, the root's included, and fewer than 1000000 words, one of which is
for the answer. -/
def rootRoom : Room where
  calls := 1000
  words := 999998

/-- Runs the root of an object with at most `fuel` steps. -/
def runRoot (fuel : Nat) (bytes : Bytes) : Except RunError Int32 :=
  match Image.decode? bytes with
  | none => .error .invalid
  | some image => if image.isValid then image.callRoot fuel rootRoom else .error .invalid

end ComputeScript
