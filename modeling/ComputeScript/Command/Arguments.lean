import ComputeScript.Command

/-!
# Command-line arguments

`Command.ofArguments?` reads a command from the arguments of the program.  An option that takes a
value has it in the next argument or, for a long option, behind an equals sign.  The output file
must be named; everything else has a default.
-/

namespace ComputeScript

namespace Command

/-- The options that take a value. -/
inductive ValueOption where
  | input
  | output
  | target
  | emit
  | libraries
  deriving DecidableEq, Repr

namespace ValueOption

/-- The option of this name. -/
def ofName? : String → Option ValueOption
  | "-i" => some input
  | "--input" => some input
  | "-o" => some output
  | "--output" => some output
  | "--target" => some target
  | "--emit" => some emit
  | "--runtime" => some libraries
  | _ => none

end ValueOption

/-- What has been read of a command; its output file may not have been named yet. -/
structure Draft where
  command : Command := { output := "" }
  named : Bool := false
  deriving DecidableEq, Repr

namespace Draft

/-- Sets the value of an option. -/
def setValue (d : Draft) (value : String) : ValueOption → Option Draft
  | .input => some { d with command := { d.command with input := some value } }
  | .output => some { command := { d.command with output := value }, named := true }
  | .target => some { d with command := { d.command with target := value } }
  | .emit =>
    match value with
    | "obj" => some { d with command := { d.command with fileType := .object } }
    | "asm" => some { d with command := { d.command with fileType := .assembly } }
    | _ => none
  | .libraries => some { d with command := { d.command with libraries := some value } }

/-- Sets a flag. -/
def setFlag (d : Draft) : String → Option Draft
  | "--no-lto" => some { d with command := { d.command with lto := false } }
  | "--run" => some { d with command := { d.command with runs := true } }
  | _ => none

/-- Reads an argument that holds an option and, behind an equals sign, its value. -/
def setPair (d : Draft) (argument : String) : Option Draft :=
  let cs := argument.toList
  match ValueOption.ofName? (String.ofList (cs.takeWhile (· != '='))), cs.dropWhile (· != '=') with
  | some option, '=' :: value => d.setValue (String.ofList value) option
  | _, _ => none

/-- Reads arguments. -/
def read (d : Draft) : List String → Option Draft
  | [] => some d
  | [argument] => (d.setFlag argument).or (d.setPair argument)
  | argument :: value :: rest =>
    match ValueOption.ofName? argument with
    | some option => (d.setValue value option).bind fun d => d.read rest
    | none =>
      ((d.setFlag argument).or (d.setPair argument)).bind fun d => d.read (value :: rest)

end Draft

/-- The command that the arguments of the program hold. -/
def ofArguments? (arguments : List String) : Option Command :=
  match (Draft.read {} arguments) with
  | some d => if d.named then some d.command else none
  | none => none

/-- How the program is used. -/
def usage : String :=
  "usage: [--input FILE] --output FILE [--target TRIPLE] [--emit obj|asm] [--runtime DIR] " ++
    "[--no-lto] [--run]\n"

/-- How a failure is shown: what went wrong, and below it the causes. -/
def report : List String → String
  | [] => ""
  | [top] => s!"Error: {top}\n"
  | top :: causes =>
    s!"Error: {top}\n\nCaused by:\n" ++
      String.join (causes.zipIdx.map fun (cause, i) =>
        if causes.length = 1 then s!"    {cause}\n" else s!"    {i}: {cause}\n")

end Command

end ComputeScript
