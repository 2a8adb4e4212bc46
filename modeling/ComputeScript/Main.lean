import ComputeScript.Command.Arguments

/-!
# The program

The outermost layer: the file system of the machine as `Files IO`, and `main`, which reads the
arguments, executes the command and prints what it answers.
-/

namespace ComputeScript

/-- Whether an action succeeds. -/
def succeeds (act : IO Unit) : IO Bool := do
  try
    act
    return true
  catch _ => return false

/-- The type of an entry, if it can be told. -/
def typeOf? (metadata : IO IO.FS.Metadata) : IO (Option IO.FS.FileType) := do
  try return some (← metadata).type
  catch _ => return none

/-- The entries of a directory, none if it cannot be listed. -/
def entriesOf (path : Path) : IO (List IO.FS.DirEntry) := do
  try return (← ((← IO.currentDir) / path).readDir).toList
  catch _ => return []

/-- The bytes of an entry that is a file, be it by way of links.  One that cannot be read is left
out, unless it is a library. -/
def readEntry? (entry : IO.FS.DirEntry) : IO (Option Bytes) := do
  if (← typeOf? entry.path.metadata) != some .file then return none
  try return some (← IO.FS.readBinFile entry.path).toList
  catch e =>
    if (Library.nameOf? entry.fileName).isSome then throw e else return none

/-- The directory at a path.  Links to directories in it are not followed, and a directory that
cannot be listed counts as empty. -/
partial def readTree (path : Path) : IO Tree := do
  let entries ← entriesOf path
  return .dir (← entries.filterMapM fun entry => do
    if (← typeOf? entry.path.symlinkMetadata) == some .dir then
      return some (entry.fileName, ← readTree (path ++ "/" ++ entry.fileName))
    else return (← readEntry? entry).map fun bytes => (entry.fileName, .file bytes))

/-- Creates a new file in a directory, with some number in its name. -/
def createStaged (dir : Path) : IO Path := do
  let path := dir ++ "/" ++ s!".tmp{← IO.rand 0 999999999}"
  let _ ← IO.FS.Handle.mk path .writeNew
  return path

instance : Files IO where
  read path := do
    try return some (← IO.FS.readBinFile path).toList
    catch _ => return none
  tree path := do
    if path.isEmpty then return none
    if ← ((← IO.currentDir) / path).isDir then return some (← readTree path) else return none
  makeDirs path := succeeds (IO.FS.createDirAll path)
  stage dir := do
    try return some (← createStaged dir)
    catch _ => return none
  fill path bytes := succeeds (IO.FS.writeBinFile path ⟨bytes.toArray⟩)
  flush path := succeeds do (← IO.FS.Handle.mk path .append).flush
  rename source target := succeeds (IO.FS.rename source target)
  discard path := do let _ ← succeeds (IO.FS.removeFile path)

/-- All bytes of the standard input. -/
def readStdin : IO Bytes := do
  return (← (← IO.getStdin).readBinToEnd).toList

/-- The number of steps that a run may take, which is more than any run takes in practice. -/
def maxSteps : Nat := 1000000000000000000

end ComputeScript

open ComputeScript in
/-- Executes the command that the arguments hold. -/
def main (arguments : List String) : IO UInt32 := do
  match Command.ofArguments? arguments with
  | none =>
    IO.eprint Command.usage
    return 2
  | some command =>
    match ← (command.execute maxSteps readStdin).run with
    | .ok text =>
      IO.print text
      return 0
    | .error e =>
      IO.eprint (Command.report e.causes)
      return 1
