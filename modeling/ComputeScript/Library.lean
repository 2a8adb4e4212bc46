import ComputeScript.Files
import ComputeScript.Script.Reader

/-!
# Libraries

A library is a module that a script can be linked with.  `Library.loadTree` reads every library
file of a directory tree, in an order that does not depend on how directories are listed, and
stops at the first file that cannot be read.  `Library.select?` picks one by name, and
`Script.link` copies what the script does not define itself; `Script.linkCounting` also says how
much that is.
-/

namespace ComputeScript

/-- A module to link with, the name it goes by, and where it was found. -/
structure Library where
  name : String
  path : Path
  module : Module
  deriving DecidableEq, Repr

/-- Why libraries cannot be loaded. -/
inductive LoadError where
  | noRoot (root : Path)
  | notText
  | read (e : ReadError)
  deriving DecidableEq, Repr

/-- The wording of bytes that are no text. -/
def notTextMessage : String := "stream did not contain valid UTF-8"

/-- The wording of a load error. -/
def LoadError.message : LoadError → String
  | noRoot root => s!"runtime library directory was not found at {root}"
  | notText => "failed to read source: " ++ notTextMessage
  | read e => e.message

namespace Library

/-- The ending of the name of a library file. -/
def ending : List Char := ".rsir".toList

/-- The name of a library in a file of this name: what is before the ending, if that is there and
something is before it. -/
def nameOf? (file : String) : Option String :=
  let cs := file.toList
  let stem := cs.take (cs.length - ending.length)
  if stem.isEmpty || stem ++ ending != cs then none else some (String.ofList stem)

/-- The text of some bytes. -/
def textOf (bytes : Bytes) : Except LoadError String :=
  match String.fromUTF8? ⟨bytes.toArray⟩ with
  | some text => .ok text
  | none => .error .notText

/-- The library of a file, if its name is that of a library file. -/
def ofFile? (path : List String) (bytes : Bytes) : Option (Except LoadError Library) :=
  match path.getLast?.bind nameOf? with
  | none => none
  | some name =>
    some (do
      let text ← textOf bytes
      match Module.read text with
      | .error e => .error (.read e)
      | .ok module => .ok ⟨name, "/".intercalate path, module⟩)

/-- The libraries of a tree. -/
def loadTree (t : Tree) : Except LoadError (List Library) :=
  ((t.files []).filterMap fun (path, bytes) => ofFile? path bytes).mapM id

/-- The library that is picked where no name is given. -/
def defaultName : String := "clcore"

/-- The first library of the preferred name. -/
def select? (libraries : List Library) (preferred : Option String) : Option Library :=
  libraries.find? fun l => l.name == preferred.getD defaultName

end Library

namespace Module

/-- The module with one more global, unless it defines that name. -/
def addGlobal (m : Module) (g : Global) : Module :=
  if m.defines g.name then m else { m with globals := m.globals ++ [g] }

/-- The module with one more function, unless it defines that name. -/
def addFunc (m : Module) (f : Func) : Module :=
  if m.defines f.name then m else { m with funcs := m.funcs ++ [f] }

/-- The module with what it does not define copied from a library. -/
def link (m library : Module) : Module :=
  library.funcs.foldl addFunc (library.globals.foldl addGlobal m)

/-- Adds a definition whose name is not defined, and counts it. -/
def addCounting {α : Type} (nameOf : α → String) (add : Module → α → Module)
    (linked : Module × Nat) (a : α) : Module × Nat :=
  if linked.1.defines (nameOf a) then linked else (add linked.1 a, linked.2 + 1)

/-- The linked module, and the number of definitions that were copied. -/
def linkCounting (m library : Module) : Module × Nat :=
  library.funcs.foldl (addCounting Func.name addFunc)
    (library.globals.foldl (addCounting Global.name addGlobal) (m, 0))

end Module

/-- The script with its module linked. -/
def Script.link (s : Script) (library : Library) : Script :=
  { s with module := s.module.link library.module }

/-- The script with its module linked, and the number of definitions that were copied. -/
def Script.linkCounting (s : Script) (library : Library) : Script × Nat :=
  let linked := s.module.linkCounting library.module
  ({ s with module := linked.1 }, linked.2)

end ComputeScript
