import ComputeScript.Inst

/-!
# Modules

A module is a list of globals and a list of functions over 32-bit words, in source order.
Definitions refer to one another by name, and one name space serves both kinds.  Names may repeat
and references may dangle: `Module.verify` says which modules are well formed.  `Module.func?` and
`Module.global?` find the first definition of a name.
-/

namespace ComputeScript

/-- Whether a symbol can be seen from outside its module. -/
inductive Linkage where
  | external
  | internal
  deriving DecidableEq, Repr

/-- A global variable and its initial value. -/
structure Global where
  name : String
  linkage : Linkage := .external
  init : Int32 := 0
  deriving DecidableEq, Repr

/-- A function.  Its body does not hold the final end that the binary form gives it. -/
structure Func where
  name : String
  linkage : Linkage := .external
  params : UInt32 := 0
  results : UInt32 := 0
  /-- the number of locals besides the parameters -/
  locals : UInt32 := 0
  body : List (Inst String) := []
  deriving DecidableEq, Repr

/-- A module. -/
structure Module where
  id : String
  globals : List Global := []
  funcs : List Func := []
  deriving DecidableEq, Repr

namespace Global

/-- Whether a global is external. -/
def isExternal (g : Global) : Bool :=
  g.linkage == .external

end Global

namespace Func

/-- Whether a function is external. -/
def isExternal (f : Func) : Bool :=
  f.linkage == .external

/-- The names that a body refers to, in order and with repetitions. -/
def references (f : Func) : List String :=
  f.body.filterMap Inst.reference?

/-- Whether a body reads or writes memory. -/
def usesMemory (f : Func) : Bool :=
  f.body.any Inst.usesMemory

end Func

/-- The first name of a list that stands earlier in it or among `seen`. -/
def firstRepeat? (seen : List String) : List String → Option String
  | [] => none
  | name :: names =>
    if seen.contains name then some name else firstRepeat? (name :: seen) names

namespace Module

/-- The wording of a report that this module is invalid. -/
def invalid (m : Module) (reason : String) : String :=
  s!"invalid module '{m.id}': {reason}"

/-- The first global with this name. -/
def global? (m : Module) (name : String) : Option Global :=
  m.globals.find? fun g => g.name == name

/-- The first function with this name. -/
def func? (m : Module) (name : String) : Option Func :=
  m.funcs.find? fun f => f.name == name

/-- Whether a name is defined, as either kind. -/
def defines (m : Module) (name : String) : Bool :=
  (m.func? name).isSome || (m.global? name).isSome

/-- The names of all definitions, globals first. -/
def names (m : Module) : List String :=
  m.globals.map Global.name ++ m.funcs.map Func.name

/-- The names of the external definitions, globals first. -/
def externalNames (m : Module) : List String :=
  (m.globals.filter Global.isExternal).map Global.name ++
    (m.funcs.filter Func.isExternal).map Func.name

/-- Whether some function reads or writes memory. -/
def usesMemory (m : Module) : Bool :=
  m.funcs.any Func.usesMemory

/-- The number of definitions. -/
def size (m : Module) : Nat :=
  m.globals.length + m.funcs.length

end Module

end ComputeScript
