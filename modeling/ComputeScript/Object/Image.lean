import ComputeScript.Module

/-!
# Object images

An `Image` is a module as a WebAssembly object holds it: function types without repetition,
functions with the index of their type, globals, exports, and bodies whose references are indices.
`Module.image` makes it; a reference stands for the last definition of its name.  It fails where
two exports would have one name, and where a reference has no definition.
-/

namespace ComputeScript

/-- Why a module has no image. -/
inductive ImageFault where
  | exportTaken (name : String)
  | undefined (name : String)
  deriving DecidableEq, Repr

/-- The wording of a fault. -/
def ImageFault.message : ImageFault → String
  | exportTaken name => s!"export name '{name}' is already taken"
  | undefined name => s!"reference to undefined symbol '@{name}'"

/-- The parameters and the results of a function, all of which are words. -/
structure FuncType where
  params : UInt32
  results : UInt32
  deriving DecidableEq, Repr

/-- The kinds of things that an image exports. -/
inductive ExportKind where
  | func
  | memory
  | global
  deriving DecidableEq, Repr

/-- An export of an image. -/
structure Exported where
  name : String
  kind : ExportKind
  index : Nat
  deriving DecidableEq, Repr

/-- A function of an image. -/
structure Code where
  typeIndex : Nat
  locals : UInt32
  body : List (Inst Nat)
  deriving DecidableEq, Repr

/-- A module in the shape of its object. -/
structure Image where
  types : List FuncType
  funcs : List Code
  /-- whether there is a memory, which has one page at first -/
  memory : Bool
  /-- the initial values of the globals -/
  globals : List Int32
  exports : List Exported
  deriving DecidableEq, Repr

/-- The type of a function of an image. -/
def Image.funcType? (image : Image) (index : Nat) : Option FuncType :=
  image.funcs[index]?.bind fun c => image.types[c.typeIndex]?

/-- The elements of a list in the order of their first occurrence. -/
def firstUses {α : Type} [DecidableEq α] (xs : List α) : List α :=
  xs.foldl (fun seen x => if x ∈ seen then seen else seen ++ [x]) []

/-- The index of the last occurrence of `name`. -/
def lastIndex? (names : List String) (name : String) : Option Nat :=
  ((names.zipIdx.filter fun p => p.1 == name).getLast?).map Prod.snd

/-- The index of the last occurrence of `name`, which must be there. -/
def lookup (names : List String) (name : String) : Except ImageFault Nat :=
  match lastIndex? names name with
  | some index => .ok index
  | none => .error (.undefined name)

/-- The type of a function. -/
def Func.type (f : Func) : FuncType := ⟨f.params, f.results⟩

/-- A function with its references resolved. -/
def Func.code (types : List FuncType) (funcs globals : List String) (f : Func) :
    Except ImageFault Code :=
  (f.body.mapM (Inst.resolve (lookup funcs) (lookup globals))).map fun body =>
    ⟨types.idxOf f.type, f.locals, body⟩

/-- The name under which the memory is exported. -/
def memoryName : String := "memory"

namespace Module

/-- The exports of a module: the memory if it is used, then the external globals, then the
external functions. -/
def exportList (m : Module) : List Exported :=
  (if m.usesMemory then [⟨memoryName, .memory, 0⟩] else []) ++
    (m.globals.zipIdx.filter fun p => p.1.isExternal).map (fun p => ⟨p.1.name, .global, p.2⟩) ++
    (m.funcs.zipIdx.filter fun p => p.1.isExternal).map (fun p => ⟨p.1.name, .func, p.2⟩)

/-- The image of a module. -/
def image (m : Module) : Except ImageFault Image :=
  let types := firstUses (m.funcs.map Func.type)
  match firstRepeat? [] (m.exportList.map Exported.name) with
  | some name => .error (.exportTaken name)
  | none =>
    (m.funcs.mapM (Func.code types (m.funcs.map Func.name) (m.globals.map Global.name))).map
      fun funcs =>
        { types, funcs
          memory := m.usesMemory
          globals := m.globals.map Global.init
          exports := m.exportList }

end Module

end ComputeScript
