import ComputeScript.Text.Quoted

/-!
# What a script exports

An `ExportTable` lists what a script shows to the system that runs it: variables, functions to
call, and kernels.  A kernel is a function that is run once for every index of a range; its
`Signature` says whether it is given the input element, whether it is given the index, and
whether it returns the output element.  `Kernel.dispatchName` is the name that the running system
calls to launch a kernel over a whole range.
-/

namespace ComputeScript

/-- The shape of a kernel. -/
structure Signature where
  /-- whether the kernel takes the current input element -/
  takesIn : Bool
  /-- whether the kernel returns the output element -/
  returnsOut : Bool
  /-- whether the kernel takes the index of the element -/
  takesIndex : Bool
  deriving DecidableEq, Repr

namespace Signature

/-- The signature of a kernel that takes and returns nothing. -/
def empty : Signature := ⟨false, false, false⟩

/-- The bit set that a script writes for a signature: 1 for the input, 2 for the output and 8 for
the index. -/
def bits (s : Signature) : Nat :=
  s.takesIn.toNat + 2 * s.returnsOut.toNat + 8 * s.takesIndex.toNat

/-- All signatures, by increasing bits. -/
def all : List Signature :=
  [⟨false, false, false⟩, ⟨true, false, false⟩, ⟨false, true, false⟩, ⟨true, true, false⟩,
   ⟨false, false, true⟩, ⟨true, false, true⟩, ⟨false, true, true⟩, ⟨true, true, true⟩]

/-- The signature with these bits; there is none where another bit is set. -/
def ofBits? (n : Nat) : Option Signature :=
  all.find? fun s => s.bits == n

/-- Whether `s` has all that `t` has. -/
def contains (s t : Signature) : Bool :=
  (s.takesIn || !t.takesIn) && (s.returnsOut || !t.returnsOut) && (s.takesIndex || !t.takesIndex)

/-- The signature with all that `s` and `t` have. -/
def union (s t : Signature) : Signature :=
  ⟨s.takesIn || t.takesIn, s.returnsOut || t.returnsOut, s.takesIndex || t.takesIndex⟩

/-- The number of parameters that a kernel takes. -/
def params (s : Signature) : UInt32 :=
  (if s.takesIn then 1 else 0) + (if s.takesIndex then 1 else 0)

/-- The number of results that a kernel returns. -/
def results (s : Signature) : UInt32 :=
  if s.returnsOut then 1 else 0

/-- A signature as diagnostics show it: two hexadecimal digits. -/
def text (s : Signature) : String :=
  "0x0" ++ Text.hexDigits s.bits

end Signature

/-- A function that is run over a range. -/
structure Kernel where
  name : String
  signature : Signature
  deriving DecidableEq, Repr

namespace Kernel

/-- The name of the function that runs a kernel over a range. -/
def wrapperName (k : Kernel) : String :=
  k.name ++ ".expand"

/-- The name under which a kernel is launched: its own where the target launches kernels
natively, otherwise that of its wrapper. -/
def dispatchName (k : Kernel) (native : Bool) : String :=
  if native then k.name else k.wrapperName

end Kernel

/-- What a script exports, in source order and with repetitions. -/
structure ExportTable where
  vars : List String := []
  funcs : List String := []
  kernels : List Kernel := []
  deriving DecidableEq, Repr

namespace ExportTable

/-- Whether nothing is exported. -/
def isEmpty (t : ExportTable) : Bool :=
  t.vars.isEmpty && t.funcs.isEmpty && t.kernels.isEmpty

/-- The names that the running system itself calls. -/
def entryPoints : List String :=
  ["root", "init", ".rs.dtor", ".rs.info"]

/-- The names that must stay visible: the entry points, then the exported variables and
functions, then the name under which each kernel is launched. -/
def preserved (entryPoints : List String) (t : ExportTable) (native : Bool) : List String :=
  entryPoints ++ t.vars ++ t.funcs ++ t.kernels.map fun k => k.dispatchName native

end ExportTable

end ComputeScript
