import ComputeScript.Export
import ComputeScript.Module

/-!
# Scripts

A `Script` is what is compiled: a module with its export table and the settings that the source
text gives.  The stages of a compilation change the module in it.
-/

namespace ComputeScript

/-- How much effort goes into optimization. -/
inductive OptLevel where
  | o0
  | o1
  | o2
  | o3
  deriving DecidableEq, Repr

namespace OptLevel

/-- The number of a level. -/
def toNat : OptLevel → Nat
  | o0 => 0
  | o1 => 1
  | o2 => 2
  | o3 => 3

/-- The level with this number. -/
def ofInt? (n : Int) : Option OptLevel :=
  [o0, o1, o2, o3].find? fun level => (level.toNat : Int) == n

end OptLevel

/-- A module with its metadata. -/
structure Script where
  module : Module
  /-- what the script exports, if anything was said about it -/
  exports : Option ExportTable := none
  optLevel : OptLevel := .o3
  /-- the version of the compiler that the script asks for -/
  version : UInt32 := 0
  /-- the library that the script asks for -/
  library : Option String := none
  deriving DecidableEq, Repr

end ComputeScript
