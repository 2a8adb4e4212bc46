import ComputeScript.Script
import ComputeScript.Stage
import ComputeScript.Text.Blank
import ComputeScript.Text.Fields

/-!
# Targets

A target is named by a triple `arch-vendor-os-env`, of which only the architecture is required.
`Arch.all` holds the registered architectures: `wasm32` emits objects and listings and needs
wrappers for kernels, and `usc` launches kernels natively and emits listings only.
`Machine.create` checks a configuration against them.
-/

namespace ComputeScript

/-- The type of an artifact. -/
inductive FileType where
  /-- a binary object -/
  | object
  /-- a textual listing -/
  | assembly
  deriving DecidableEq, Repr

/-- A registered architecture. -/
structure Arch where
  name : String
  cpus : List String
  features : List String
  fileTypes : List FileType
  deriving DecidableEq, Repr

namespace Arch

/-- The architecture that needs wrappers for kernels. -/
def wasm32 : Arch where
  name := "wasm32"
  cpus := ["generic", "mvp"]
  features := ["simd128", "bulk-memory"]
  fileTypes := [.object, .assembly]

/-- The architecture that launches kernels natively. -/
def usc : Arch where
  name := "usc"
  cpus := ["generic", "sgx544"]
  features := []
  fileTypes := [.assembly]

/-- The registered architectures. -/
def all : List Arch := [wasm32, usc]

/-- The registered architecture of this name. -/
def find? (name : String) : Option Arch :=
  all.find? fun arch => arch.name == name

end Arch

/-- Whether a triple, read as it stands, names a target that launches kernels natively. -/
def launchesKernels (triple : String) : Bool :=
  "usc".toList.isPrefixOf triple.toList

/-- A target triple: its text without blanks around it, and its components. -/
structure Triple where
  text : String
  arch : String
  vendor : String
  os : String
  env : Option String
  deriving DecidableEq, Repr

namespace Triple

/-- What a component reads as where it is missing. -/
def unknown : String := "unknown"

/-- The triple with this text and these components, of which the first must not be empty. -/
def ofFields? (text : String) : List (List Char) → Option Triple
  | [] => none
  | [] :: _ => none
  | [arch] => some ⟨text, .ofList arch, unknown, unknown, none⟩
  | [arch, vendor] => some ⟨text, .ofList arch, .ofList vendor, unknown, none⟩
  | [arch, vendor, os] => some ⟨text, .ofList arch, .ofList vendor, .ofList os, none⟩
  | [arch, vendor, os, env] =>
    some ⟨text, .ofList arch, .ofList vendor, .ofList os, some (.ofList env)⟩
  | _ => none

/-- The triple that a text names. -/
def parse? (text : String) : Option Triple :=
  ofFields? (Text.trim text) (Text.fields '-' (Text.trimChars text.toList))

end Triple

/-- What a target machine is made from. -/
structure Config where
  triple : String
  cpu : Option String := none
  /-- features to switch, each with a sign before its name -/
  features : List String := []
  optLevel : OptLevel := .o3
  fileType : FileType := .object
  deriving DecidableEq, Repr

/-- A target machine. -/
structure Machine where
  triple : Triple
  arch : Arch
  cpu : String
  features : List String
  optLevel : OptLevel
  fileType : FileType
  deriving DecidableEq, Repr

/-- Whether a feature is switched by one sign before a name that the architecture knows. -/
def Arch.knowsFeature (arch : Arch) (feature : String) : Bool :=
  match feature.toList with
  | '+' :: name => arch.features.contains (String.ofList name)
  | '-' :: name => arch.features.contains (String.ofList name)
  | _ => false

namespace Machine

/-- Whether the machine launches kernels natively. -/
def native (machine : Machine) : Bool :=
  launchesKernels machine.triple.text

/-- The machine of a configuration. -/
def create (config : Config) : Except CompileError Machine :=
  if (Text.trimChars config.triple.toList).isEmpty then .error .noTarget
  else
    match Triple.parse? config.triple with
    | none => .error .badTarget
    | some triple =>
      match Arch.find? triple.arch with
      | none => .error .badTarget
      | some arch =>
        let cpu := config.cpu.getD "generic"
        if arch.cpus.contains cpu && config.features.all arch.knowsFeature then
          .ok
            { triple, arch, cpu
              features := config.features
              optLevel := config.optLevel
              fileType := config.fileType }
        else .error .badTarget

end Machine

end ComputeScript
