import ComputeScript.Module

/-!
# Passes

A `Pass m` transforms a module inside a monad `m`, where it may keep state of its own; it may fail,
and the module that it leaves behind then counts too.  `Pass.runAll` runs a list of passes in
order and stops at the first failure.  Its `Summary` says whether any pass changed the module and
holds what the passes emitted, one after the other.
-/

namespace ComputeScript

/-- Bytes of an artifact. -/
abbrev Bytes := List UInt8

/-- What a pass did. -/
inductive Outcome where
  | unchanged
  | changed
  | emitted (bytes : Bytes)
  deriving DecidableEq, Repr

/-- The failure of a pass. -/
structure PassError where
  pass : String
  reason : String
  deriving DecidableEq, Repr

/-- The wording of a failure. -/
def PassError.message (e : PassError) : String :=
  s!"pass '{e.pass}' failed: {e.reason}"

/-- What a run of passes did. -/
structure Summary where
  changed : Bool := false
  output : Bytes := []
  deriving DecidableEq, Repr

/-- The summary of a run that goes on with one more pass. -/
def Summary.add (s : Summary) : Outcome → Summary
  | .unchanged => s
  | .changed => { s with changed := true }
  | .emitted bytes => { s with output := s.output ++ bytes }

/-- A computation on a module that may fail; the module survives the failure. -/
abbrev Transforming (m : Type → Type) (α : Type) : Type :=
  ExceptT PassError (StateT Module m) α

/-- A named transformation of modules. -/
structure Pass (m : Type → Type) where
  name : String
  run : Transforming m Outcome

namespace Pass

variable {m : Type → Type} [Monad m]

/-- The pass that applies a function, which answers with the new module and whether it differs,
or with the reason why it left the module alone. -/
def ofFunction (name : String) (f : Module → Except String (Module × Bool)) : Pass m where
  name := name
  run := do
    match f (← get) with
    | .error reason => throw ⟨name, reason⟩
    | .ok (module, differs) =>
      set module
      return if differs then .changed else .unchanged

/-- The pass that only looks at the module and emits bytes. -/
def ofEmitter (name : String) (f : Module → Except String Bytes) : Pass m where
  name := name
  run := do
    match f (← get) with
    | .error reason => throw ⟨name, reason⟩
    | .ok bytes => return .emitted bytes

/-- Runs passes in order, continuing a summary. -/
def runFrom (s : Summary) : List (Pass m) → Transforming m Summary
  | [] => return s
  | pass :: passes => do
    let outcome ← pass.run
    runFrom (s.add outcome) passes

/-- Runs passes in order, up to the first failure. -/
def runAll (passes : List (Pass m)) : Transforming m Summary :=
  runFrom {} passes

end Pass

end ComputeScript
