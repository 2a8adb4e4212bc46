import ComputeScript.Pass

/-!
# Internalization

`Module.internalize` makes every external symbol internal whose name is not in a list of names to
keep.  It never makes a symbol external.
-/

namespace ComputeScript

namespace Linkage

/-- The linkage of a symbol after internalization. -/
def keepIf (kept : Bool) (l : Linkage) : Linkage :=
  if kept then l else internal

end Linkage

namespace Module

/-- The module with every symbol internal that is not in `keep`. -/
def internalize (keep : List String) (m : Module) : Module where
  id := m.id
  globals := m.globals.map fun g => { g with linkage := g.linkage.keepIf (keep.contains g.name) }
  funcs := m.funcs.map fun f => { f with linkage := f.linkage.keepIf (keep.contains f.name) }

/-- The number of symbols that internalization hides. -/
def hiddenCount (keep : List String) (m : Module) : Nat :=
  (m.externalNames.filter fun name => !keep.contains name).length

end Module

/-- Hides every external symbol that is not in `keep`. -/
def Pass.internalize {m : Type → Type} [Monad m] (keep : List String) : Pass m :=
  .ofFunction "internalize" fun module =>
    .ok (module.internalize keep, decide (0 < module.hiddenCount keep))

end ComputeScript
