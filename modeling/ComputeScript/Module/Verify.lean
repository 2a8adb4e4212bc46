import ComputeScript.Module

/-!
# Well-formed modules

`Module.verify` checks a module and reports its first defect: a name that is defined twice, or,
function by function, more than one result, a local or a branch out of range, a reference to
nothing of the right kind, or blocks that do not nest.  Operand types are not checked.
-/

namespace ComputeScript

/-- What is wrong with a module. -/
inductive Defect where
  | duplicate (name : String)
  | manyResults (func : String)
  | noLocal (func : String) (index : UInt32) (declared : Nat)
  | noGlobal (func target : String)
  | noFunc (func target : String)
  | unmatchedEnd (func : String)
  | farBranch (func : String) (depth : UInt32)
  | unclosed (func : String) (depth : Nat)
  deriving DecidableEq, Repr

namespace Defect

/-- The wording of a defect. -/
def message : Defect → String
  | duplicate name => s!"symbol '@{name}' is defined more than once"
  | manyResults func => s!"function '@{func}' returns more than one value"
  | noLocal func index declared =>
    s!"function '@{func}' uses local {index} but declares only {declared}"
  | noGlobal func target => s!"function '@{func}' refers to undefined global '@{target}'"
  | noFunc func target => s!"function '@{func}' calls undefined function '@{target}'"
  | unmatchedEnd func => s!"function '@{func}' has an unmatched 'end'"
  | farBranch func depth => s!"function '@{func}' branches to depth {depth} outside its blocks"
  | unclosed func depth => s!"function '@{func}' has {depth} unclosed block(s)"

end Defect

namespace Func

/-- The number of locals, parameters included.  This is the exact sum of the two counts, which is
less than 2 ^ 33; from 2 ^ 32 on a word does not hold it. -/
def localCount (f : Func) : Nat :=
  f.params.toNat + f.locals.toNat

/-- The first defect of a piece of the body of `f` that lies `depth` blocks deep. -/
def bodyDefect? (m : Module) (f : Func) (depth : Nat) : List (Inst String) → Option Defect
  | [] => if depth = 0 then none else some (.unclosed f.name depth)
  | inst :: rest =>
    match inst with
    | .localGet index | .localSet index | .localTee index =>
      if index.toNat < f.localCount then f.bodyDefect? m depth rest
      else some (.noLocal f.name index f.localCount)
    | .globalGet target | .globalSet target =>
      if (m.global? target).isSome then f.bodyDefect? m depth rest
      else some (.noGlobal f.name target)
    | .call target =>
      if (m.func? target).isSome then f.bodyDefect? m depth rest
      else some (.noFunc f.name target)
    | .block | .loop => f.bodyDefect? m (depth + 1) rest
    | .close =>
      match depth with
      | 0 => some (.unmatchedEnd f.name)
      | outer + 1 => f.bodyDefect? m outer rest
    | .br target | .brIf target =>
      if target.toNat ≤ depth then f.bodyDefect? m depth rest
      else some (.farBranch f.name target)
    | _ => f.bodyDefect? m depth rest

/-- The first defect of a function. -/
def defect? (m : Module) (f : Func) : Option Defect :=
  if 1 < f.results.toNat then some (.manyResults f.name) else f.bodyDefect? m 0 f.body

end Func

namespace Module

/-- The first defect of a module. -/
def defect? (m : Module) : Option Defect :=
  match firstRepeat? [] m.names with
  | some name => some (.duplicate name)
  | none => m.funcs.findSome? (Func.defect? m)

/-- Succeeds on a well-formed module and reports the first defect of any other. -/
def verify (m : Module) : Except Defect Unit :=
  match m.defect? with
  | some defect => .error defect
  | none => .ok ()

end Module

end ComputeScript
