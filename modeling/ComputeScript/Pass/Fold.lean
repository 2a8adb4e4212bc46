import ComputeScript.Pass

/-!
# Constant folding

Two constants and an operator that has a value on them make one constant, and so do a constant and
a test for zero.  `foldBody` goes through a body once, from left to right, and folds at the end of
what it has written so far; a folded constant may be folded again by what follows.  An operator
that traps on its constants stays.
-/

namespace ComputeScript

variable {σ : Type}

/-- Writes one instruction after `out`, which is held in reverse, and counts a folding. -/
def foldPush (out : List (Inst σ) × Nat) (inst : Inst σ) : List (Inst σ) × Nat :=
  match inst, out with
  | .binary op, (.const r :: .const l :: rest, n) =>
    match op.eval l r with
    | some v => (.const v :: rest, n + 1)
    | none => (.binary op :: .const r :: .const l :: rest, n)
  | .eqz, (.const v :: rest, n) => (.const (BinOp.truth (v == 0)) :: rest, n + 1)
  | inst, (rest, n) => (inst :: rest, n)

/-- The folded body and the number of foldings. -/
def foldBody (body : List (Inst σ)) : List (Inst σ) × Nat :=
  let out := body.foldl foldPush ([], 0)
  (out.1.reverse, out.2)

namespace Func

/-- The function with its body folded. -/
def fold (f : Func) : Func :=
  { f with body := (foldBody f.body).1 }

/-- The number of foldings in a function. -/
def foldCount (f : Func) : Nat :=
  (foldBody f.body).2

end Func

namespace Module

/-- The module with all bodies folded. -/
def fold (m : Module) : Module :=
  { m with funcs := m.funcs.map Func.fold }

/-- The number of foldings in a module. -/
def foldCount (m : Module) : Nat :=
  m.funcs.foldr (fun f n => f.foldCount + n) 0

end Module

/-- Folds constants in every function. -/
def Pass.fold {m : Type → Type} [Monad m] : Pass m :=
  .ofFunction "constant-fold" fun module => .ok (module.fold, decide (0 < module.foldCount))

end ComputeScript
