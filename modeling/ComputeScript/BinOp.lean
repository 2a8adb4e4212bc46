/-!
# The binary operators

The sixteen operators on 32-bit words that a script can use.  `eval` gives an operator its
meaning: arithmetic wraps, a shift takes its amount modulo 32, a comparison answers 1 or 0, and
a division or remainder that has no answer is `none`, where running code traps.
-/

namespace ComputeScript

/-- A binary operator. -/
inductive BinOp where
  | add
  | sub
  | mul
  | divS
  | remS
  | and
  | or
  | xor
  | shl
  | shrS
  | eq
  | ne
  | ltS
  | leS
  | gtS
  | geS
  deriving DecidableEq, Repr

namespace BinOp

/-- All binary operators. -/
def all : List BinOp :=
  [add, sub, mul, divS, remS, and, or, xor, shl, shrS, eq, ne, ltS, leS, gtS, geS]

/-- The text of an operator. -/
def mnemonic : BinOp → String
  | add => "i32.add"
  | sub => "i32.sub"
  | mul => "i32.mul"
  | divS => "i32.div_s"
  | remS => "i32.rem_s"
  | and => "i32.and"
  | or => "i32.or"
  | xor => "i32.xor"
  | shl => "i32.shl"
  | shrS => "i32.shr_s"
  | eq => "i32.eq"
  | ne => "i32.ne"
  | ltS => "i32.lt_s"
  | leS => "i32.le_s"
  | gtS => "i32.gt_s"
  | geS => "i32.ge_s"

/-- The operator with this text. -/
def ofMnemonic? (s : String) : Option BinOp :=
  all.find? fun op => op.mnemonic == s

/-- The word that stands for a truth value. -/
def truth (b : Bool) : Int32 :=
  if b then 1 else 0

/-- The value of an operator, or `none` where it traps. -/
def eval (op : BinOp) (l r : Int32) : Option Int32 :=
  match op with
  | add => some (l + r)
  | sub => some (l - r)
  | mul => some (l * r)
  | divS => if r = 0 ∨ (l = Int32.minValue ∧ r = -1) then none else some (l / r)
  | remS => if r = 0 then none else some (l % r)
  | and => some (l &&& r)
  | or => some (l ||| r)
  | xor => some (l ^^^ r)
  | shl => some (l <<< r)
  | shrS => some (l >>> r)
  | eq => some (truth (l == r))
  | ne => some (truth (l != r))
  | ltS => some (truth (decide (l < r)))
  | leS => some (truth (decide (l ≤ r)))
  | gtS => some (truth (decide (r < l)))
  | geS => some (truth (decide (r ≤ l)))

end BinOp

end ComputeScript
