import ComputeScript.Library

/-!
# The bundled libraries

Two libraries come with the compiler: `clcore`, with the signed minimum and maximum of two words,
a word clamped to a range, and the absolute value, and `clcore_debug`, with the same helpers, which
also count their calls in a global.  All definitions are internal, so a script keeps only the
helpers that it uses.
-/

namespace ComputeScript

namespace Library

/-- A private helper. -/
def helper (name : String) (params locals : UInt32) (body : List (Inst String)) : Func where
  name := name
  linkage := .internal
  params := params
  results := 1
  locals := locals
  body := body

/-- Chooses the first argument if the comparison holds and the second otherwise. -/
def choose (comparison : BinOp) : List (Inst String) :=
  [.localGet 0, .localSet 2,
   .block, .localGet 0, .localGet 1, .binary comparison, .brIf 0, .localGet 1, .localSet 2, .close,
   .localGet 2]

/-- Clamps the first argument to the range from the second to the third. -/
def clamp : List (Inst String) :=
  [.localGet 0, .localGet 1, .call "rs_max", .localGet 2, .call "rs_min"]

/-- The absolute value of the argument: its sign bit, spread over the word, is flipped out of it
and subtracted. -/
def absolute : List (Inst String) :=
  [.localGet 0, .const 31, .binary .shrS, .localSet 1,
   .localGet 0, .localGet 1, .binary .xor, .localGet 1, .binary .sub]

/-- The helpers, of which those that do not call another one begin with `enter`. -/
def helpers (enter : List (Inst String)) : List Func :=
  [helper "rs_min" 2 1 (enter ++ choose .leS),
   helper "rs_max" 2 1 (enter ++ choose .geS),
   helper "rs_clamp" 3 0 clamp,
   helper "rs_abs" 1 1 (enter ++ absolute)]

/-- The helpers. -/
def core : Module where
  id := "clcore"
  funcs := helpers []

/-- Counts a call. -/
def count : Func where
  name := "rs_count"
  linkage := .internal
  body := [.globalGet "rs_calls", .const 1, .binary .add, .globalSet "rs_calls"]

/-- The helpers that count their calls. -/
def coreDebug : Module where
  id := "clcore_debug"
  globals := [{ name := "rs_calls", linkage := .internal, init := 0 }]
  funcs := count :: helpers [.call "rs_count"]

/-- The bundled libraries. -/
def bundled : List Library :=
  [⟨"clcore", "clcore.rsir", core⟩, ⟨"clcore_debug", "clcore_debug.rsir", coreDebug⟩]

end Library

end ComputeScript
