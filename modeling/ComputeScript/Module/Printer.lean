import ComputeScript.Module

/-!
# The text of a module

`Module.text` writes a module in the form that the reader accepts: a line for the id, a line for
each global, and each function after an empty line with its body indented by the blocks around
each instruction.  Every part ends its line.
-/

namespace ComputeScript

namespace Linkage

/-- The word before an internal definition. -/
def text : Linkage → String
  | external => ""
  | internal => "internal "

end Linkage

namespace Inst

/-- The text of an instruction. -/
def text : Inst String → String
  | const value => s!"i32.const {value.toInt}"
  | localGet index => s!"local.get {index.toNat}"
  | localSet index => s!"local.set {index.toNat}"
  | localTee index => s!"local.tee {index.toNat}"
  | globalGet target => s!"global.get @{target}"
  | globalSet target => s!"global.set @{target}"
  | load offset => s!"i32.load {offset.toNat}"
  | store offset => s!"i32.store {offset.toNat}"
  | binary op => op.mnemonic
  | eqz => "i32.eqz"
  | call target => s!"call @{target}"
  | block => "block"
  | loop => "loop"
  | close => "end"
  | br depth => s!"br {depth.toNat}"
  | brIf depth => s!"br_if {depth.toNat}"
  | drop => "drop"
  | ret => "return"

/-- The depth at which an instruction is written, when those before it end at `depth`. -/
def depthOf (depth : Nat) : Inst String → Nat
  | close => max (depth - 1) 1
  | _ => depth

/-- The depth at which the instruction after this one starts. -/
def depthAfter (depth : Nat) : Inst String → Nat
  | close => max (depth - 1) 1
  | block => depth + 1
  | loop => depth + 1
  | _ => depth

end Inst

/-- The line of an instruction, two spaces for each level of depth. -/
def Inst.line (depth : Nat) (inst : Inst String) : String :=
  String.ofList (List.replicate (2 * inst.depthOf depth) ' ') ++ inst.text ++ "\n"

/-- The lines of a body whose first instruction comes at a depth. -/
def bodyLines (depth : Nat) : List (Inst String) → List String
  | [] => []
  | inst :: rest => inst.line depth :: bodyLines (inst.depthAfter depth) rest

namespace Global

/-- The line of a global. -/
def text (g : Global) : String :=
  s!"{g.linkage.text}global @{g.name} = {g.init.toInt}\n"

end Global

namespace Func

/-- The results clause, which is left out for none. -/
def resultsText (f : Func) : String :=
  if f.results = 0 then "" else s!" -> {f.results.toNat}"

/-- The locals clause, which is left out for none. -/
def localsText (f : Func) : String :=
  if f.locals = 0 then "" else s!" locals {f.locals.toNat}"

/-- The lines of a function. -/
def text (f : Func) : String :=
  s!"{f.linkage.text}func @{f.name}({f.params.toNat})" ++ f.resultsText ++ f.localsText ++
    " \x7b\n" ++ String.join (bodyLines 1 f.body) ++ "\x7d\n"

end Func

namespace Module

/-- The text of a module. -/
def text (m : Module) : String :=
  s!"module \"{m.id}\"\n" ++ String.join (m.globals.map Global.text) ++
    String.join (m.funcs.map fun f => "\n" ++ f.text)

end Module

end ComputeScript
