import ComputeScript.Proofs.Module.Spelling
import ComputeScript.Proofs.Word
import ComputeScript.Script.Reader

/-!
# The grammar of scripts

What tokens write what, stated without the reader.  `Inst.WrittenAs`, `Global.WrittenAs`,
`Func.WrittenAs` and `Item.WrittenAs` have a constructor for each form; `WrittenInOrder` puts forms
one after another.  `Script.MadeOf` says which script a list of items makes up.  The tokens of a
printed module are one way to write it (`Module.writtenInOrder_tokens`).
-/

namespace ComputeScript

/-! ### Definitions -/

/-- A name is written as an identifier or as a symbol. -/
inductive Token.Names : Token → String → Prop
  | ident (name : String) : Names (.ident name) name
  | symbol (name : String) : Names (.symbol name) name

/-- What is written one after another. -/
inductive WrittenInOrder {α : Type} (written : α → List Token → Prop) :
    List α → List Token → Prop
  | nil : WrittenInOrder written [] []
  | cons {a : α} {as : List α} {tokens more : List Token} (h : written a tokens)
      (hs : WrittenInOrder written as more) : WrittenInOrder written (a :: as) (tokens ++ more)

/-- An instruction is written as its mnemonic and its operands.  An offset may be left out where
it is 0. -/
inductive Inst.WrittenAs : Inst String → List Token → Prop
  | const {n : Int} {v : Int32} (h : Word.StandsFor n v) :
      WrittenAs (.const v) [.ident "i32.const", .int n]
  | localGet (index : UInt32) :
      WrittenAs (.localGet index) [.ident "local.get", .int index.toNat]
  | localSet (index : UInt32) :
      WrittenAs (.localSet index) [.ident "local.set", .int index.toNat]
  | localTee (index : UInt32) :
      WrittenAs (.localTee index) [.ident "local.tee", .int index.toNat]
  | globalGet (target : String) :
      WrittenAs (.globalGet target) [.ident "global.get", .symbol target]
  | globalSet (target : String) :
      WrittenAs (.globalSet target) [.ident "global.set", .symbol target]
  | load : WrittenAs (.load 0) [.ident "i32.load"]
  | loadAt (offset : UInt32) : WrittenAs (.load offset) [.ident "i32.load", .int offset.toNat]
  | store : WrittenAs (.store 0) [.ident "i32.store"]
  | storeAt (offset : UInt32) : WrittenAs (.store offset) [.ident "i32.store", .int offset.toNat]
  | binary (op : BinOp) : WrittenAs (.binary op) [.ident op.mnemonic]
  | eqz : WrittenAs .eqz [.ident "i32.eqz"]
  | call (target : String) : WrittenAs (.call target) [.ident "call", .symbol target]
  | block : WrittenAs .block [.ident "block"]
  | loop : WrittenAs .loop [.ident "loop"]
  | close : WrittenAs .close [.ident "end"]
  | br (depth : UInt32) : WrittenAs (.br depth) [.ident "br", .int depth.toNat]
  | brIf (depth : UInt32) : WrittenAs (.brIf depth) [.ident "br_if", .int depth.toNat]
  | drop : WrittenAs .drop [.ident "drop"]
  | ret : WrittenAs .ret [.ident "return"]

/-- A clause gives a number after its mark.  It may be left out where the number is 0. -/
inductive ClauseWrittenAs (mark : Token) : UInt32 → List Token → Prop
  | absent : ClauseWrittenAs mark 0 []
  | present (n : UInt32) : ClauseWrittenAs mark n [mark, .int n.toNat]

inductive Global.WrittenAs : Global → List Token → Prop
  | mk (name : String) (linkage : Linkage) {n : Int} {v : Int32} (h : Word.StandsFor n v) :
      WrittenAs ⟨name, linkage, v⟩
        (linkage.tokens ++ [.keyword .global, .symbol name, .equal, .int n])

inductive Func.WrittenAs : Func → List Token → Prop
  | mk (name : String) (linkage : Linkage) (params : UInt32) {results locals : UInt32}
      {body : List (Inst String)} {arrow more code : List Token}
      (hresults : ClauseWrittenAs .arrow results arrow)
      (hlocals : ClauseWrittenAs (.keyword .locals) locals more)
      (hbody : WrittenInOrder Inst.WrittenAs body code) :
      WrittenAs ⟨name, linkage, params, results, locals, body⟩
        (linkage.tokens ++ .keyword .func :: .symbol name :: .lparen :: .int params.toNat ::
          .rparen :: (arrow ++ (more ++ .lbrace :: (code ++ [.rbrace]))))

/-! ### Items -/

/-- A signature is written as its bits, and has no others than these three. -/
inductive Item.WrittenAs : Item → List Token → Prop
  | moduleId (id : String) : WrittenAs (.moduleId id) [.keyword .moduleId, .str id]
  | version (version : UInt32) :
      WrittenAs (.version version) [.keyword .version, .int version.toNat]
  | optLevel (level : OptLevel) :
      WrittenAs (.optLevel level) [.keyword .optLevel, .int level.toNat]
  | library (name : String) : WrittenAs (.library name) [.keyword .library, .str name]
  | exportVar {t : Token} {name : String} (h : t.Names name) :
      WrittenAs (.exportVar name) [.keyword .exports, .keyword .var, t]
  | exportFunc {t : Token} {name : String} (h : t.Names name) :
      WrittenAs (.exportFunc name) [.keyword .exports, .keyword .func, t]
  | exportKernel {t : Token} {name : String} (h : t.Names name) {bits : Nat}
      (hbits : bits ||| 0x0b = 0x0b) :
      WrittenAs (.exportKernel ⟨name, ⟨bits.testBit 0, bits.testBit 1, bits.testBit 3⟩⟩)
        [.keyword .exports, .keyword .foreach, t, .int bits]
  | global {g : Global} {tokens : List Token} (h : g.WrittenAs tokens) :
      WrittenAs (.global g) tokens
  | func {f : Func} {tokens : List Token} (h : f.WrittenAs tokens) : WrittenAs (.func f) tokens

/-! ### Scripts -/

/-- A setting has the value that the last item of its kind gives it, and a default where there is
none. -/
def LastOf {α : Type} (setting : Item → Option α) (items : List Item) (default value : α) : Prop :=
  (∀ item ∈ items, setting item = none) ∧ value = default ∨
    ∃ before item after, items = before ++ item :: after ∧ setting item = some value ∧
      ∀ later ∈ after, setting later = none

/-- A script is made of items: of settings the last one counts, and everything else is kept in
order and with repetitions. -/
structure Script.MadeOf (script : Script) (items : List Item) : Prop where
  id : LastOf Item.moduleId? items "script" script.module.id
  version : LastOf Item.version? items 0 script.version
  optLevel : LastOf Item.optLevel? items .o3 script.optLevel
  library : LastOf (fun item => item.library?.map some) items none script.library
  globals : script.module.globals = items.filterMap Item.global?
  funcs : script.module.funcs = items.filterMap Item.func?
  exports : script.exports = some
    { vars := items.filterMap Item.exportVar?
      funcs := items.filterMap Item.exportFunc?
      kernels := items.filterMap Item.exportKernel? }

/-! ### Numbers and ids -/

theorem Signature.ofBits?_eq_some_iff {n : Nat} {s : Signature} :
    ofBits? n = some s ↔ n ||| 0x0b = 0x0b ∧ s = ⟨n.testBit 0, n.testBit 1, n.testBit 3⟩ := by
  unfold ofBits?
  constructor
  · intro h
    have hbits := List.find?_some h
    obtain rfl := beq_iff_eq.1 hbits
    obtain ⟨takesIn, returnsOut, takesIndex⟩ := s
    cases takesIn <;> cases returnsOut <;> cases takesIndex <;> decide
  · rintro ⟨h, rfl⟩
    have hlt : n < 0x0c := Nat.lt_succ_of_le (h ▸ Nat.left_le_or)
    have hall : ∀ n < 0x0c, n ||| 0x0b = 0x0b →
        all.find? (fun s => s.bits == n) = some ⟨n.testBit 0, n.testBit 1, n.testBit 3⟩ := by
      decide
    exact hall n hlt h

theorem OptLevel.ofInt?_eq_some_iff {n : Int} {level : OptLevel} :
    ofInt? n = some level ↔ n = level.toNat := by
  unfold ofInt?
  constructor
  · intro h
    have hlevel := List.find?_some h
    exact (beq_iff_eq.1 hlevel).symm
  · rintro rfl
    cases level <;> rfl

/-- If one item gives the id of the module, no other may. -/
theorem countP_isModuleId_cons_le_iff {named : Bool} {item : Item} {items : List Item} :
    named.toNat + (item :: items).countP Item.isModuleId ≤ 1 ↔
      (named && item.isModuleId) = false ∧
        (named || item.isModuleId).toNat + items.countP Item.isModuleId ≤ 1 := by
  rw [List.countP_cons]
  cases named <;> cases item.isModuleId <;> simp [Nat.add_comm]

/-! ### One way to write a module -/

section

variable {α : Type} {written : α → List Token → Prop}

theorem writtenInOrder_flatMap {tokens : α → List Token} (h : ∀ a, written a (tokens a))
    (as : List α) : WrittenInOrder written as (as.flatMap tokens) := by
  induction as with
  | nil => exact .nil
  | cons a as ih => exact .cons (h a) ih

theorem WrittenInOrder.append {as bs : List α} {tokens more : List Token}
    (h : WrittenInOrder written as tokens) (h' : WrittenInOrder written bs more) :
    WrittenInOrder written (as ++ bs) (tokens ++ more) := by
  induction h with
  | nil => exact h'
  | cons ha _ ih =>
    rw [List.append_assoc]
    exact .cons ha ih

theorem WrittenInOrder.map {β : Type} {written' : β → List Token → Prop} {f : α → β}
    (hf : ∀ a tokens, written a tokens → written' (f a) tokens) {as : List α} {tokens : List Token}
    (h : WrittenInOrder written as tokens) : WrittenInOrder written' (as.map f) tokens := by
  induction h with
  | nil => exact .nil
  | cons ha _ ih => exact .cons (hf _ _ ha) ih

end

theorem Inst.writtenAs_tokens (inst : Inst String) : inst.WrittenAs inst.tokens := by
  cases inst with
  | const v => exact .const (Word.standsFor_toInt v)
  | load offset => exact .loadAt offset
  | store offset => exact .storeAt offset
  | _ => constructor

theorem Func.clauseWrittenAs_clauseTokens (mark : Token) (n : UInt32) :
    ClauseWrittenAs mark n (clauseTokens mark n) := by
  unfold clauseTokens
  split_ifs with hn
  · rw [hn]
    exact .absent
  · exact .present n

theorem Global.writtenAs_tokens (g : Global) : g.WrittenAs g.tokens :=
  .mk g.name g.linkage (Word.standsFor_toInt g.init)

theorem Func.writtenAs_tokens (f : Func) : f.WrittenAs f.tokens := by
  unfold tokens
  simp only [List.append_assoc, List.cons_append, List.nil_append]
  exact .mk f.name f.linkage f.params (clauseWrittenAs_clauseTokens _ _)
    (clauseWrittenAs_clauseTokens _ _) (writtenInOrder_flatMap Inst.writtenAs_tokens f.body)

namespace Module

/-- The items of a module. -/
def items (m : Module) : List Item :=
  .moduleId m.id :: (m.globals.map .global ++ m.funcs.map .func)

theorem writtenInOrder_tokens (m : Module) : WrittenInOrder Item.WrittenAs m.items m.tokens := by
  have hglobals : WrittenInOrder Item.WrittenAs (m.globals.map .global)
      (m.globals.flatMap Global.tokens) :=
    (writtenInOrder_flatMap Global.writtenAs_tokens m.globals).map fun _ _ => .global
  have hfuncs : WrittenInOrder Item.WrittenAs (m.funcs.map .func)
      (m.funcs.flatMap Func.tokens) :=
    (writtenInOrder_flatMap Func.writtenAs_tokens m.funcs).map fun _ _ => .func
  rw [tokens, List.append_assoc]
  exact .cons (.moduleId m.id) (hglobals.append hfuncs)

end Module

end ComputeScript
