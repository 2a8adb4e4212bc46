import ComputeScript.Module.Printer
import ComputeScript.Proofs.Token.Spelling

/-!
# The tokens of a printed module

The text of a module spells `Module.tokens`, provided that its names can be written
(`Module.spells_text`).
-/

namespace ComputeScript

open Token

/-! ### Pieces of a line -/

section

variable {s s' : String} {tokens tokens' : List Token}

theorem spells_blank : Spells Anything " " [] :=
  spells_space (c := ' ') rfl

theorem spells_newline : Spells Anything "\n" [] :=
  spells_space (c := '\n') rfl

/-- A blank closes what stands before it. -/
theorem Token.Spells.space (h : Spells Stops s tokens) {c : Char} (hspace : isSpace c = true)
    (hstop : isNameChar c = false) : Spells Anything (s ++ String.singleton c) tokens := by
  have happend := h.append (spells_space hspace) fun rest _ => by
    rw [String.toList_singleton]
    exact stops_cons hstop rest
  rwa [List.append_nil] at happend

theorem Token.Spells.blank (h : Spells Stops s tokens) : Spells Anything (s ++ " ") tokens :=
  h.space (c := ' ') rfl rfl

theorem Token.Spells.newline (h : Spells Stops s tokens) : Spells Anything (s ++ "\n") tokens :=
  h.space (c := '\n') rfl rfl

/-- A text that closes itself may stand in front of anything. -/
theorem Token.Spells.then {P : List Char → Prop} (h : Spells Anything s tokens)
    (h' : Spells P s' tokens') : Spells P (s ++ s') (tokens ++ tokens') :=
  h.append h' fun _ _ => trivial

theorem spells_index (n : UInt32) : Spells Stops (toString n.toNat) [.int n.toNat] := by
  have hlt := n.toNat_lt
  exact spells_nat (by omega)

theorem spells_value (v : Int32) : Spells Stops (toString v.toInt) [.int v.toInt] := by
  have hle := v.le_toInt
  have hlt := v.toInt_lt
  exact spells_int (by omega)

theorem spells_mnemonic (word : String) (h : isWord word = true)
    (hword : Keyword.ofSpelling? word = none) : Spells Stops word [.ident word] := by
  have hspells := spells_word h
  rwa [ofName, hword] at hspells

theorem spells_indexed (word : String) (h : isWord word = true)
    (hword : Keyword.ofSpelling? word = none) (n : UInt32) :
    Spells Stops (word ++ " " ++ toString n.toNat) [.ident word, .int n.toNat] :=
  (spells_mnemonic word h hword).blank.then (spells_index n)

theorem spells_reference (word : String) (h : isWord word = true)
    (hword : Keyword.ofSpelling? word = none) {name : String} (hname : IsSymbolName name) :
    Spells Stops (word ++ " @" ++ name) [.ident word, .symbol name] := by
  have htext : word ++ " @" ++ name = word ++ " " ++ ("@" ++ name) := by
    rw [show (" @" : String) = " " ++ "@" from rfl]
    simp only [String.append_assoc]
  rw [htext]
  exact (spells_mnemonic word h hword).blank.then (spells_symbol hname)

end

/-! ### Instructions -/

namespace Inst

/-- The tokens of an instruction. -/
def tokens : Inst String → List Token
  | const value => [.ident "i32.const", .int value.toInt]
  | localGet index => [.ident "local.get", .int index.toNat]
  | localSet index => [.ident "local.set", .int index.toNat]
  | localTee index => [.ident "local.tee", .int index.toNat]
  | globalGet target => [.ident "global.get", .symbol target]
  | globalSet target => [.ident "global.set", .symbol target]
  | load offset => [.ident "i32.load", .int offset.toNat]
  | store offset => [.ident "i32.store", .int offset.toNat]
  | binary op => [.ident op.mnemonic]
  | eqz => [.ident "i32.eqz"]
  | call target => [.ident "call", .symbol target]
  | block => [.ident "block"]
  | loop => [.ident "loop"]
  | close => [.ident "end"]
  | br depth => [.ident "br", .int depth.toNat]
  | brIf depth => [.ident "br_if", .int depth.toNat]
  | drop => [.ident "drop"]
  | ret => [.ident "return"]

/-- What an instruction refers to can be written. -/
def Printable (inst : Inst String) : Prop :=
  ∀ name, inst.reference? = some name → IsSymbolName name

theorem spells_text {inst : Inst String} (h : inst.Printable) :
    Spells Stops inst.text inst.tokens := by
  cases inst with
  | const v =>
    have hword : Spells Anything "i32.const " [.ident "i32.const"] :=
      (spells_mnemonic "i32.const" rfl rfl).blank
    exact hword.then (spells_value v)
  | localGet i => exact spells_indexed "local.get" rfl rfl i
  | localSet i => exact spells_indexed "local.set" rfl rfl i
  | localTee i => exact spells_indexed "local.tee" rfl rfl i
  | globalGet name => exact spells_reference "global.get" rfl rfl (h name rfl)
  | globalSet name => exact spells_reference "global.set" rfl rfl (h name rfl)
  | load o => exact spells_indexed "i32.load" rfl rfl o
  | store o => exact spells_indexed "i32.store" rfl rfl o
  | binary op => cases op <;> exact spells_mnemonic _ rfl rfl
  | eqz => exact spells_mnemonic "i32.eqz" rfl rfl
  | call name => exact spells_reference "call" rfl rfl (h name rfl)
  | block => exact spells_mnemonic "block" rfl rfl
  | loop => exact spells_mnemonic "loop" rfl rfl
  | close => exact spells_mnemonic "end" rfl rfl
  | br d => exact spells_indexed "br" rfl rfl d
  | brIf d => exact spells_indexed "br_if" rfl rfl d
  | drop => exact spells_mnemonic "drop" rfl rfl
  | ret => exact spells_mnemonic "return" rfl rfl

theorem spells_line {inst : Inst String} (depth : Nat) (h : inst.Printable) :
    Spells Anything (inst.line depth) inst.tokens := by
  have htext := (spells_spaces (2 * inst.depthOf depth)).then (spells_text h)
  exact htext.newline

end Inst

theorem spells_bodyLines (body : List (Inst String)) (depth : Nat)
    (h : ∀ inst ∈ body, inst.Printable) :
    Spells Anything (String.join (bodyLines depth body)) (body.flatMap Inst.tokens) := by
  induction body generalizing depth with
  | nil => exact spells_empty
  | cons inst body ih =>
    rw [bodyLines, String.join_cons, List.flatMap_cons]
    exact (Inst.spells_line depth (h inst List.mem_cons_self)).then
      (ih _ fun i hi => h i (List.mem_cons_of_mem inst hi))

/-! ### Definitions -/

/-- The tokens of the word before a definition. -/
def Linkage.tokens : Linkage → List Token
  | external => []
  | internal => [.keyword .internal]

theorem Linkage.spells_text (l : Linkage) : Spells Anything l.text l.tokens := by
  cases l with
  | external => exact spells_empty
  | internal =>
    have hword : Spells Stops "internal" [.keyword .internal] := spells_word rfl
    exact hword.blank

/-- The tokens of a global. -/
def Global.tokens (g : Global) : List Token :=
  g.linkage.tokens ++ [.keyword .global, .symbol g.name, .equal, .int g.init.toInt]

theorem Global.spells_text {g : Global} (h : IsSymbolName g.name) :
    Spells Anything g.text g.tokens := by
  have htext : g.text = g.linkage.text ++ (("global" ++ " ") ++ (("@" ++ g.name ++ " ") ++
      (("=" ++ " ") ++ (toString g.init.toInt ++ "\n")))) := by
    have hglobal : ("global @" : String) = "global" ++ " " ++ "@" := rfl
    have hequal : (" = " : String) = " " ++ "=" ++ " " := rfl
    change g.linkage.text ++ "global @" ++ g.name ++ " = " ++ toString g.init.toInt ++ "\n" = _
    rw [hglobal, hequal]
    simp only [String.append_assoc]
  have hword : Spells Stops "global" [.keyword .global] := spells_word rfl
  rw [htext]
  exact g.linkage.spells_text.then (hword.blank.then ((spells_symbol h).blank.then
    ((spells_equal.then spells_blank).then (spells_value g.init).newline)))

namespace Func

/-- The tokens of a clause that is left out for 0. -/
def clauseTokens (mark : Token) (n : UInt32) : List Token :=
  if n = 0 then [] else [mark, .int n.toNat]

/-- The tokens of a function. -/
def tokens (f : Func) : List Token :=
  f.linkage.tokens ++ [.keyword .func, .symbol f.name, .lparen, .int f.params.toNat, .rparen] ++
    clauseTokens .arrow f.results ++ clauseTokens (.keyword .locals) f.locals ++ [.lbrace] ++
    f.body.flatMap Inst.tokens ++ [.rbrace]

theorem spells_resultsText (f : Func) :
    Spells Stops f.resultsText (clauseTokens .arrow f.results) := by
  unfold resultsText clauseTokens
  by_cases h : f.results = 0
  · rw [if_pos h, if_pos h]
    exact spells_empty
  · rw [if_neg h, if_neg h]
    have hmark : Spells Anything " -> " [.arrow] :=
      (spells_blank.then spells_arrow).then spells_blank
    exact hmark.then (spells_index f.results)

theorem spells_localsText (f : Func) :
    Spells Stops f.localsText (clauseTokens (.keyword .locals) f.locals) := by
  unfold localsText clauseTokens
  by_cases h : f.locals = 0
  · rw [if_pos h, if_pos h]
    exact spells_empty
  · rw [if_neg h, if_neg h]
    have hword : Spells Stops "locals" [.keyword .locals] := spells_word rfl
    have hmark : Spells Anything " locals " [.keyword .locals] := spells_blank.then hword.blank
    exact hmark.then (spells_index f.locals)

theorem stops_localsText (f : Func) {rest : List Char} (h : Stops rest) :
    Stops (f.localsText.toList ++ rest) := by
  unfold localsText
  by_cases hlocals : f.locals = 0
  · rw [if_pos hlocals]
    exact h
  · rw [if_neg hlocals, String.toList_append, List.append_assoc]
    exact stops_cons (c := ' ') rfl _

/-- The text of a function, cut at the tokens. -/
theorem text_eq (f : Func) : f.text =
    f.linkage.text ++ ("func" ++ " ") ++ (("@" ++ f.name) ++ "(") ++
      (toString f.params.toNat ++ ")") ++
      (f.resultsText ++ f.localsText ++ (" " ++ "\x7b" ++ "\n")) ++
      String.join (bodyLines 1 f.body) ++ ("\x7d" ++ "\n") := by
  have hfunc : ("func @" : String) = "func" ++ " " ++ "@" := rfl
  have hbrace : (" \x7b\n" : String) = " " ++ "\x7b" ++ "\n" := rfl
  have hend : ("\x7d\n" : String) = "\x7d" ++ "\n" := rfl
  change f.linkage.text ++ "func @" ++ f.name ++ "(" ++ toString f.params.toNat ++ ")" ++
    f.resultsText ++ f.localsText ++ " \x7b\n" ++ String.join (bodyLines 1 f.body) ++ "\x7d\n" = _
  rw [hfunc, hbrace, hend]
  simp only [String.append_assoc]

theorem spells_text {f : Func} (hname : IsSymbolName f.name)
    (hreferences : ∀ name ∈ f.references, IsSymbolName name) :
    Spells Anything f.text f.tokens := by
  have hword : Spells Stops "func" [.keyword .func] := spells_word rfl
  have hsymbol : Spells Anything (("@" ++ f.name) ++ "(") [.symbol f.name, .lparen] :=
    (spells_symbol hname).append spells_lparen fun rest _ => stops_cons rfl rest
  have hparams : Spells Anything (toString f.params.toNat ++ ")")
      [.int f.params.toNat, .rparen] :=
    (spells_index f.params).append spells_rparen fun rest _ => stops_cons rfl rest
  have hclauses := f.spells_resultsText.append f.spells_localsText fun _ => f.stops_localsText
  have hopen : Spells Anything (" " ++ "\x7b" ++ "\n") [.lbrace] :=
    (spells_blank.then spells_lbrace).then spells_newline
  have hhead := hclauses.append hopen fun rest _ => stops_cons rfl _
  have hbody := spells_bodyLines f.body 1 fun inst hinst name href =>
    hreferences name (List.mem_filterMap.2 ⟨inst, hinst, href⟩)
  have hend := spells_rbrace.then spells_newline
  have hall := f.linkage.spells_text.then hword.blank |>.then hsymbol |>.then hparams |>.then hhead
    |>.then hbody |>.then hend
  rw [text_eq]
  simpa only [tokens, List.append_assoc, List.cons_append, List.nil_append, List.append_nil]
    using hall

end Func

/-! ### Modules -/

namespace Module

/-- Everything in a module can be written: its id as a string, and each name as a symbol. -/
structure Printable (m : Module) : Prop where
  id : ∀ c ∈ m.id.toList, c ≠ '"' ∧ c ≠ '\n'
  globals : ∀ g ∈ m.globals, IsSymbolName g.name
  funcs : ∀ f ∈ m.funcs, IsSymbolName f.name
  references : ∀ f ∈ m.funcs, ∀ name ∈ f.references, IsSymbolName name

/-- The tokens of a module. -/
def tokens (m : Module) : List Token :=
  [.keyword .moduleId, .str m.id] ++ m.globals.flatMap Global.tokens ++
    m.funcs.flatMap Func.tokens

theorem spells_text {m : Module} (h : m.Printable) : Spells Anything m.text m.tokens := by
  have htext : m.text = ("module" ++ " ") ++ (("\"" ++ m.id ++ "\"") ++ "\n") ++
      String.join (m.globals.map Global.text) ++
      String.join (m.funcs.map fun f => "\n" ++ f.text) := by
    have hmodule : ("module \"" : String) = "module" ++ " " ++ "\"" := rfl
    have hquote : ("\"\n" : String) = "\"" ++ "\n" := rfl
    change "module \"" ++ m.id ++ "\"\n" ++ _ ++ _ = _
    rw [hmodule, hquote]
    simp only [String.append_assoc]
  have hword : Spells Stops "module" [.keyword .moduleId] := spells_word rfl
  have hid : Spells Anything ("\"" ++ m.id ++ "\"") [.str m.id] :=
    spells_str h.id
  have hglobals : Spells Anything (String.join (m.globals.map Global.text))
      (m.globals.flatMap Global.tokens) :=
    Spells.join fun g hg => Global.spells_text (h.globals g hg)
  have hfuncs : Spells Anything (String.join (m.funcs.map fun f => "\n" ++ f.text))
      (m.funcs.flatMap Func.tokens) :=
    Spells.join fun f hf =>
      spells_newline.then (Func.spells_text (h.funcs f hf) (h.references f hf))
  have hall := ((hword.blank.then (hid.then spells_newline)).then hglobals).then hfuncs
  rw [htext]
  simpa only [tokens, List.append_assoc, List.cons_append, List.nil_append, List.append_nil]
    using hall

end Module

end ComputeScript
