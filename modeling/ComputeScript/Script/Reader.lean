import ComputeScript.Script
import ComputeScript.Token.Lexer
import ComputeScript.Word

/-!
# From tokens to a script

A script is a list of items: directives, exports, globals and functions.  `readItems` reads them
and `Script.ofItems` puts a script together from them.  A `Reader` takes tokens from the front of
a list and carries the proof that what it leaves is no longer than what it was given, which is
why reading ends.  `Script.read` is the whole way from a text to a script.
-/

namespace ComputeScript

/-! ### Faults -/

/-- What a reader looked for. -/
inductive Wanted where
  | str
  | name
  | symbol
  | int
  | token (t : Token)
  deriving DecidableEq, Repr

/-- What is wrong at a token. -/
inductive ParseFault where
  | expected (wanted : Wanted) (found : Token)
  | topLevel (found : Token)
  | duplicateModule
  | badVersion (value : Int)
  | badLevel (value : Int)
  | badExport
  | badInternal
  | badSignature (bits : Int) (kernel : String)
  | badWord (value : Int)
  | badIndex (value : Int)
  | noInst (func : String) (found : Token)
  | unknownInst (mnemonic : String)
  deriving DecidableEq, Repr

/-- A fault and the byte at which its token starts, or tokens that end too early. -/
inductive ParseError where
  | endOfInput
  | fault (pos : Nat) (fault : ParseFault)
  deriving DecidableEq, Repr

/-- The punctuation that a reader can look for, as it is written. -/
def Token.punctuation : Token → String
  | .lparen => "("
  | .rparen => ")"
  | .lbrace => "\x7b"
  | .rbrace => "\x7d"
  | .equal => "="
  | .arrow => "->"
  | t => t.kind

/-- What was looked for, in words. -/
def Wanted.text : Wanted → String
  | str => "a string"
  | name => "a name"
  | symbol => "'@name'"
  | int => "an integer"
  | token t => "'" ++ t.punctuation ++ "'"

namespace ParseFault

/-- A bit set in hexadecimal; a negative one stands for its 64-bit two's complement. -/
def bitsText (bits : Int) : String :=
  "0x" ++ Text.hexDigits (bits % 0x10000000000000000).toNat

/-- The wording of a fault. -/
def message : ParseFault → String
  | expected wanted found => "expected " ++ wanted.text ++ ", found " ++ found.describe
  | topLevel found => "unexpected " ++ found.describe ++ " at top level"
  | duplicateModule => "duplicate 'module' directive"
  | badVersion value => s!"version {value} is out of range"
  | badLevel value => s!"unknown optimization level {value}"
  | badExport => "expected 'var', 'func' or 'foreach' after 'export'"
  | badInternal => "expected 'global' or 'func' after 'internal'"
  | badSignature bits kernel => "invalid foreach signature " ++ bitsText bits ++ s!" for '{kernel}'"
  | badWord value => s!"{value} does not fit in i32"
  | badIndex value => s!"expected a non-negative index, found {value}"
  | noInst func found => s!"expected an instruction in '@{func}', found " ++ found.describe
  | unknownInst mnemonic => s!"unknown instruction '{mnemonic}'"

end ParseFault

/-- The wording of a parse error. -/
def ParseError.message : ParseError → String
  | endOfInput => "parse error: unexpected end of input"
  | fault pos f => s!"parse error: at byte {pos}: " ++ f.message

/-! ### Readers -/

/-- A function that reads a value off the front of a list of tokens. -/
def Reader (α : Type) : Type :=
  (tokens : List Located) →
    Except ParseError (α × { rest : List Located // rest.length ≤ tokens.length })

namespace Reader

variable {α β : Type}

/-- The reader that takes nothing. -/
protected def pure (a : α) : Reader α := fun tokens => .ok (a, ⟨tokens, Nat.le_refl _⟩)

/-- One reader after another. -/
protected def bind (p : Reader α) (f : α → Reader β) : Reader β := fun tokens =>
  match p tokens with
  | .error e => .error e
  | .ok (a, ⟨rest, h⟩) =>
    match f a rest with
    | .error e => .error e
    | .ok (b, ⟨rest', h'⟩) => .ok (b, ⟨rest', Nat.le_trans h' h⟩)

instance : Monad Reader where
  pure := Reader.pure
  bind := Reader.bind

/-- The reader that fails at a token. -/
def fail (t : Located) (fault : ParseFault) : Reader α := fun _ => .error (.fault t.pos fault)

/-- The next token. -/
def next : Reader Located
  | [] => .error .endOfInput
  | t :: rest => .ok (t, ⟨rest, Nat.le_succ _⟩)

/-- A string. -/
def str : Reader String := do
  let t ← next
  match t.token with
  | .str text => pure text
  | found => fail t (.expected .str found)

/-- A name, which may be written as a symbol. -/
def name : Reader String := do
  let t ← next
  match t.token with
  | .ident name => pure name
  | .symbol name => pure name
  | found => fail t (.expected .name found)

/-- A symbol. -/
def symbol : Reader String := do
  let t ← next
  match t.token with
  | .symbol name => pure name
  | found => fail t (.expected .symbol found)

/-- An integer. -/
def int : Reader Int := do
  let t ← next
  match t.token with
  | .int value => pure value
  | found => fail t (.expected .int found)

/-- The given punctuation. -/
def punctuation (wanted : Token) : Reader Unit := do
  let t ← next
  if t.token = wanted then pure () else fail t (.expected (.token wanted) t.token)

/-- A 32-bit word.  It may be written as a signed or as an unsigned number. -/
def word : Reader Int32 := do
  let t ← next
  match t.token with
  | .int value =>
    match Word.ofNumber? value with
    | some word => pure word
    | none => fail t (.badWord value)
  | found => fail t (.expected .int found)

/-- A count, an index, an offset or a depth. -/
def index : Reader UInt32 := do
  let t ← next
  match t.token with
  | .int value =>
    match Word.index? value with
    | some index => pure index
    | none => fail t (.badIndex value)
  | found => fail t (.expected .int found)

/-- An index after the given token, and 0 where that token does not come next. -/
def indexAfter (mark : Token) : Reader UInt32
  | [] => .ok (0, ⟨[], Nat.le_refl _⟩)
  | t :: rest =>
    if t.token = mark then (do let _ ← next; index : Reader UInt32) (t :: rest)
    else .ok (0, ⟨t :: rest, Nat.le_refl _⟩)

/-- Whether a token is an integer. -/
def isInt : Token → Bool
  | .int _ => true
  | _ => false

/-- An index, and 0 where no integer comes next. -/
def offset : Reader UInt32
  | [] => .ok (0, ⟨[], Nat.le_refl _⟩)
  | t :: rest =>
    if isInt t.token then index (t :: rest) else .ok (0, ⟨t :: rest, Nat.le_refl _⟩)

end Reader

/-! ### Functions and globals -/

open Reader in
/-- The operand of the instruction whose mnemonic is the token `t`. -/
def readInst (t : Located) (mnemonic : String) : Reader (Inst String) :=
  match BinOp.ofMnemonic? mnemonic with
  | some op => pure (.binary op)
  | none =>
    match mnemonic with
    | "i32.const" => return .const (← word)
    | "local.get" => return .localGet (← index)
    | "local.set" => return .localSet (← index)
    | "local.tee" => return .localTee (← index)
    | "global.get" => return .globalGet (← symbol)
    | "global.set" => return .globalSet (← symbol)
    | "i32.load" => return .load (← offset)
    | "i32.store" => return .store (← offset)
    | "i32.eqz" => return .eqz
    | "call" => return .call (← symbol)
    | "block" => return .block
    | "loop" => return .loop
    | "end" => return .close
    | "br" => return .br (← index)
    | "br_if" => return .brIf (← index)
    | "drop" => return .drop
    | "return" => return .ret
    | _ => fail t (.unknownInst mnemonic)

/-- The instructions of the function `func`, up to its closing brace. -/
def readBody (func : String) : Reader (List (Inst String))
  | [] => .error .endOfInput
  | t :: rest =>
    match t.token with
    | .rbrace => .ok ([], ⟨rest, Nat.le_succ _⟩)
    | .ident mnemonic =>
      match readInst t mnemonic rest with
      | .error e => .error e
      | .ok (inst, ⟨rest', h⟩) =>
        match readBody func rest' with
        | .error e => .error e
        | .ok (body, ⟨rest'', h'⟩) =>
          .ok (inst :: body, ⟨rest'', by simp only [List.length_cons]; omega⟩)
    | found => .error (.fault t.pos (.noInst func found))
termination_by tokens => tokens.length

open Reader in
/-- A global, after the word that announces it. -/
def readGlobal (linkage : Linkage) : Reader Global := do
  let name ← symbol
  punctuation .equal
  return { name, linkage, init := ← word }

open Reader in
/-- A function, after the word that announces it. -/
def readFunc (linkage : Linkage) : Reader Func := do
  let name ← symbol
  punctuation .lparen
  let params ← index
  punctuation .rparen
  let results ← indexAfter .arrow
  let locals ← indexAfter (.keyword .locals)
  punctuation .lbrace
  return { name, linkage, params, results, locals, body := ← readBody name }

/-! ### Items -/

/-- An item of a script. -/
inductive Item where
  | moduleId (id : String)
  | version (version : UInt32)
  | optLevel (level : OptLevel)
  | library (name : String)
  | exportVar (name : String)
  | exportFunc (name : String)
  | exportKernel (kernel : Kernel)
  | global (global : Global)
  | func (func : Func)
  deriving DecidableEq, Repr

namespace Item

/-- Whether an item gives the id of the module. -/
def isModuleId : Item → Bool
  | moduleId _ => true
  | _ => false

def moduleId? : Item → Option String
  | moduleId id => some id
  | _ => none

def version? : Item → Option UInt32
  | version v => some v
  | _ => none

def optLevel? : Item → Option OptLevel
  | optLevel level => some level
  | _ => none

def library? : Item → Option String
  | library name => some name
  | _ => none

def exportVar? : Item → Option String
  | exportVar name => some name
  | _ => none

def exportFunc? : Item → Option String
  | exportFunc name => some name
  | _ => none

def exportKernel? : Item → Option Kernel
  | exportKernel kernel => some kernel
  | _ => none

def global? : Item → Option Global
  | global g => some g
  | _ => none

def func? : Item → Option Func
  | func f => some f
  | _ => none

end Item

open Reader in
/-- What is exported, after the word that announces it. -/
def readExport : Reader Item := do
  let kind ← next
  match kind.token with
  | .keyword .var => return .exportVar (← name)
  | .keyword .func => return .exportFunc (← name)
  | .keyword .foreach =>
    let kernel ← name
    let bits ← int
    match Signature.ofBits? bits.toNat with
    | some signature =>
      if 0 ≤ bits then return .exportKernel ⟨kernel, signature⟩
      else fail kind (.badSignature bits kernel)
    | none => fail kind (.badSignature bits kernel)
  | _ => fail kind .badExport

open Reader in
/-- A private definition, after the word that announces it. -/
def readInternal : Reader Item := do
  let kind ← next
  match kind.token with
  | .keyword .global => return .global (← readGlobal .internal)
  | .keyword .func => return .func (← readFunc .internal)
  | _ => fail kind .badInternal

open Reader in
/-- The item that begins with the token `t`. -/
def readItem (t : Located) : Reader Item :=
  match t.token with
  | .keyword .moduleId => return .moduleId (← str)
  | .keyword .version => do
    let value ← int
    match Word.index? value with
    | some version => return .version version
    | none => fail t (.badVersion value)
  | .keyword .optLevel => do
    let value ← int
    match OptLevel.ofInt? value with
    | some level => return .optLevel level
    | none => fail t (.badLevel value)
  | .keyword .library => return .library (← str)
  | .keyword .exports => readExport
  | .keyword .global => return .global (← readGlobal .external)
  | .keyword .func => return .func (← readFunc .external)
  | .keyword .internal => readInternal
  | found => fail t (.topLevel found)

/-- The items of a list of tokens.  Only one may give the id of the module, and `named` says
whether one has done so before. -/
def readItems (named : Bool) : List Located → Except ParseError (List Item)
  | [] => .ok []
  | t :: rest =>
    match readItem t rest with
    | .error e => .error e
    | .ok (item, ⟨rest', _h⟩) =>
      if named && item.isModuleId then .error (.fault t.pos .duplicateModule)
      else
        match readItems (named || item.isModuleId) rest' with
        | .error e => .error e
        | .ok items => .ok (item :: items)
termination_by tokens => tokens.length
decreasing_by
  simp only [List.length_cons]
  omega

/-! ### Scripts -/

/-- What can go wrong between a text and a script. -/
inductive ReadError where
  | lex (e : LexError)
  | parse (e : ParseError)
  deriving DecidableEq, Repr

/-- The wording of a read error. -/
def ReadError.message : ReadError → String
  | lex e => e.message
  | parse e => e.message

namespace Script

/-- The script that items make up.  Definitions and exports keep their order, of repeated settings
the last one counts, and a script always has an export table. -/
def ofItems (items : List Item) : Script where
  module :=
    { id := (items.filterMap Item.moduleId?).getLastD "script"
      globals := items.filterMap Item.global?
      funcs := items.filterMap Item.func? }
  exports :=
    some
      { vars := items.filterMap Item.exportVar?
        funcs := items.filterMap Item.exportFunc?
        kernels := items.filterMap Item.exportKernel? }
  optLevel := (items.filterMap Item.optLevel?).getLastD .o3
  version := (items.filterMap Item.version?).getLastD 0
  library := (items.filterMap Item.library?).getLast?

/-- The script that a text holds. -/
def read (source : String) : Except ReadError Script :=
  match Token.lex source with
  | .error e => .error (.lex e)
  | .ok tokens =>
    match readItems false tokens with
    | .error e => .error (.parse e)
    | .ok items => .ok (ofItems items)

end Script

/-- The module that a text holds, without its metadata. -/
def Module.read (source : String) : Except ReadError Module :=
  (Script.read source).map Script.module

end ComputeScript
