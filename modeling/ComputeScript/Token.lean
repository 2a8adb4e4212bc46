import ComputeScript.Text.Quoted

/-!
# Tokens of a script

A script is a list of tokens: names, symbols, integers, strings, punctuation and the eleven
reserved words.  Instruction mnemonics are plain names here; the reader gives them meaning.
`Keyword.spelling` and `Keyword.ofSpelling?` tie the reserved words to their text, and
`Token.describe` is how a diagnostic names a token that it did not expect.
-/

namespace ComputeScript

/-- The reserved words. -/
inductive Keyword where
  | moduleId
  | version
  | optLevel
  | library
  | exports
  | var
  | func
  | foreach
  | internal
  | global
  | locals
  deriving DecidableEq, Repr

namespace Keyword

/-- All reserved words. -/
def all : List Keyword :=
  [moduleId, version, optLevel, library, exports, var, func, foreach, internal, global, locals]

/-- The text of a reserved word. -/
def spelling : Keyword → String
  | moduleId => "module"
  | version => "version"
  | optLevel => "opt"
  | library => "library"
  | exports => "export"
  | var => "var"
  | func => "func"
  | foreach => "foreach"
  | internal => "internal"
  | global => "global"
  | locals => "locals"

/-- The reserved word with this text. -/
def ofSpelling? (s : String) : Option Keyword :=
  all.find? fun k => k.spelling == s

/-- A reserved word as a title, which is how diagnostics name it. -/
def title : Keyword → String
  | moduleId => "Module"
  | version => "Version"
  | optLevel => "Opt"
  | library => "Library"
  | exports => "Export"
  | var => "Var"
  | func => "Func"
  | foreach => "Foreach"
  | internal => "Internal"
  | global => "Global"
  | locals => "Locals"

end Keyword

/-- A token. -/
inductive Token where
  /-- a name that is not reserved -/
  | ident (name : String)
  /-- a reference to a function or a global, written with an `@` that is not part of the name -/
  | symbol (name : String)
  | int (value : Int)
  /-- a text that was written between double quotes -/
  | str (text : String)
  | lparen
  | rparen
  | lbrace
  | rbrace
  | equal
  | arrow
  | keyword (word : Keyword)
  deriving DecidableEq, Repr

namespace Token

/-- The name of a token's kind. -/
def kind : Token → String
  | ident _ => "Ident"
  | symbol _ => "Symbol"
  | int _ => "Int"
  | str _ => "Str"
  | lparen => "LParen"
  | rparen => "RParen"
  | lbrace => "LBrace"
  | rbrace => "RBrace"
  | equal => "Equal"
  | arrow => "Arrow"
  | keyword word => word.title

/-- A token as diagnostics show it: its kind, with what it carries in parentheses. -/
def describe (t : Token) : String :=
  match t with
  | ident name => t.kind ++ "(" ++ Text.quote name ++ ")"
  | symbol name => t.kind ++ "(" ++ Text.quote name ++ ")"
  | int value => t.kind ++ "(" ++ toString value ++ ")"
  | str text => t.kind ++ "(" ++ Text.quote text ++ ")"
  | _ => t.kind

end Token

/-- A token and the byte at which it starts. -/
structure Located where
  token : Token
  pos : Nat
  deriving DecidableEq, Repr

end ComputeScript
