import ComputeScript.Token

/-!
# From text to tokens

`lex` reads a text from left to right.  Blanks (five ASCII characters) and comments (a semicolon
and the rest of its line) separate tokens and mean nothing; at every other character `lexeme`
takes the longest lexeme that starts there.  A `Lexeme` of an input carries the proof that its
text and its rest make up the input, so nothing is lost, and that its text is not empty, so
lexing ends.  Positions count bytes of the UTF-8 form.
-/

namespace ComputeScript

/-- Why the longest lexeme at some place is no token. -/
inductive LexFault where
  /-- an `@` without a name -/
  | noName
  /-- an integer without digits -/
  | noDigits
  /-- a digit that the radix does not have -/
  | badDigit
  /-- a magnitude of `2 ^ 63` or more -/
  | tooLarge
  /-- a string that its line does not close -/
  | openString
  /-- a character that starts no token, shown by the first byte of its UTF-8 form -/
  | stray (shown : Char)
  deriving DecidableEq, Repr

/-- A fault and the byte at which its lexeme starts. -/
structure LexError where
  pos : Nat
  fault : LexFault
  deriving DecidableEq, Repr

namespace LexFault

/-- The wording of a fault. -/
def message : LexFault → String
  | noName => "expected a symbol name after '@'"
  | noDigits => "expected digits"
  | badDigit => "invalid integer literal: invalid digit found in string"
  | tooLarge => "invalid integer literal: number too large to fit in target type"
  | openString => "unterminated string literal"
  | stray shown => s!"unexpected character '{shown}'"

end LexFault

/-- The wording of a lexical error. -/
def LexError.message (e : LexError) : String :=
  s!"lex error at byte {e.pos}: {e.fault.message}"

namespace Token

/-! ### Classes of characters -/

/-- The characters that separate tokens. -/
def isSpace (c : Char) : Bool :=
  c == ' ' || c == '\t' || c == '\n' || c == '\x0c' || c == '\r'

/-- The characters that a name may begin with. -/
def isNameStart (c : Char) : Bool :=
  c.isAlpha || c == '_' || c == '.'

/-- The characters of a name; a symbol may begin with any of them. -/
def isNameChar (c : Char) : Bool :=
  c.isAlphanum || c == '_' || c == '.' || c == '$'

/-- The characters that a comment runs over. -/
def isCommentChar (c : Char) : Bool :=
  c != '\n'

/-- The characters of a string between its quotes. -/
def isStringChar (c : Char) : Bool :=
  c != '"' && c != '\n'

/-- The value of a hexadecimal digit of either case. -/
def digitValue? (c : Char) : Option Nat :=
  if '0' ≤ c ∧ c ≤ '9' then some (c.toNat - '0'.toNat)
  else if 'a' ≤ c ∧ c ≤ 'f' then some (c.toNat - 'a'.toNat + 10)
  else if 'A' ≤ c ∧ c ≤ 'F' then some (c.toNat - 'A'.toNat + 10)
  else none

/-- Whether `c` is a hexadecimal digit. -/
def isHexDigit (c : Char) : Bool :=
  (digitValue? c).isSome

/-- The number of bytes of a text in UTF-8. -/
def width : List Char → Nat
  | [] => 0
  | c :: cs => c.utf8Size + width cs

/-! ### Lexemes -/

/-- A token at the head of `input`, with the text that it was read from and what follows. -/
structure Lexeme (input : List Char) where
  token : Token
  text : List Char
  rest : List Char
  text_ne_nil : text ≠ []
  append_eq : text ++ rest = input

theorem Lexeme.rest_length_lt {input : List Char} (l : Lexeme input) :
    l.rest.length < input.length := by
  have h := congrArg List.length l.append_eq
  have hpos := List.length_pos_iff.2 l.text_ne_nil
  simp only [List.length_append] at h
  omega

/-- The number that digits of a radix write after `value`, most significant first. -/
def magnitude (radix : Nat) : List Char → Nat → Except LexFault Nat
  | [], value => .ok value
  | c :: cs, value =>
    match digitValue? c with
    | none => .error .badDigit
    | some d =>
      if d < radix then
        if value * radix + d < 0x8000000000000000 then magnitude radix cs (value * radix + d)
        else .error .tooLarge
      else .error .badDigit

/-- The sign that an integer may begin with, and what follows. -/
def takeSign : List Char → List Char × List Char
  | '-' :: cs => (['-'], cs)
  | cs => ([], cs)

/-- The mark that a hexadecimal integer begins with, and what follows. -/
def takeRadix : List Char → List Char × List Char
  | '0' :: 'x' :: cs => (['0', 'x'], cs)
  | '0' :: 'X' :: cs => (['0', 'X'], cs)
  | cs => ([], cs)

theorem takeSign_append (cs : List Char) : (takeSign cs).1 ++ (takeSign cs).2 = cs := by
  unfold takeSign
  split <;> rfl

theorem takeRadix_append (cs : List Char) : (takeRadix cs).1 ++ (takeRadix cs).2 = cs := by
  unfold takeRadix
  split <;> rfl

/-- An integer: a sign, a radix mark, and every hexadecimal digit that follows.  Without the mark
the radix is ten, and a digit above nine is a fault. -/
def lexInt (input : List Char) : Except LexFault (Lexeme input) :=
  let sign := (takeSign input).1
  let mark := (takeRadix (takeSign input).2).1
  let body := (takeRadix (takeSign input).2).2
  let digits := body.takeWhile isHexDigit
  if h : digits = [] then .error .noDigits
  else
    match magnitude (if mark.isEmpty then 10 else 16) digits 0 with
    | .error fault => .error fault
    | .ok value =>
      .ok
        { token := .int (if sign.isEmpty then (value : Int) else -(value : Int))
          text := sign ++ mark ++ digits
          rest := body.dropWhile isHexDigit
          text_ne_nil := by simp [h]
          append_eq := by
            simp only [sign, mark, digits, body, List.append_assoc, List.takeWhile_append_dropWhile,
              takeRadix_append, takeSign_append] }

/-- A minus sign begins an arrow or an integer. -/
def lexMinus : (cs : List Char) → Except LexFault (Lexeme ('-' :: cs))
  | '>' :: rest =>
    .ok
      { token := .arrow
        text := ['-', '>']
        rest := rest
        text_ne_nil := by simp
        append_eq := rfl }
  | cs => lexInt ('-' :: cs)

/-- A string: everything up to the next double quote, which must stand on the same line. -/
def lexStr (cs : List Char) : Except LexFault (Lexeme ('"' :: cs)) :=
  match h : cs.dropWhile isStringChar with
  | '"' :: rest =>
    .ok
      { token := .str (String.ofList (cs.takeWhile isStringChar))
        text := '"' :: (cs.takeWhile isStringChar ++ ['"'])
        rest := rest
        text_ne_nil := by simp
        append_eq := by
          have := List.takeWhile_append_dropWhile (p := isStringChar) (l := cs)
          rw [h] at this
          simpa using this }
  | _ => .error .openString

/-- A symbol: the name after an `@`, which must not be empty. -/
def lexSymbol (cs : List Char) : Except LexFault (Lexeme ('@' :: cs)) :=
  let name := cs.takeWhile isNameChar
  if name = [] then .error .noName
  else
    .ok
      { token := .symbol (String.ofList name)
        text := '@' :: name
        rest := cs.dropWhile isNameChar
        text_ne_nil := by simp
        append_eq := by simp [name] }

/-- The token that a name stands for. -/
def ofName (s : String) : Token :=
  match Keyword.ofSpelling? s with
  | some word => .keyword word
  | none => .ident s

/-- A name, as long as it can be. -/
def lexName (c : Char) (cs : List Char) : Lexeme (c :: cs) where
  token := ofName (String.ofList (c :: cs.takeWhile isNameChar))
  text := c :: cs.takeWhile isNameChar
  rest := cs.dropWhile isNameChar
  text_ne_nil := by simp
  append_eq := by simp

/-- A token that is one character. -/
def lexSingle (t : Token) (c : Char) (cs : List Char) : Lexeme (c :: cs) where
  token := t
  text := [c]
  rest := cs
  text_ne_nil := by simp
  append_eq := rfl

/-- The character whose code is the first byte of `c` in UTF-8. -/
def shownByte (c : Char) : Char :=
  match String.utf8EncodeChar c with
  | [] => c
  | b :: _ => Char.ofNat b.toNat

/-- The longest lexeme at a character that is neither blank nor the start of a comment. -/
def lexeme (c : Char) (cs : List Char) : Except LexFault (Lexeme (c :: cs)) :=
  if c = '(' then .ok (lexSingle .lparen c cs)
  else if c = ')' then .ok (lexSingle .rparen c cs)
  else if c = '\x7b' then .ok (lexSingle .lbrace c cs)
  else if c = '\x7d' then .ok (lexSingle .rbrace c cs)
  else if c = '=' then .ok (lexSingle .equal c cs)
  else if h : c = '-' then h ▸ lexMinus cs
  else if c.isDigit then lexInt (c :: cs)
  else if h : c = '"' then h ▸ lexStr cs
  else if h : c = '@' then h ▸ lexSymbol cs
  else if isNameStart c then .ok (lexName c cs)
  else .error (.stray (shownByte c))

/-! ### The whole text -/

/-- The tokens of a text whose first byte has the given position. -/
def lexFrom (pos : Nat) : List Char → Except LexError (List Located)
  | [] => .ok []
  | c :: cs =>
    if isSpace c then lexFrom (pos + 1) cs
    else if c = ';' then
      lexFrom (pos + 1 + width (cs.takeWhile isCommentChar)) (cs.dropWhile isCommentChar)
    else
      match lexeme c cs with
      | .error fault => .error ⟨pos, fault⟩
      | .ok l =>
        match lexFrom (pos + width l.text) l.rest with
        | .error e => .error e
        | .ok tokens => .ok (⟨l.token, pos⟩ :: tokens)
termination_by cs => cs.length
decreasing_by
  · simp
  · have := (List.dropWhile_sublist isCommentChar (l := cs)).length_le
    simp only [List.length_cons]
    omega
  · exact l.rest_length_lt

/-- The tokens of a text, each with the byte at which it starts. -/
def lex (source : String) : Except LexError (List Located) :=
  lexFrom 0 source.toList

end Token

end ComputeScript
