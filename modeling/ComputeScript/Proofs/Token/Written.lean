import ComputeScript.Proofs.Token.Number

/-!
# How tokens are written

`Token.WrittenAs` says which texts a token can be written as, and `Token.Ends` that the lexeme with
such a text does not go on in what follows.  Then the text is read as this token
(`Token.WrittenAs.reads`).
-/

namespace ComputeScript

theorem Keyword.ofSpelling?_spelling (word : Keyword) :
    Keyword.ofSpelling? word.spelling = some word := by
  cases word <;> rfl

theorem Keyword.spelling_of_ofSpelling? {s : String} {word : Keyword}
    (h : Keyword.ofSpelling? s = some word) : word.spelling = s := by
  have hspelling := List.find?_some h
  exact beq_iff_eq.1 hspelling

namespace Token

/-! ### Texts of tokens -/

/-- Whether a text is a name, which is then a token by itself. -/
def isWord (s : String) : Bool :=
  match s.toList with
  | [] => false
  | c :: cs => isNameStart c && cs.all isNameChar

/-- A name of a symbol, which may be a reserved word or begin with a digit. -/
def IsSymbolName (name : String) : Prop :=
  name ≠ "" ∧ ∀ c ∈ name.toList, isNameChar c = true

/-- What a string token can hold. -/
def IsStringText (text : String) : Prop :=
  ∀ c ∈ text.toList, c ≠ '"' ∧ c ≠ '\n'

theorem isStringText_iff {text : String} :
    text.toList.all isStringChar = true ↔ IsStringText text :=
  List.all_eq_true.trans (forall₂_congr fun c _ => isStringChar_iff c)

instance : DecidablePred IsSymbolName := fun name =>
  decidable_of_iff (name ≠ "" ∧ name.toList.all isNameChar = true)
    (and_congr_right fun _ => List.all_eq_true)

instance : DecidablePred IsStringText := fun _ =>
  decidable_of_iff _ isStringText_iff

/-- The parts of the text of an integer: a sign or none, the mark of a hexadecimal integer or none,
and digits, the first of which may be zeros. -/
structure IntText (sign mark digits : List Char) (n : Nat) : Prop where
  sign_eq : sign = ['-'] ∨ sign = []
  mark_eq : mark = ['0', 'x'] ∨ mark = ['0', 'X'] ∨ mark = []
  digits_ne_nil : digits ≠ []
  denotes : Denotes (radixOf mark) digits n
  lt : n < 0x8000000000000000

/-- A token can be written as a text. -/
inductive WrittenAs : Token → String → Prop
  | ident {name : String} (hname : isWord name = true)
      (hword : ∀ word : Keyword, word.spelling ≠ name) : WrittenAs (.ident name) name
  | symbol {name : String} (hname : IsSymbolName name) : WrittenAs (.symbol name) ("@" ++ name)
  | int {sign mark digits : List Char} {n : Nat} (h : IntText sign mark digits n) :
      WrittenAs (.int (signed sign n)) (String.ofList (sign ++ (mark ++ digits)))
  | str {text : String} (htext : IsStringText text) : WrittenAs (.str text) ("\"" ++ text ++ "\"")
  | lparen : WrittenAs .lparen "("
  | rparen : WrittenAs .rparen ")"
  | lbrace : WrittenAs .lbrace "\x7b"
  | rbrace : WrittenAs .rbrace "\x7d"
  | equal : WrittenAs .equal "="
  | arrow : WrittenAs .arrow "->"
  | keyword (word : Keyword) : WrittenAs (.keyword word) word.spelling

/-- The lexeme of a token with this text would go on with `c`. -/
def GoesOn (token : Token) (text : String) (c : Char) : Prop :=
  match token with
  | .ident _ | .symbol _ | .keyword _ => isNameChar c = true
  -- a zero may be the first character of a mark
  | .int _ => isHexDigit c = true ∨ (text = "0" ∨ text = "-0") ∧ (c = 'x' ∨ c = 'X')
  | _ => False

/-- The lexeme of a token with this text ends before `rest`. -/
def Ends (token : Token) (text : String) (rest : List Char) : Prop :=
  ∀ c, rest.head? = some c → ¬ token.GoesOn text c

/-- An input begins with an integer and not with an arrow. -/
def StartsInt : List Char → Prop
  | '-' :: cs => cs.head? ≠ some '>'
  | c :: _ => c.isDigit = true
  | [] => False

variable {token : Token} {text : String} {c : Char} {cs rest : List Char}

theorem ends_of_stops (h : Stops rest) : token.Ends text rest := by
  intro c hc hon
  have hname := h c hc
  have hlast : isNameChar c = true := by
    cases token with
    | ident | symbol | keyword => exact hon
    | int =>
      rcases hon with hhex | ⟨-, rfl | rfl⟩
      · exact isNameChar_of_isHexDigit hhex
      · rfl
      · rfl
    | _ => exact hon.elim
  rw [hlast] at hname
  cases hname

theorem Ends.of_append (h : token.Ends text (cs ++ rest)) : token.Ends text cs := by
  intro c hc
  obtain ⟨more, rfl⟩ := List.head?_eq_some_iff.1 hc
  exact h c rfl

theorem isWord_iff :
    isWord text = true ↔
      ∃ c cs, text.toList = c :: cs ∧ isNameStart c = true ∧ ∀ d ∈ cs, isNameChar d = true := by
  unfold isWord
  cases text.toList with
  | nil => simp
  | cons c cs => simp [List.all_eq_true]

theorem isWord_spelling (word : Keyword) : isWord word.spelling = true := by
  cases word <;> rfl

/-- A name is written as itself, whether it is reserved or not. -/
theorem writtenAs_ofName (h : isWord text = true) : (ofName text).WrittenAs text := by
  unfold ofName
  split
  next word hword =>
    rw [← Keyword.spelling_of_ofSpelling? hword]
    exact .keyword word
  next hnone =>
    refine .ident h ?_
    rintro word rfl
    rw [Keyword.ofSpelling?_spelling] at hnone
    cases hnone

/-- A name that is no reserved word stands for itself. -/
theorem ofName_eq_ident (h : ∀ word : Keyword, word.spelling ≠ text) :
    ofName text = .ident text := by
  unfold ofName
  split
  next word hword => exact absurd (Keyword.spelling_of_ofSpelling? hword) (h word)
  · rfl

theorem ofName_spelling (word : Keyword) : ofName word.spelling = .keyword word := by
  rw [ofName, Keyword.ofSpelling?_spelling]

/-! ### Integers -/

variable {sign mark digits : List Char} {n : Nat}

/-- Every magnitude below the limit has its digits in both radixes. -/
theorem intText_toDigits (hsign : sign = ['-'] ∨ sign = [])
    (hmark : mark = ['0', 'x'] ∨ mark = ['0', 'X'] ∨ mark = []) (h : n < 0x8000000000000000) :
    IntText sign mark (Nat.toDigits (radixOf mark) n) n where
  sign_eq := hsign
  mark_eq := hmark
  digits_ne_nil := Nat.toDigits_ne_nil
  denotes := by
    rcases hmark with rfl | rfl | rfl <;> exact denotes_toDigits (by decide) (by decide) n
  lt := h

/-- An integer can be written as it is shown. -/
theorem writtenAs_toString {i : Int} (h : -0x8000000000000000 < i ∧ i < 0x8000000000000000) :
    (Token.int i).WrittenAs (toString i) := by
  rw [Int.toString_eq_repr, Int.repr_eq_if]
  by_cases hi : 0 ≤ i
  · have htext : IntText [] [] (Nat.toDigits 10 i.toNat) i.toNat :=
      intText_toDigits (.inr rfl) (.inr (.inr rfl)) (by omega)
    have hwritten := WrittenAs.int htext
    have hvalue : signed [] i.toNat = i := Int.toNat_of_nonneg hi
    rw [hvalue] at hwritten
    rwa [if_pos hi, ← String.ofList_toList (s := i.toNat.repr), Nat.toList_repr]
  · have htext : IntText ['-'] [] (Nat.toDigits 10 (-i).toNat) (-i).toNat :=
      intText_toDigits (.inl rfl) (.inr (.inr rfl)) (by omega)
    have hwritten := WrittenAs.int htext
    have hvalue : signed ['-'] (-i).toNat = i := by
      change -((-i).toNat : Int) = i
      omega
    rw [hvalue, String.ofList_append] at hwritten
    rwa [if_neg hi, ← String.ofList_toList (s := (-i).toNat.repr), Nat.toList_repr]

/-! ### What is written is read -/

/-- At the head of an input there is a lexeme, which is read as a token and followed by `rest`. -/
def Reads (input : List Char) (token : Token) (rest : List Char) : Prop :=
  ∃ c cs, input = c :: cs ∧ isSpace c = false ∧ c ≠ ';' ∧
    (lexeme c cs).map Lexeme.outcome = .ok (token, rest)

theorem lexeme_of_isNameStart (h : isNameStart c = true) (cs : List Char) :
    lexeme c cs = .ok (lexName c cs) := by
  have hne {d : Char} (hd : isNameStart d = false) : c ≠ d := ne_of_class h hd
  have hdigit : ¬ c.isDigit = true := by
    rw [isDigit_of_isNameStart h]
    exact Bool.false_ne_true
  rw [lexeme, if_neg (hne rfl), if_neg (hne rfl), if_neg (hne rfl), if_neg (hne rfl),
    if_neg (hne rfl), dif_neg (hne rfl), if_neg hdigit, dif_neg (hne rfl), dif_neg (hne rfl),
    if_pos h]

theorem lexeme_of_isDigit (h : c.isDigit = true) (cs : List Char) :
    lexeme c cs = lexInt (c :: cs) := by
  have hne {d : Char} (hd : d.isDigit = false) : c ≠ d := ne_of_class h hd
  rw [lexeme, if_neg (hne rfl), if_neg (hne rfl), if_neg (hne rfl), if_neg (hne rfl),
    if_neg (hne rfl), dif_neg (hne rfl), if_pos h]

/-- Where an integer begins, an integer is read. -/
theorem lexeme_of_startsInt (h : StartsInt (c :: cs)) : lexeme c cs = lexInt (c :: cs) := by
  by_cases hminus : c = '-'
  · subst hminus
    change lexMinus cs = lexInt ('-' :: cs)
    unfold lexMinus
    split
    · exact absurd rfl h
    · rfl
  · refine lexeme_of_isDigit ?_ cs
    unfold StartsInt at h
    split at h
    next hcons => exact absurd (List.cons.inj hcons).1 hminus
    next hcons =>
      obtain ⟨rfl, -⟩ := List.cons.inj hcons
      exact h
    · exact h.elim

/-- A name is read up to its end. -/
theorem reads_word (h : isWord text = true) (hrest : Stops rest) :
    Reads (text.toList ++ rest) (ofName text) rest := by
  obtain ⟨c, cs, htext, hc, hcs⟩ := isWord_iff.1 h
  have hname := isNameChar_of_isNameStart hc
  have hspan := span_of_stops hcs hrest
  refine ⟨c, cs ++ rest, by rw [htext, List.cons_append], isSpace_of_isNameChar hname,
    ne_of_class hname rfl, ?_⟩
  rw [lexeme_of_isNameStart hc]
  change Except.ok (ofName (String.ofList (c :: (cs ++ rest).takeWhile isNameChar)),
    (cs ++ rest).dropWhile isNameChar) = _
  rw [hspan.1, hspan.2, ← htext, String.ofList_toList]

theorem reads_symbol {name : String} (h : IsSymbolName name) (hrest : Stops rest) :
    Reads ('@' :: (name.toList ++ rest)) (.symbol name) rest := by
  have hspan := span_of_stops h.2 hrest
  have hne : name.toList ≠ [] := fun hnil => h.1 (String.toList_inj.1 hnil)
  refine ⟨'@', _, rfl, rfl, by decide, ?_⟩
  change (lexSymbol (name.toList ++ rest)).map Lexeme.outcome = _
  rw [lexSymbol]
  simp only [hspan.1, hspan.2, if_neg hne, String.ofList_toList]
  rfl

theorem reads_str (h : IsStringText text) (rest : List Char) :
    Reads ('"' :: (text.toList ++ '"' :: rest)) (.str text) rest := by
  have hquote (c : Char) (hc : ('"' :: rest).head? = some c) : isStringChar c = false := by
    cases hc
    rfl
  have hspan := span_of_stops (fun c hc => (isStringChar_iff c).2 (h c hc)) hquote
  refine ⟨'"', _, rfl, rfl, by decide, ?_⟩
  change (lexStr (text.toList ++ '"' :: rest)).map Lexeme.outcome = _
  unfold lexStr
  split
  next after hafter =>
    obtain rfl : after = rest := (List.cons.inj (hafter.symm.trans hspan.2)).2
    change Except.ok (str (String.ofList ((text.toList ++ '"' :: after).takeWhile isStringChar)),
      after) = _
    rw [hspan.1, String.ofList_toList]
  next hopen => exact absurd hspan.2 (hopen _)

theorem startsInt_of_isDigit (h : c.isDigit = true) (cs : List Char) : StartsInt (c :: cs) := by
  unfold StartsInt
  split
  next hcons =>
    obtain ⟨rfl, -⟩ := List.cons.inj hcons
    cases h
  next hcons =>
    obtain ⟨rfl, -⟩ := List.cons.inj hcons
    exact h
  next hcons => cases hcons

theorem StartsInt.exists_cons {input : List Char} (h : StartsInt input) :
    ∃ c cs, input = c :: cs ∧ isSpace c = false ∧ c ≠ ';' := by
  unfold StartsInt at h
  split at h
  · exact ⟨_, _, rfl, rfl, by decide⟩
  · have hname := isNameChar_of_isDigit h
    exact ⟨_, _, rfl, isSpace_of_isNameChar hname, ne_of_class hname rfl⟩
  · exact h.elim

/-- What follows the sign begins with a decimal digit. -/
theorem IntText.exists_digit (h : IntText sign mark digits n) (rest : List Char) :
    ∃ c cs, mark ++ (digits ++ rest) = c :: cs ∧ c.isDigit = true := by
  obtain ⟨d, more, rfl⟩ := List.exists_cons_of_ne_nil h.digits_ne_nil
  have hn := h.denotes
  rcases h.mark_eq with rfl | rfl | rfl
  · exact ⟨_, _, rfl, rfl⟩
  · exact ⟨_, _, rfl, rfl⟩
  · exact ⟨_, _, rfl, hn.forall_isDigit d List.mem_cons_self⟩

theorem IntText.startsInt (h : IntText sign mark digits n) (rest : List Char) :
    StartsInt (sign ++ (mark ++ (digits ++ rest))) := by
  obtain ⟨c, cs, hcons, hc⟩ := h.exists_digit rest
  rw [hcons]
  rcases h.sign_eq with rfl | rfl
  · intro hhead
    obtain rfl : c = '>' := Option.some.inj hhead
    cases hc
  · exact startsInt_of_isDigit hc cs

/-- No mark begins with the digits of a decimal integer that ends. -/
theorem IntText.ne_mark {i : Int} {x : Char} (h : IntText sign [] digits n)
    (hends : (Token.int i).Ends (String.ofList (sign ++ digits)) rest) (hx : x = 'x' ∨ x = 'X')
    (cs : List Char) : digits ++ rest ≠ '0' :: x :: cs := by
  intro heq
  match digits with
  | [] => exact h.digits_ne_nil rfl
  | [d] =>
    obtain ⟨rfl, hrest⟩ := List.cons.inj heq
    refine hends x (congrArg List.head? hrest) (.inr ⟨?_, hx⟩)
    rcases h.sign_eq with rfl | rfl
    · exact .inr rfl
    · exact .inl rfl
  | d :: e :: digits =>
    have hdigit := h.denotes.forall_isDigit e (List.mem_cons_of_mem d List.mem_cons_self)
    obtain rfl : e = x := (List.cons.inj (List.cons.inj heq).2).1
    rcases hx with rfl | rfl <;> cases hdigit

/-- The text of an integer is the longest one of any input where it ends. -/
theorem IntText.longestInt {i : Int} (h : IntText sign mark digits n)
    (hends : (Token.int i).Ends (String.ofList (sign ++ (mark ++ digits))) rest) :
    LongestInt (sign ++ (mark ++ (digits ++ rest))) sign mark digits rest where
  parts := rfl
  sign_longest := by
    refine h.sign_eq.imp_right fun hnil => ⟨hnil, ?_⟩
    obtain ⟨c, cs, hcons, hc⟩ := h.exists_digit rest
    rw [hnil, List.nil_append, hcons]
    intro hhead
    obtain rfl : c = '-' := Option.some.inj hhead
    cases hc
  mark_longest := by
    refine h.mark_eq.imp_right (Or.imp_right ?_)
    rintro rfl
    exact ⟨rfl, fun cs => ⟨h.ne_mark hends (.inl rfl) cs, h.ne_mark hends (.inr rfl) cs⟩⟩
  digits_hex := h.denotes.forall_isHexDigit
  digits_longest c hc := Bool.eq_false_iff.2 fun hhex => hends c hc (.inl hhex)

theorem IntText.reads (h : IntText sign mark digits n)
    (hends : (Token.int (signed sign n)).Ends (String.ofList (sign ++ (mark ++ digits))) rest) :
    Reads (sign ++ (mark ++ (digits ++ rest))) (.int (signed sign n)) rest := by
  have hstarts := h.startsInt rest
  have hlongest := (h.longestInt hends).lexInt_eq
  obtain ⟨c, cs, hcons, hspace, hcomment⟩ := hstarts.exists_cons
  refine ⟨c, cs, hcons, hspace, hcomment, ?_⟩
  rw [hcons] at hstarts hlongest
  rw [lexeme_of_startsInt hstarts]
  refine hlongest.trans ?_
  rw [if_neg h.digits_ne_nil, magnitude_eq_ok_iff.2 ⟨h.denotes, h.lt⟩]
  rfl

/-- What a token is written as is read as this token, wherever its lexeme ends. -/
theorem WrittenAs.reads (h : token.WrittenAs text) (hends : token.Ends text rest) :
    Reads (text.toList ++ rest) token rest := by
  cases h with
  | ident hname hword =>
    rw [← ofName_eq_ident hword]
    exact reads_word hname fun c hc => Bool.eq_false_iff.2 (hends c hc)
  | keyword word =>
    rw [← ofName_spelling]
    exact reads_word (isWord_spelling word) fun c hc => Bool.eq_false_iff.2 (hends c hc)
  | symbol hname =>
    rw [String.toList_append, List.append_assoc]
    exact reads_symbol hname fun c hc => Bool.eq_false_iff.2 (hends c hc)
  | int h =>
    rw [String.toList_ofList, List.append_assoc, List.append_assoc]
    exact h.reads hends
  | str htext =>
    rw [String.toList_append, String.toList_append, List.append_assoc, List.append_assoc]
    exact reads_str htext rest
  | _ => exact ⟨_, _, rfl, rfl, by decide, rfl⟩

theorem WrittenAs.ne_empty (h : token.WrittenAs text) : text ≠ "" := by
  have hends : token.Ends text [] := fun c hc => nomatch hc
  obtain ⟨c, cs, hcons, -⟩ := h.reads hends
  rintro rfl
  cases hcons

/-! ### Steps of the lexer -/

theorem lexFrom_space (h : isSpace c = true) (pos : Nat) (cs : List Char) :
    lexFrom pos (c :: cs) = lexFrom (pos + 1) cs := by
  rw [lexFrom, if_pos h]

/-- A comment runs up to the end of its line. -/
theorem lexFrom_comment {line : List Char} (h : '\n' ∉ line)
    (hrest : rest = [] ∨ rest.head? = some '\n') (pos : Nat) :
    lexFrom pos (';' :: (line ++ rest)) = lexFrom (pos + 1 + width line) rest := by
  have hline (c : Char) (hc : c ∈ line) : isCommentChar c = true :=
    bne_iff_ne.2 fun heq => h (heq ▸ hc)
  have hend (c : Char) (hc : rest.head? = some c) : isCommentChar c = false := by
    rcases hrest with rfl | hhead
    · cases hc
    · cases hc.symm.trans hhead
      rfl
  obtain ⟨htake, hdrop⟩ := span_of_stops hline hend
  rw [lexFrom, if_neg (by decide), if_pos rfl, htake, hdrop]

/-- A lexeme that is read is the first token, and the others are those of what follows. -/
theorem lexFrom_of_reads (h : Reads (cs ++ rest) token rest) (pos : Nat) :
    lexFrom pos (cs ++ rest) = (lexFrom (pos + width cs) rest).map (⟨token, pos⟩ :: ·) := by
  obtain ⟨c, more, hcons, hspace, hcomment, hread⟩ := h
  cases hlexeme : lexeme c more with
  | error fault => rw [hlexeme] at hread; cases hread
  | ok l =>
    rw [hlexeme] at hread
    cases hread
    have htext : l.text = cs := List.append_cancel_right (l.append_eq.trans hcons.symm)
    rw [hcons, lexFrom, if_neg (by rw [hspace]; exact Bool.false_ne_true), if_neg hcomment, hlexeme]
    simp only [htext]
    cases lexFrom (pos + width cs) l.rest <;> rfl

end Token

end ComputeScript
