import ComputeScript.Proofs.Token.Faults

/-!
# The layout of a source

A source is made of pieces: each is some trivia and a token behind it (`Piece`).  Lexing takes just
the tokens of the pieces, at the bytes where their texts begin (`Piece.lexFrom_source`), and every
text is made of pieces up to its end or up to a fault (`exists_layout`).  With trivia between the
tokens, any tokens are read back (`lex_source`); whatever is read, or not, is accounted for to the
last byte (`lex_exact`).
-/

namespace ComputeScript

namespace Token

/-! ### Trivia -/

/-- Blanks and comments, each comment with the end of its line. -/
inductive IsTrivia : List Char → Prop
  | nil : IsTrivia []
  | space {c : Char} {cs : List Char} (hc : isSpace c = true) (h : IsTrivia cs) : IsTrivia (c :: cs)
  | comment {line cs : List Char} (hline : '\n' ∉ line) (h : IsTrivia cs) :
      IsTrivia (';' :: (line ++ '\n' :: cs))

/-- What can stand behind the last token: the last comment may be ended by the end of the input. -/
inductive IsLastTrivia : List Char → Prop
  | trivia {cs : List Char} (h : IsTrivia cs) : IsLastTrivia cs
  | openComment {cs line : List Char} (h : IsTrivia cs) (hline : '\n' ∉ line) :
      IsLastTrivia (cs ++ ';' :: line)

variable {c : Char} {cs line rest : List Char}

theorem width_append (cs cs' : List Char) : width (cs ++ cs') = width cs + width cs' := by
  induction cs with
  | nil => exact (Nat.zero_add _).symm
  | cons c cs ih => rw [List.cons_append, width, width, ih, Nat.add_assoc]

/-- Positions count the bytes of a string. -/
theorem width_toList (s : String) : width s.toList = s.utf8ByteSize := by
  have hwidth (cs : List Char) : width cs = (String.ofList cs).utf8ByteSize := by
    induction cs with
    | nil => rfl
    | cons c cs ih =>
      rw [← List.singleton_append, String.ofList_append, String.utf8ByteSize_append, ← ih,
        ← String.singleton_eq_ofList, String.utf8ByteSize_singleton]
      rfl
  rw [hwidth, String.ofList_toList]

theorem utf8Size_of_isSpace (h : isSpace c = true) : c.utf8Size = 1 := by
  simp only [isSpace, Bool.or_eq_true, beq_iff_eq] at h
  rcases h with (((rfl | rfl) | rfl) | rfl) | rfl <;> rfl

/-- Trivia are passed over. -/
theorem IsTrivia.lexFrom_append (h : IsTrivia cs) (rest : List Char) (pos : Nat) :
    lexFrom pos (cs ++ rest) = lexFrom (pos + width cs) rest := by
  induction h generalizing pos with
  | nil => rfl
  | space hc _ ih =>
    rw [List.cons_append, lexFrom_space hc, ih, width, utf8Size_of_isSpace hc, Nat.add_assoc]
  | @comment line cs hline _ ih =>
    rw [List.cons_append, List.append_assoc, List.cons_append, lexFrom_comment hline (.inr rfl),
      lexFrom_space rfl, ih, width, width_append, width]
    congr 1
    change pos + 1 + width line + 1 + width cs = pos + (1 + (width line + (1 + width cs)))
    omega

theorem IsLastTrivia.lexFrom_eq (h : IsLastTrivia cs) (pos : Nat) : lexFrom pos cs = .ok [] := by
  have hend (pos : Nat) : lexFrom pos [] = .ok [] := by rw [lexFrom]
  cases h with
  | trivia h =>
    rw [← List.append_nil cs, h.lexFrom_append, hend]
  | @openComment cs line h hline =>
    rw [h.lexFrom_append, ← List.append_nil line, lexFrom_comment hline (.inl rfl), hend]

theorem IsTrivia.stops (h : IsTrivia cs) (hne : cs ≠ []) (rest : List Char) :
    Stops (cs ++ rest) := by
  cases h with
  | nil => exact absurd rfl hne
  | space hc => exact stops_cons (isNameChar_of_isSpace hc) _
  | comment => exact stops_cons rfl _

theorem IsLastTrivia.stops (h : IsLastTrivia cs) : Stops cs := by
  cases h with
  | trivia h =>
    by_cases hne : cs = []
    · rw [hne]
      exact fun c hc => nomatch hc
    · have hstops := h.stops hne []
      rwa [List.append_nil] at hstops
  | @openComment cs line h =>
    by_cases hne : cs = []
    · rw [hne]
      exact stops_cons rfl line
    · exact h.stops hne (';' :: line)

theorem IsLastTrivia.space (hc : isSpace c = true) (h : IsLastTrivia cs) :
    IsLastTrivia (c :: cs) := by
  cases h with
  | trivia h => exact .trivia (h.space hc)
  | openComment h hline => exact .openComment (h.space hc) hline

theorem IsLastTrivia.comment (hline : '\n' ∉ line) (h : IsLastTrivia cs) :
    IsLastTrivia (';' :: (line ++ '\n' :: cs)) := by
  cases h with
  | trivia h => exact .trivia (h.comment hline)
  | openComment h hopen =>
    have hlast := IsLastTrivia.openComment (h.comment hline) hopen
    rwa [List.cons_append, List.append_assoc, List.cons_append] at hlast

/-- Every text begins with trivia, and behind them ends or has a lexeme. -/
theorem exists_trivia (cs : List Char) :
    IsLastTrivia cs ∨ ∃ gap c more, cs = gap ++ c :: more ∧ IsTrivia gap ∧
      isSpace c = false ∧ c ≠ ';' := by
  induction hn : cs.length using Nat.strongRecOn generalizing cs with
  | _ n ih =>
    subst hn
    cases cs with
    | nil => exact .inl (.trivia .nil)
    | cons c cs =>
      by_cases hspace : isSpace c = true
      · rcases ih cs.length (Nat.lt_succ_self _) cs rfl with h | ⟨gap, d, more, rfl, hgap, hd⟩
        · exact .inl (h.space hspace)
        · exact .inr ⟨c :: gap, d, more, rfl, hgap.space hspace, hd⟩
      by_cases hcomment : c = ';'
      · subst hcomment
        have hline : '\n' ∉ cs.takeWhile isCommentChar := by
          intro hmem
          have hchar : isCommentChar '\n' = true := List.mem_takeWhile_imp hmem
          cases hchar
        have hparts := List.takeWhile_append_dropWhile (p := isCommentChar) (l := cs)
        have hstop := stops_dropWhile isCommentChar cs
        generalize cs.takeWhile isCommentChar = line at hline hparts
        generalize cs.dropWhile isCommentChar = rest at hparts hstop
        subst hparts
        cases rest with
        | nil =>
          rw [List.append_nil]
          exact .inl (.openComment .nil hline)
        | cons d rest =>
          obtain rfl : d = '\n' := bne_eq_false_iff_eq.1 (hstop d rfl)
          have hlt : rest.length < (';' :: (line ++ '\n' :: rest)).length := by
            simp only [List.length_cons, List.length_append]
            omega
          rcases ih rest.length hlt rest rfl with h | ⟨gap, d, more, rfl, hgap, hd⟩
          · exact .inl (h.comment hline)
          · refine .inr ⟨';' :: (line ++ '\n' :: gap), d, more, ?_, hgap.comment hline, hd⟩
            rw [List.cons_append, List.append_assoc, List.cons_append]
      · exact .inr ⟨[], c, cs, rfl, .nil, Bool.eq_false_iff.2 hspace, hcomment⟩

/-! ### Pieces -/

/-- Trivia, and a token behind them with the text that it is written as. -/
structure Piece where
  gap : String
  token : Token
  text : String
  isTrivia : IsTrivia gap.toList
  writtenAs : token.WrittenAs text

namespace Piece

/-- The text that pieces make up. -/
def source : List Piece → String
  | [] => ""
  | p :: ps => p.gap ++ (p.text ++ source ps)

/-- The tokens of pieces, each at the byte where its text begins. -/
def located (pos : Nat) : List Piece → List Located
  | [] => []
  | p :: ps =>
    ⟨p.token, pos + p.gap.utf8ByteSize⟩ ::
      located (pos + p.gap.utf8ByteSize + p.text.utf8ByteSize) ps

/-- Every token ends where its text does. -/
def Separate : List Piece → String → Prop
  | [], _ => True
  | p :: ps, last => p.token.Ends p.text (source ps ++ last).toList ∧ Separate ps last

variable {pieces : List Piece} {last : String}

/-- Lexing pieces takes their tokens and goes on behind them. -/
theorem lexFrom_source (h : Separate pieces last) (pos : Nat) :
    lexFrom pos (source pieces ++ last).toList =
      (lexFrom (pos + (source pieces).utf8ByteSize) last.toList).map (located pos pieces ++ ·) := by
  induction pieces generalizing pos with
  | nil =>
    change lexFrom pos ("" ++ last).toList = (lexFrom pos last.toList).map id
    rw [String.empty_append]
    cases lexFrom pos last.toList <;> rfl
  | cons p ps ih =>
    have hread := p.writtenAs.reads h.1
    have hpos : pos + (p.gap ++ (p.text ++ source ps)).utf8ByteSize =
        pos + p.gap.utf8ByteSize + p.text.utf8ByteSize + (source ps).utf8ByteSize := by
      rw [String.utf8ByteSize_append, String.utf8ByteSize_append]
      omega
    rw [source, String.append_assoc, String.append_assoc, String.toList_append,
      p.isTrivia.lexFrom_append, String.toList_append, lexFrom_of_reads hread, ih h.2, width_toList,
      width_toList, hpos]
    cases lexFrom _ last.toList <;> rfl

/-- Trivia between its tokens separate a source. -/
theorem separate_of_gaps (hgaps : ∀ p ∈ pieces.tail, p.gap ≠ "")
    (hlast : IsLastTrivia last.toList) : Separate pieces last := by
  induction pieces with
  | nil => trivial
  | cons p ps ih =>
    rw [List.tail_cons] at hgaps
    refine ⟨ends_of_stops ?_, ih fun q hq => hgaps q (List.mem_of_mem_tail hq)⟩
    cases ps with
    | nil =>
      rw [source, String.empty_append]
      exact hlast.stops
    | cons q qs =>
      have hgap : q.gap.toList ≠ [] := fun hnil =>
        hgaps q List.mem_cons_self (String.toList_inj.1 hnil)
      rw [source, String.append_assoc, String.toList_append]
      exact q.isTrivia.stops hgap _

/-- Tokens that end in front of a text end in front of a shorter one. -/
theorem Separate.of_append {rest : String} (h : Separate pieces (last ++ rest)) :
    Separate pieces last := by
  induction pieces with
  | nil => trivial
  | cons p ps ih =>
    obtain ⟨hends, hmore⟩ := h
    rw [← String.append_assoc, String.toList_append] at hends
    exact ⟨hends.of_append, ih hmore⟩

/-- What a token was read from stands in the source where the token says. -/
theorem exists_text_of_mem_located {pos : Nat} {t : Located} (h : t ∈ located pos pieces) :
    ∃ before text after, source pieces = before ++ (text ++ after) ∧
      pos + before.utf8ByteSize = t.pos ∧ t.token.WrittenAs text := by
  induction pieces generalizing pos with
  | nil => exact absurd h List.not_mem_nil
  | cons p ps ih =>
    rcases List.mem_cons.1 h with rfl | h
    · exact ⟨p.gap, p.text, source ps, rfl, rfl, p.writtenAs⟩
    · obtain ⟨before, text, after, hsource, hpos, hwritten⟩ := ih h
      refine ⟨p.gap ++ (p.text ++ before), text, after, ?_, ?_, hwritten⟩
      · rw [source, hsource, String.append_assoc, String.append_assoc]
      · rw [← hpos, String.utf8ByteSize_append, String.utf8ByteSize_append]
        omega

theorem le_pos_of_mem_located {pos : Nat} {t : Located} (h : t ∈ located pos pieces) :
    pos ≤ t.pos := by
  obtain ⟨before, -, -, -, hpos, -⟩ := exists_text_of_mem_located h
  omega

/-- Positions increase, as no token has an empty text. -/
theorem pairwise_located (pos : Nat) (pieces : List Piece) :
    (located pos pieces).Pairwise fun t t' => t.pos < t'.pos := by
  induction pieces generalizing pos with
  | nil => exact .nil
  | cons p ps ih =>
    refine .cons (fun t ht => ?_) (ih _)
    have hle := le_pos_of_mem_located ht
    have hpos : p.text.utf8ByteSize ≠ 0 :=
      String.utf8ByteSize_eq_zero_iff.not.2 p.writtenAs.ne_empty
    change pos + p.gap.utf8ByteSize < t.pos
    omega

end Piece

/-! ### Whole sources -/

/-- Every text is made of pieces, up to the trivia that end it or to a fault behind some trivia. -/
theorem exists_layout (source : String) :
    ∃ pieces last, source = Piece.source pieces ++ last ∧ Piece.Separate pieces last ∧
      (IsLastTrivia last.toList ∨ ∃ gap bad fault, last = gap ++ bad ∧ IsTrivia gap.toList ∧
        Fails bad.toList fault) := by
  -- along the source, from lexeme to lexeme
  induction hn : source.toList.length using Nat.strongRecOn generalizing source with
  | _ n ih =>
    subst hn
    rcases exists_trivia source.toList with hlast | ⟨gap, c, more, hsource, hgap, hspace, hcomment⟩
    · exact ⟨[], source, String.empty_append.symm, trivial, .inl hlast⟩
    obtain ⟨gap, rfl⟩ : ∃ s : String, s.toList = gap := ⟨String.ofList gap, String.toList_ofList⟩
    rcases token_or_fails hspace hcomment more with
      ⟨token, text, rest, hmore, hwritten, hends⟩ | ⟨fault, hfails⟩
    · obtain ⟨rest, rfl⟩ : ∃ s : String, s.toList = rest :=
        ⟨String.ofList rest, String.toList_ofList⟩
      have hlt : rest.toList.length < source.toList.length := by
        have hne : text.toList ≠ [] := fun hnil => hwritten.ne_empty (String.toList_inj.1 hnil)
        have hpos := List.length_pos_iff.2 hne
        rw [hsource, hmore, List.length_append, List.length_append]
        omega
      have hparts : source = gap ++ (text ++ rest) := by
        rw [← String.toList_inj, hsource, hmore, String.toList_append, String.toList_append]
      obtain ⟨pieces, last, rfl, hseparate, hend⟩ := ih _ hlt rest rfl
      refine ⟨⟨gap, token, text, hgap, hwritten⟩ :: pieces, last, ?_, ⟨hends, hseparate⟩, hend⟩
      rw [hparts, Piece.source, String.append_assoc, String.append_assoc]
    · refine ⟨[], source, String.empty_append.symm, trivial,
        .inr ⟨gap, String.ofList (c :: more), fault, ?_, hgap, ?_⟩⟩
      · rw [← String.toList_inj, hsource, String.toList_append, String.toList_ofList]
      · rwa [String.toList_ofList]

/-- Pieces and the trivia behind them are lexed to the tokens of the pieces. -/
theorem lex_eq_ok {pieces : List Piece} {last : String} (h : Piece.Separate pieces last)
    (hlast : IsLastTrivia last.toList) :
    lex (Piece.source pieces ++ last) = .ok (Piece.located 0 pieces) := by
  rw [lex, Piece.lexFrom_source h, hlast.lexFrom_eq]
  exact congrArg Except.ok (List.append_nil _)

/-- Behind pieces and some trivia, a fault is found where its lexeme begins. -/
theorem lex_eq_error {pieces : List Piece} {gap bad : String} {fault : LexFault}
    (h : Piece.Separate pieces (gap ++ bad)) (hgap : IsTrivia gap.toList)
    (hbad : Fails bad.toList fault) :
    lex (Piece.source pieces ++ (gap ++ bad)) =
      .error ⟨(Piece.source pieces ++ gap).utf8ByteSize, fault⟩ := by
  rw [lex, Piece.lexFrom_source h, String.toList_append, hgap.lexFrom_append, hbad.lexFrom_eq,
    width_toList, String.utf8ByteSize_append, Nat.zero_add]
  rfl

/-- Lexing undoes spelling: tokens in any of their spellings, with trivia between them, are read
back with the bytes where they begin. -/
theorem lex_source {pieces : List Piece} {last : String}
    (hgaps : ∀ p ∈ pieces.tail, p.gap ≠ "") (hlast : IsLastTrivia last.toList) :
    lex (Piece.source pieces ++ last) = .ok (Piece.located 0 pieces) :=
  lex_eq_ok (Piece.separate_of_gaps hgaps hlast) hlast

/-- Pieces with characters of several bytes, and with comments right behind a token. -/
def Piece.multibyte : List Piece :=
  [{ gap := "; é\n", token := .keyword .moduleId, text := "module"
     isTrivia := @IsTrivia.comment [' ', 'é'] [] (by decide) .nil
     writtenAs := .keyword .moduleId },
   { gap := "\t", token := .str "ü;", text := "\"ü;\""
     isTrivia := .space rfl .nil
     writtenAs := .str (by decide) },
   { gap := "\x0c", token := .int (-31), text := "-0x1F"
     isTrivia := .space rfl .nil
     writtenAs := @WrittenAs.int ['-'] ['0', 'x'] ['1', 'F'] 31
      ⟨.inl rfl, .inl rfl, by decide, (magnitude_eq_ok_iff.1 rfl).1, by decide⟩ },
   { gap := ";終\n\r", token := .arrow, text := "->"
     isTrivia := @IsTrivia.comment ['終'] ['\r'] (by decide) (.space rfl .nil)
     writtenAs := .arrow },
   { gap := " ", token := .symbol "0.f", text := "@0.f"
     isTrivia := .space rfl .nil
     writtenAs := .symbol (by decide) }]

theorem lex_source_multibyte :
    (∀ p ∈ Piece.multibyte.tail, p.gap ≠ "") ∧ IsLastTrivia " ; ∎".toList ∧
      lex "; é\nmodule\t\"ü;\"\x0c-0x1F;終\n\r-> @0.f ; ∎" =
        .ok [⟨.keyword .moduleId, 5⟩, ⟨.str "ü;", 12⟩, ⟨.int (-31), 18⟩, ⟨.arrow, 29⟩,
          ⟨.symbol "0.f", 32⟩] := by
  have hgaps : ∀ p ∈ Piece.multibyte.tail, p.gap ≠ "" := by
    unfold Piece.multibyte
    simp
  have hlast : IsLastTrivia " ; ∎".toList :=
    @IsLastTrivia.openComment [' '] [' ', '∎'] (.space rfl .nil) (by decide)
  have hsource : Piece.source Piece.multibyte ++ " ; ∎" =
      "; é\nmodule\t\"ü;\"\x0c-0x1F;終\n\r-> @0.f ; ∎" := by decide +kernel
  have hlocated : Piece.located 0 Piece.multibyte =
      [⟨.keyword .moduleId, 5⟩, ⟨.str "ü;", 12⟩, ⟨.int (-31), 18⟩, ⟨.arrow, 29⟩,
        ⟨.symbol "0.f", 32⟩] := by decide +kernel
  have hlex := lex_source hgaps hlast
  rw [hsource, hlocated] at hlex
  exact ⟨hgaps, hlast, hlex⟩

/-- Lexing accounts for every byte.  A source with tokens is their texts, each where its token says
and as long as it can be, with nothing but trivia around them.  A source with an error can be lexed
up to the byte that the error says, and the longest lexeme there is no token. -/
theorem lex_exact (source : String) :
    (∀ tokens, lex source = .ok tokens →
      (tokens.Pairwise fun t t' => t.pos < t'.pos) ∧
      (∀ t ∈ tokens, ∃ before text after, source = before ++ (text ++ after) ∧
        before.utf8ByteSize = t.pos ∧ t.token.WrittenAs text) ∧
      ∃ pieces last, source = Piece.source pieces ++ last ∧ tokens = Piece.located 0 pieces ∧
        Piece.Separate pieces last ∧ IsLastTrivia last.toList) ∧
    ∀ e, lex source = .error e →
      ∃ before bad, source = before ++ bad ∧ before.utf8ByteSize = e.pos ∧
        e.pos < source.utf8ByteSize ∧ (∃ tokens, lex before = .ok tokens) ∧
        HasFault e.fault bad.toList ∧
        ∀ (token : Token) (text after : String), bad = text ++ after → token.WrittenAs text →
          ¬ token.Ends text after.toList := by
  obtain ⟨pieces, last, rfl, hseparate, hend⟩ := exists_layout source
  rcases hend with hlast | ⟨gap, bad, fault, rfl, hgap, hbad⟩
  · have hlex := lex_eq_ok hseparate hlast
    constructor
    · intro tokens htokens
      obtain rfl : Piece.located 0 pieces = tokens := Except.ok.inj (hlex.symm.trans htokens)
      refine ⟨Piece.pairwise_located 0 pieces, fun t ht => ?_, pieces, last, rfl, rfl, hseparate,
        hlast⟩
      obtain ⟨before, text, after, hsource, hpos, hwritten⟩ := Piece.exists_text_of_mem_located ht
      refine ⟨before, text, after ++ last, ?_, (Nat.zero_add _).symm.trans hpos, hwritten⟩
      rw [hsource, String.append_assoc, String.append_assoc]
    · intro e he
      cases hlex.symm.trans he
  · have hlex := lex_eq_error hseparate hgap hbad
    constructor
    · intro tokens htokens
      cases hlex.symm.trans htokens
    · intro e he
      obtain rfl := Except.error.inj (hlex.symm.trans he)
      refine ⟨Piece.source pieces ++ gap, bad, String.append_assoc.symm, rfl, ?_,
        ⟨_, lex_eq_ok hseparate.of_append (.trivia hgap)⟩, hbad.hasFault, ?_⟩
      · have hne : bad.utf8ByteSize ≠ 0 := String.utf8ByteSize_eq_zero_iff.not.2 hbad.ne_empty
        have hsize : (Piece.source pieces ++ gap ++ bad).utf8ByteSize =
            (Piece.source pieces ++ gap).utf8ByteSize + bad.utf8ByteSize :=
          String.utf8ByteSize_append
        change (Piece.source pieces ++ gap).utf8ByteSize < _
        rw [← String.append_assoc, hsize]
        omega
      · rintro token text after rfl hwritten
        rw [String.toList_append] at hbad
        exact hbad.not_ends hwritten

end Token

end ComputeScript
