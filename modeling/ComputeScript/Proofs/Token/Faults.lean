import ComputeScript.Proofs.Token.Written

/-!
# What is read, and what is not

Every lexeme that is read is the text of its token and as long as it can be; where none is read, the
longest lexeme there is no token, for one of six reasons (`sound_lexeme`).
-/

namespace ComputeScript

namespace Token

/-- The longest lexeme at the head of an input is no token. -/
inductive HasFault : LexFault → List Char → Prop
  | noName {rest : List Char} (h : Stops rest) : HasFault .noName ('@' :: rest)
  | noDigits {input sign mark rest : List Char} (hint : StartsInt input)
      (h : LongestInt input sign mark [] rest) : HasFault .noDigits input
  | noNumber {input sign mark digits rest : List Char} {fault : LexFault} (hint : StartsInt input)
      (h : LongestInt input sign mark digits rest) (hdigits : digits ≠ [])
      (hfault : Misdenotes (radixOf mark) fault digits) : HasFault fault input
  | openString {text : String} {rest : List Char} (htext : IsStringText text)
      (hrest : rest = [] ∨ rest.head? = some '\n') :
      HasFault .openString ('"' :: (text.toList ++ rest))
  | stray {c : Char} {rest : List Char} (hspace : isSpace c = false) (hcomment : c ≠ ';')
      (h : ∀ token text, WrittenAs token text → text.toList.head? ≠ some c) :
      HasFault (.stray (shownByte c)) (c :: rest)

/-- The characters that the text of a token can begin with. -/
def StartsToken (c : Char) : Prop :=
  c ∈ ['(', ')', '\x7b', '\x7d', '=', '-', '"', '@'] ∨ c.isDigit = true ∨ isNameStart c = true

variable {token : Token} {text : String} {c : Char} {cs rest sign mark digits : List Char}

/-! ### What is read was written -/

/-- A lexeme is the text of its token, as long as it can be; or there is a fault. -/
def Sound {input : List Char} : Except LexFault (Lexeme input) → Prop
  | .ok l => l.token.WrittenAs (String.ofList l.text) ∧ l.token.Ends (String.ofList l.text) l.rest
  | .error fault => HasFault fault input

variable {input : List Char} {fault : LexFault} {r : Except LexFault (Lexeme input)}

theorem sound_of_error (h : r.map Lexeme.outcome = .error fault) (hfault : HasFault fault input) :
    Sound r := by
  cases r with
  | error => cases h; exact hfault
  | ok l => cases h

theorem sound_of_ok (h : r.map Lexeme.outcome = .ok (token, rest)) (hinput : input = cs ++ rest)
    (hwritten : token.WrittenAs (String.ofList cs)) (hends : token.Ends (String.ofList cs) rest) :
    Sound r := by
  cases r with
  | error => cases h
  | ok l =>
    cases h
    have htext : l.text = cs := List.append_cancel_right (l.append_eq.trans hinput)
    rw [Sound, htext]
    exact ⟨hwritten, hends⟩

theorem sound_lexName (h : isNameStart c = true) (cs : List Char) :
    Sound (.ok (lexName c cs)) := by
  have hword : isWord (String.ofList (c :: cs.takeWhile isNameChar)) = true :=
    isWord_iff.2 ⟨c, _, String.toList_ofList, h, fun d hd => List.mem_takeWhile_imp hd⟩
  exact ⟨writtenAs_ofName hword, ends_of_stops (stops_dropWhile isNameChar cs)⟩

theorem sound_lexSymbol (cs : List Char) : Sound (lexSymbol cs) := by
  have hstops : Stops (cs.dropWhile isNameChar) := stops_dropWhile isNameChar cs
  rw [lexSymbol]
  split_ifs with hnil
  · have hspan := List.takeWhile_append_dropWhile (p := isNameChar) (l := cs)
    rw [hnil, List.nil_append] at hspan
    rw [hspan] at hstops
    exact .noName hstops
  · refine ⟨?_, ends_of_stops hstops⟩
    have hname : IsSymbolName (String.ofList (cs.takeWhile isNameChar)) := by
      refine ⟨fun hempty => hnil (String.ofList_eq_empty_iff.1 hempty), fun c hc => ?_⟩
      rw [String.toList_ofList] at hc
      exact List.mem_takeWhile_imp hc
    have hwritten := WrittenAs.symbol hname
    rwa [← String.ofList_append] at hwritten

theorem sound_lexStr (cs : List Char) : Sound (lexStr cs) := by
  have htext : IsStringText (String.ofList (cs.takeWhile isStringChar)) := by
    intro c hc
    rw [String.toList_ofList] at hc
    exact (isStringChar_iff c).1 (List.mem_takeWhile_imp hc)
  unfold lexStr
  split
  · refine ⟨?_, fun _ _ hon => hon⟩
    have hwritten := WrittenAs.str htext
    rw [String.append_assoc] at hwritten
    change WrittenAs _ (String.ofList (['"'] ++ (cs.takeWhile isStringChar ++ ['"'])))
    rwa [String.ofList_append, String.ofList_append]
  next hopen =>
    have hparts := List.takeWhile_append_dropWhile (p := isStringChar) (l := cs)
    have hrest : cs.dropWhile isStringChar = [] ∨
        (cs.dropWhile isStringChar).head? = some '\n' := by
      cases hdrop : cs.dropWhile isStringChar with
      | nil => exact .inl rfl
      | cons c rest =>
        have hstop := stops_dropWhile isStringChar cs c (by rw [hdrop]; rfl)
        have hquote : c ≠ '"' := fun hc => hopen rest (hdrop.trans (by rw [hc]))
        rw [Bool.eq_false_iff, ne_eq, isStringChar_iff] at hstop
        exact .inr (congrArg some (by_contra fun hline => hstop ⟨hquote, hline⟩))
    have hfault := HasFault.openString htext hrest
    rwa [String.toList_ofList, hparts] at hfault

/-- The longest integer of an input goes on with nothing that follows it. -/
theorem LongestInt.ends (h : LongestInt input sign mark digits rest) (i : Int) :
    (Token.int i).Ends (String.ofList (sign ++ (mark ++ digits))) rest := by
  intro c hc hon
  rcases hon with hhex | ⟨hzero, hx⟩
  · rw [h.digits_longest c hc] at hhex
    cases hhex
  · obtain ⟨more, rfl⟩ := List.head?_eq_some_iff.1 hc
    have hparts : sign ++ (mark ++ digits) = ['0'] ∨ sign ++ (mark ++ digits) = ['-', '0'] :=
      hzero.imp String.ofList_injective String.ofList_injective
    rcases h.mark_longest with rfl | rfl | ⟨rfl, hmark⟩
    · rcases h.sign_longest with rfl | ⟨rfl, -⟩ <;> simp at hparts
    · rcases h.sign_longest with rfl | ⟨rfl, -⟩ <;> simp at hparts
    · have hdigits : digits = ['0'] := by
        rcases h.sign_longest with rfl | ⟨rfl, -⟩
        · simpa using hparts
        · refine hparts.resolve_right ?_
          rintro rfl
          exact absurd (h.digits_hex '-' List.mem_cons_self) (by decide)
      subst hdigits
      rcases hx with rfl | rfl
      · exact (hmark more).1 rfl
      · exact (hmark more).2 rfl

theorem sound_lexInt (h : StartsInt input) : Sound (lexInt input) := by
  obtain ⟨sign, mark, digits, rest, hlongest⟩ := exists_longestInt input
  have hread := hlongest.lexInt_eq
  by_cases hdigits : digits = []
  · subst hdigits
    exact sound_of_error hread (.noDigits h hlongest)
  rw [if_neg hdigits] at hread
  cases hmagnitude : magnitude (radixOf mark) digits 0 with
  | error fault =>
    rw [hmagnitude] at hread
    exact sound_of_error hread (.noNumber h hlongest hdigits (misdenotes_of_magnitude hmagnitude))
  | ok n =>
    rw [hmagnitude] at hread
    obtain ⟨hdenotes, hlt⟩ := magnitude_eq_ok_iff.1 hmagnitude
    have hparts : input = sign ++ (mark ++ digits) ++ rest := by
      rw [hlongest.parts, List.append_assoc, List.append_assoc]
    have htext : IntText sign mark digits n :=
      { sign_eq := hlongest.sign_longest.imp_right And.left
        mark_eq := hlongest.mark_longest.imp_right (Or.imp_right And.left)
        digits_ne_nil := hdigits
        denotes := hdenotes
        lt := hlt }
    exact sound_of_ok hread hparts (.int htext) (hlongest.ends _)

theorem sound_lexMinus (cs : List Char) : Sound (lexMinus cs) := by
  unfold lexMinus
  split
  · exact ⟨.arrow, fun _ _ hon => hon⟩
  next harrow =>
    refine sound_lexInt fun hhead => ?_
    obtain ⟨rest, rfl⟩ := List.head?_eq_some_iff.1 hhead
    exact harrow rest rfl

/-- A token begins with one of the characters that the lexer looks for. -/
theorem WrittenAs.startsToken (h : token.WrittenAs text) (hc : text.toList.head? = some c) :
    StartsToken c := by
  have hword (hname : isWord text = true) : StartsToken c := by
    obtain ⟨d, cs, htext, hd, -⟩ := isWord_iff.1 hname
    rw [htext] at hc
    cases hc
    exact .inr (.inr hd)
  cases h with
  | ident hname => exact hword hname
  | keyword word => exact hword (isWord_spelling word)
  | int h =>
    obtain ⟨d, cs, hcons, hd⟩ := h.exists_digit []
    rw [String.toList_ofList] at hc
    rw [List.append_nil] at hcons
    rcases h.sign_eq with rfl | rfl
    · cases hc
      exact .inl (by decide)
    · rw [hcons] at hc
      cases hc
      exact .inr (.inl hd)
  | symbol =>
    rw [String.toList_append] at hc
    cases hc
    exact .inl (by decide)
  | str =>
    rw [String.toList_append, String.toList_append] at hc
    cases hc
    exact .inl (by decide)
  | _ =>
    cases hc
    exact .inl (by decide)

theorem lexeme_of_not_startsToken (h : ¬ StartsToken c) (cs : List Char) :
    lexeme c cs = .error (.stray (shownByte c)) := by
  simp only [StartsToken, List.mem_cons, List.not_mem_nil, or_false, not_or] at h
  obtain ⟨⟨hlparen, hrparen, hlbrace, hrbrace, hequal, hminus, hquote, hat⟩, hdigit, hname⟩ := h
  rw [lexeme, if_neg hlparen, if_neg hrparen, if_neg hlbrace, if_neg hrbrace, if_neg hequal,
    dif_neg hminus, if_neg hdigit, dif_neg hquote, dif_neg hat, if_neg hname]

theorem sound_lexeme (hspace : isSpace c = false) (hcomment : c ≠ ';') (cs : List Char) :
    Sound (lexeme c cs) := by
  by_cases hstarts : StartsToken c
  · rcases hstarts with hmark | hdigit | hname
    · simp only [List.mem_cons, List.not_mem_nil, or_false] at hmark
      rcases hmark with rfl | rfl | rfl | rfl | rfl | rfl | rfl | rfl
      · exact ⟨.lparen, fun _ _ hon => hon⟩
      · exact ⟨.rparen, fun _ _ hon => hon⟩
      · exact ⟨.lbrace, fun _ _ hon => hon⟩
      · exact ⟨.rbrace, fun _ _ hon => hon⟩
      · exact ⟨.equal, fun _ _ hon => hon⟩
      · exact sound_lexMinus cs
      · exact sound_lexStr cs
      · exact sound_lexSymbol cs
    · rw [lexeme_of_isDigit hdigit]
      exact sound_lexInt (startsInt_of_isDigit hdigit cs)
    · rw [lexeme_of_isNameStart hname]
      exact sound_lexName hname cs
  · rw [lexeme_of_not_startsToken hstarts]
    exact .stray hspace hcomment fun token text hwritten hc => hstarts (hwritten.startsToken hc)

/-! ### The head of an input -/

/-- At the head of an input there is a lexeme, which is no token. -/
def Fails (input : List Char) (fault : LexFault) : Prop :=
  ∃ c cs, input = c :: cs ∧ isSpace c = false ∧ c ≠ ';' ∧ lexeme c cs = .error fault

theorem Fails.hasFault (h : Fails input fault) : HasFault fault input := by
  obtain ⟨c, cs, rfl, hspace, hcomment, hlexeme⟩ := h
  have hsound := sound_lexeme hspace hcomment cs
  rwa [hlexeme] at hsound

theorem Fails.ne_empty (h : Fails text.toList fault) : text ≠ "" := by
  obtain ⟨c, cs, hcons, -⟩ := h
  rintro rfl
  cases hcons

/-- Where there is a fault, no token ends that begins there. -/
theorem Fails.not_ends (h : Fails (text.toList ++ rest) fault) (hwritten : token.WrittenAs text) :
    ¬ token.Ends text rest := by
  intro hends
  obtain ⟨c, cs, hcons, -, -, hlexeme⟩ := h
  obtain ⟨d, more, hcons', -, -, hread⟩ := hwritten.reads hends
  cases hcons.symm.trans hcons'
  rw [hlexeme] at hread
  cases hread

theorem Fails.lexFrom_eq (h : Fails input fault) (pos : Nat) :
    lexFrom pos input = .error ⟨pos, fault⟩ := by
  obtain ⟨c, cs, rfl, hspace, hcomment, hlexeme⟩ := h
  rw [lexFrom, if_neg (by rw [hspace]; exact Bool.false_ne_true), if_neg hcomment, hlexeme]

/-- Where a lexeme begins, there is a token or a fault. -/
theorem token_or_fails (hspace : isSpace c = false) (hcomment : c ≠ ';') (cs : List Char) :
    (∃ (token : Token) (text : String) (rest : List Char), c :: cs = text.toList ++ rest ∧
      token.WrittenAs text ∧ token.Ends text rest) ∨ ∃ fault, Fails (c :: cs) fault := by
  have hsound := sound_lexeme hspace hcomment cs
  cases hlexeme : lexeme c cs with
  | error fault => exact .inr ⟨fault, c, cs, rfl, hspace, hcomment, hlexeme⟩
  | ok l =>
    rw [hlexeme] at hsound
    exact .inl ⟨l.token, String.ofList l.text, l.rest,
      by rw [String.toList_ofList, l.append_eq], hsound⟩

end Token

end ComputeScript
