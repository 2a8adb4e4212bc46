import ComputeScript.Proofs.Token.Written

/-!
# Texts that spell tokens

A text spells tokens if it can stand in front of any other text and adds just these tokens to those
that follow (`Spells`).  A name or a number ends where it is followed by something that it cannot go
on with, so it spells its token in front of `Stops` only.
-/

namespace ComputeScript

namespace Token

/-- A text has these tokens, wherever it stands. -/
def Lexes (cs : List Char) (tokens : List Token) : Prop :=
  ∀ pos, ∃ located, lexFrom pos cs = .ok located ∧ located.map Located.token = tokens

/-- Whatever has the property and some tokens has these tokens before them if `s` stands before
it. -/
def Spells (P : List Char → Prop) (s : String) (tokens : List Token) : Prop :=
  ∀ rest others, P rest → Lexes rest others → Lexes (s.toList ++ rest) (tokens ++ others)

/-- Anything may follow. -/
abbrev Anything (_ : List Char) : Prop := True

variable {P Q : List Char → Prop} {s s' : String} {tokens tokens' : List Token}

/-! ### Composition -/

theorem lexes_nil : Lexes [] [] := by
  intro pos
  refine ⟨[], ?_, rfl⟩
  rw [lexFrom]

theorem Spells.lexes (h : Spells P s tokens) (hP : P []) : Lexes s.toList tokens := by
  have := h [] [] hP lexes_nil
  rwa [List.append_nil, List.append_nil] at this

theorem Spells.mono (h : Spells P s tokens) (hPQ : ∀ rest, Q rest → P rest) :
    Spells Q s tokens :=
  fun rest others hrest => h rest others (hPQ rest hrest)

theorem Spells.append (h : Spells P s tokens) (h' : Spells Q s' tokens')
    (hPQ : ∀ rest, Q rest → P (s'.toList ++ rest)) : Spells Q (s ++ s') (tokens ++ tokens') := by
  intro rest others hQ hrest
  rw [String.toList_append, List.append_assoc, List.append_assoc]
  exact h _ _ (hPQ rest hQ) (h' rest others hQ hrest)

theorem spells_empty : Spells P "" [] :=
  fun _ _ _ h => h

theorem Spells.join {α : Type} {text : α → String} {tokens : α → List Token} {xs : List α}
    (h : ∀ x ∈ xs, Spells Anything (text x) (tokens x)) :
    Spells Anything (String.join (xs.map text)) (xs.flatMap tokens) := by
  induction xs with
  | nil => exact spells_empty
  | cons x xs ih =>
    rw [List.map_cons, String.join_cons, List.flatMap_cons]
    exact (h x List.mem_cons_self).append (ih fun y hy => h y (List.mem_cons_of_mem x hy))
      fun _ _ => trivial

/-! ### Blanks and comments -/

theorem spells_space {c : Char} (h : isSpace c = true) :
    Spells Anything (String.singleton c) [] := by
  intro rest others _ hrest pos
  rw [String.toList_singleton, List.singleton_append, lexFrom_space h]
  exact hrest (pos + 1)

theorem spells_spaces (n : Nat) : Spells Anything (String.ofList (List.replicate n ' ')) [] := by
  induction n with
  | zero => exact spells_empty
  | succ n ih =>
    rw [List.replicate_succ, ← List.singleton_append, String.ofList_append,
      ← String.singleton_eq_ofList]
    exact (spells_space (c := ' ') rfl).append ih fun _ _ => trivial

/-- A comment of one line has no tokens. -/
theorem spells_comment {text : String} (h : '\n' ∉ text.toList) :
    Spells Anything (";" ++ text ++ "\n") [] := by
  intro rest others _ hrest pos
  rw [String.toList_append, String.toList_append, List.append_assoc, List.append_assoc]
  change ∃ located, lexFrom pos (';' :: (text.toList ++ '\n' :: rest)) = .ok located ∧ _
  rw [lexFrom_comment h (.inr rfl)]
  exact spells_space (c := '\n') rfl rest others trivial hrest _

/-! ### Tokens -/

/-- What a token is written as spells this token wherever it ends. -/
theorem WrittenAs.spells {token : Token} (h : token.WrittenAs s) :
    Spells (token.Ends s) s [token] := by
  intro rest others hends hrest pos
  obtain ⟨located, hlex, rfl⟩ := hrest (pos + width s.toList)
  exact ⟨⟨token, pos⟩ :: located, by rw [lexFrom_of_reads (h.reads hends), hlex]; rfl, rfl⟩

theorem WrittenAs.spells_stops {token : Token} (h : token.WrittenAs s) : Spells Stops s [token] :=
  h.spells.mono fun _ => ends_of_stops

theorem spells_word (h : isWord s = true) : Spells Stops s [ofName s] :=
  (writtenAs_ofName h).spells_stops

theorem spells_symbol {name : String} (h : IsSymbolName name) :
    Spells Stops ("@" ++ name) [.symbol name] :=
  (WrittenAs.symbol h).spells_stops

theorem spells_str {text : String} (h : IsStringText text) :
    Spells Anything ("\"" ++ text ++ "\"") [.str text] :=
  (WrittenAs.str h).spells.mono fun _ _ _ _ hon => hon

theorem spells_arrow : Spells Anything "->" [.arrow] :=
  WrittenAs.arrow.spells.mono fun _ _ _ _ hon => hon

theorem spells_lparen : Spells Anything "(" [.lparen] :=
  WrittenAs.lparen.spells.mono fun _ _ _ _ hon => hon

theorem spells_rparen : Spells Anything ")" [.rparen] :=
  WrittenAs.rparen.spells.mono fun _ _ _ _ hon => hon

theorem spells_lbrace : Spells Anything "\x7b" [.lbrace] :=
  WrittenAs.lbrace.spells.mono fun _ _ _ _ hon => hon

theorem spells_rbrace : Spells Anything "\x7d" [.rbrace] :=
  WrittenAs.rbrace.spells.mono fun _ _ _ _ hon => hon

theorem spells_equal : Spells Anything "=" [.equal] :=
  WrittenAs.equal.spells.mono fun _ _ _ _ hon => hon

theorem spells_int {i : Int} (h : -0x8000000000000000 < i ∧ i < 0x8000000000000000) :
    Spells Stops (toString i) [.int i] :=
  (writtenAs_toString h).spells_stops

theorem spells_nat {n : Nat} (h : n < 0x8000000000000000) :
    Spells Stops (toString n) [.int n] :=
  spells_int (i := n) (by omega)

end Token

end ComputeScript
