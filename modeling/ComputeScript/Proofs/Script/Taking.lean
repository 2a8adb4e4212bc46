import ComputeScript.Proofs.Script.Grammar
import ComputeScript.Proofs.Word

/-!
# Reading what is written

`Takes p tokens a rest` says that the reader `p` answers `a` from these tokens and leaves `rest`,
whatever the positions are.  From tokens that the grammar allows, the reader makes the items that
they write (`readsItems_of_writtenInOrder`).
-/

namespace ComputeScript

namespace Reader

/-- From these tokens, wherever they stand, a reader answers `a` and leaves the rest. -/
def Takes {α : Type} (p : Reader α) (tokens : List Token) (a : α) (rest : List Token) : Prop :=
  ∀ located, located.map Located.token = tokens →
    ∃ r, p located = .ok (a, r) ∧ r.1.map Located.token = rest

variable {α β : Type} {tokens rest rest' : List Token}

/-! ### Composition -/

theorem takes_pure (a : α) : Takes (pure a) tokens a tokens :=
  fun located h => ⟨⟨located, Nat.le_refl _⟩, rfl, h⟩

theorem Takes.bind {p : Reader α} {f : α → Reader β} {a : α} {b : β}
    (hp : Takes p tokens a rest) (hf : Takes (f a) rest b rest') :
    Takes (p >>= f) tokens b rest' := by
  intro located h
  obtain ⟨⟨l, hl⟩, hpa, hrest⟩ := hp located h
  obtain ⟨⟨l', hl'⟩, hfb, hrest'⟩ := hf l hrest
  refine ⟨⟨l', Nat.le_trans hl' hl⟩, ?_, hrest'⟩
  change Reader.bind p f located = _
  simp only [Reader.bind, hpa, hfb]

/-- A reader is described by what it does with the first token and the others. -/
theorem takes_cons {p : Reader α} {k : Token} {a : α}
    (h : ∀ t l, t.token = k → l.map Located.token = rest →
      ∃ r, p (t :: l) = .ok (a, r) ∧ r.1.map Located.token = rest') :
    Takes p (k :: rest) a rest' := by
  intro located hmap
  cases located with
  | nil => cases hmap
  | cons t l =>
    obtain ⟨htoken, hl⟩ := List.cons.inj hmap
    exact h t l htoken hl

theorem takes_next {k : Token} {f : Located → Reader α} {a : α}
    (h : ∀ pos, Takes (f ⟨k, pos⟩) rest a rest') : Takes (next >>= f) (k :: rest) a rest' := by
  refine takes_cons fun t l htoken hl => ?_
  obtain ⟨⟨l', hl'⟩, hf, hrest'⟩ := h t.pos l hl
  rw [← htoken] at hf
  refine ⟨⟨l', Nat.le_trans hl' (Nat.le_succ _)⟩, ?_, hrest'⟩
  change Reader.bind next f (t :: l) = _
  simp only [Reader.bind, next, hf]

/-! ### Single tokens -/

theorem takes_symbol (name : String) : Takes symbol (.symbol name :: rest) name rest :=
  takes_next fun _ => takes_pure name

theorem takes_str (text : String) : Takes str (.str text :: rest) text rest :=
  takes_next fun _ => takes_pure text

theorem takes_punctuation (t : Token) : Takes (punctuation t) (t :: rest) () rest := by
  refine takes_next fun pos => ?_
  rw [if_pos rfl]
  exact takes_pure ()

theorem takes_int (n : Int) : Takes int (.int n :: rest) n rest :=
  takes_next fun _ => takes_pure n

theorem takes_name {t : Token} {s : String} (h : t.Names s) : Takes name (t :: rest) s rest := by
  cases h with
  | ident s => exact takes_next fun _ => takes_pure s
  | symbol s => exact takes_next fun _ => takes_pure s

theorem takes_word {n : Int} {v : Int32} (h : Word.StandsFor n v) :
    Takes word (.int n :: rest) v rest := by
  have hn := Word.ofNumber?_eq_some_iff.2 h
  refine takes_next fun pos => ?_
  simp only [hn]
  exact takes_pure v

theorem takes_index (n : UInt32) : Takes index (.int n.toNat :: rest) n rest := by
  -- the range check is a variable, so that its bounds are never unfolded
  obtain ⟨check, hcheck, hn⟩ : ∃ check, check = Word.index? ∧ check n.toNat = some n :=
    ⟨_, rfl, Word.index?_toNat n⟩
  rw [index, ← hcheck]
  refine takes_next fun pos => ?_
  simp only [hn]
  exact takes_pure n

theorem takes_offset (n : UInt32) : Takes offset (.int n.toNat :: rest) n rest := by
  refine takes_cons fun t l htoken hl => ?_
  have hint : isInt t.token = true := by
    rw [htoken]
    rfl
  rw [offset, if_pos hint]
  exact takes_index n _ (by rw [List.map_cons, htoken, hl])

/-- An offset is 0 where no integer comes next. -/
theorem takes_offset_absent (h : ∀ t, rest.head? = some t → isInt t = false) :
    Takes offset rest 0 rest := by
  intro located hmap
  cases located with
  | nil => exact ⟨_, rfl, hmap⟩
  | cons t l =>
    have hint : isInt t.token = false := h _ (by rw [← hmap]; rfl)
    rw [offset, hint]
    exact ⟨_, rfl, hmap⟩

theorem takes_indexAfter {mark : Token} {n : UInt32} (hn : ClauseWrittenAs mark n tokens)
    (h : rest.head? ≠ some mark) : Takes (indexAfter mark) (tokens ++ rest) n rest := by
  cases hn with
  | absent =>
    intro located hmap
    rw [List.nil_append] at hmap
    cases located with
    | nil => exact ⟨_, rfl, hmap⟩
    | cons t l =>
      have hne : t.token ≠ mark := by
        rintro rfl
        rw [← hmap] at h
        exact h rfl
      rw [indexAfter, if_neg hne]
      exact ⟨_, rfl, hmap⟩
  | present =>
    refine takes_cons fun t l htoken hl => ?_
    have hindex : Takes (do let _ ← next; index) ([mark, .int n.toNat] ++ rest) n rest :=
      takes_next fun _ => takes_index n
    rw [indexAfter, if_pos htoken]
    exact hindex _ (by rw [List.map_cons, htoken, hl]; rfl)

end Reader

open Reader

variable {tokens rest : List Token}

/-! ### Definitions -/

/-- The mnemonic of an instruction comes first, and says how to read what follows.  Only an integer
that follows could be taken for more. -/
theorem Inst.WrittenAs.exists_mnemonic {inst : Inst String} (h : inst.WrittenAs tokens) :
    ∃ mnemonic operand, tokens = .ident mnemonic :: operand ∧
      ∀ t rest, (∀ t, rest.head? = some t → isInt t = false) →
        (readInst t mnemonic).Takes (operand ++ rest) inst rest := by
  cases h with
  | const h => exact ⟨_, _, rfl, fun t rest _ => (takes_word h).bind (takes_pure _)⟩
  | localGet i => exact ⟨_, _, rfl, fun t rest _ => (takes_index i).bind (takes_pure _)⟩
  | localSet i => exact ⟨_, _, rfl, fun t rest _ => (takes_index i).bind (takes_pure _)⟩
  | localTee i => exact ⟨_, _, rfl, fun t rest _ => (takes_index i).bind (takes_pure _)⟩
  | globalGet name => exact ⟨_, _, rfl, fun t rest _ => (takes_symbol name).bind (takes_pure _)⟩
  | globalSet name => exact ⟨_, _, rfl, fun t rest _ => (takes_symbol name).bind (takes_pure _)⟩
  | load => exact ⟨_, _, rfl, fun t rest hr => (takes_offset_absent hr).bind (takes_pure _)⟩
  | loadAt o => exact ⟨_, _, rfl, fun t rest _ => (takes_offset o).bind (takes_pure _)⟩
  | store => exact ⟨_, _, rfl, fun t rest hr => (takes_offset_absent hr).bind (takes_pure _)⟩
  | storeAt o => exact ⟨_, _, rfl, fun t rest _ => (takes_offset o).bind (takes_pure _)⟩
  | binary op => cases op <;> exact ⟨_, _, rfl, fun t rest _ => takes_pure _⟩
  | eqz => exact ⟨_, _, rfl, fun t rest _ => takes_pure _⟩
  | call name => exact ⟨_, _, rfl, fun t rest _ => (takes_symbol name).bind (takes_pure _)⟩
  | block => exact ⟨_, _, rfl, fun t rest _ => takes_pure _⟩
  | loop => exact ⟨_, _, rfl, fun t rest _ => takes_pure _⟩
  | close => exact ⟨_, _, rfl, fun t rest _ => takes_pure _⟩
  | br d => exact ⟨_, _, rfl, fun t rest _ => (takes_index d).bind (takes_pure _)⟩
  | brIf d => exact ⟨_, _, rfl, fun t rest _ => (takes_index d).bind (takes_pure _)⟩
  | drop => exact ⟨_, _, rfl, fun t rest _ => takes_pure _⟩
  | ret => exact ⟨_, _, rfl, fun t rest _ => takes_pure _⟩

/-- What comes after an instruction is a mnemonic or the end of the body, and no integer. -/
theorem isInt_head?_body {body : List (Inst String)}
    (h : WrittenInOrder Inst.WrittenAs body tokens) {t : Token}
    (ht : (tokens ++ .rbrace :: rest).head? = some t) : isInt t = false := by
  cases h with
  | nil =>
    cases ht
    rfl
  | cons hinst _ =>
    obtain ⟨mnemonic, operand, rfl, -⟩ := hinst.exists_mnemonic
    cases ht
    rfl

theorem takes_body (func : String) {body : List (Inst String)}
    (h : WrittenInOrder Inst.WrittenAs body tokens) :
    (readBody func).Takes (tokens ++ .rbrace :: rest) body rest := by
  induction h with
  | nil =>
    refine takes_cons fun t l htoken hl => ?_
    rw [readBody]
    simp only [htoken]
    exact ⟨_, rfl, hl⟩
  | cons hinst hs ih =>
    obtain ⟨mnemonic, operand, rfl, htakes⟩ := hinst.exists_mnemonic
    rw [List.cons_append, List.cons_append, List.append_assoc]
    refine takes_cons fun t l htoken hl => ?_
    obtain ⟨⟨l', hle⟩, hread, hl'⟩ := htakes t _ (fun _ ht => isInt_head?_body hs ht) l hl
    obtain ⟨⟨l'', hle'⟩, hbody, hrest⟩ := ih l' hl'
    rw [readBody]
    simp only [htoken, hread, hbody]
    exact ⟨_, rfl, hrest⟩

theorem takes_global {name : String} {linkage : Linkage} {n : Int} {v : Int32}
    (h : Word.StandsFor n v) :
    (readGlobal linkage).Takes (.symbol name :: .equal :: .int n :: rest) ⟨name, linkage, v⟩ rest :=
  (takes_symbol name).bind ((takes_punctuation .equal).bind ((takes_word h).bind (takes_pure _)))

theorem takes_func (name : String) (linkage : Linkage) (params : UInt32) (rest : List Token)
    {results locals : UInt32} {body : List (Inst String)} {arrow more code : List Token}
    (hresults : ClauseWrittenAs .arrow results arrow)
    (hlocals : ClauseWrittenAs (.keyword .locals) locals more)
    (hbody : WrittenInOrder Inst.WrittenAs body code) :
    (readFunc linkage).Takes
      (.symbol name :: .lparen :: .int params.toNat :: .rparen ::
        (arrow ++ (more ++ .lbrace :: (code ++ .rbrace :: rest))))
      ⟨name, linkage, params, results, locals, body⟩ rest := by
  have harrow : (more ++ .lbrace :: (code ++ .rbrace :: rest)).head? ≠ some .arrow := by
    cases hlocals <;> exact fun h => nomatch h
  have hmore : (.lbrace :: (code ++ .rbrace :: rest) : List Token).head? ≠
      some (.keyword .locals) := fun h => nomatch h
  exact (takes_symbol name).bind <| (takes_punctuation .lparen).bind <|
    (takes_index params).bind <| (takes_punctuation .rparen).bind <|
    (takes_indexAfter hresults harrow).bind <| (takes_indexAfter hlocals hmore).bind <|
    (takes_punctuation .lbrace).bind <| (takes_body name hbody).bind (takes_pure _)

/-! ### Items -/

/-- The first token of an item says how to read what follows. -/
theorem Item.WrittenAs.exists_takes {item : Item} (h : item.WrittenAs tokens) :
    ∃ k more, tokens = k :: more ∧
      ∀ pos rest, (readItem ⟨k, pos⟩).Takes (more ++ rest) item rest := by
  cases h with
  | moduleId id => exact ⟨_, _, rfl, fun pos rest => (takes_str id).bind (takes_pure _)⟩
  | version v =>
    refine ⟨_, _, rfl, fun pos rest => (takes_int _).bind ?_⟩
    rw [Word.index?_toNat]
    exact takes_pure _
  | optLevel level =>
    refine ⟨_, _, rfl, fun pos rest => (takes_int _).bind ?_⟩
    rw [OptLevel.ofInt?_eq_some_iff.2 rfl]
    exact takes_pure _
  | library name => exact ⟨_, _, rfl, fun pos rest => (takes_str name).bind (takes_pure _)⟩
  | exportVar hname =>
    exact ⟨_, _, rfl, fun pos rest => takes_next fun _ => (takes_name hname).bind (takes_pure _)⟩
  | exportFunc hname =>
    exact ⟨_, _, rfl, fun pos rest => takes_next fun _ => (takes_name hname).bind (takes_pure _)⟩
  | exportKernel hname hbits =>
    refine ⟨_, _, rfl, fun pos rest =>
      takes_next fun _ => (takes_name hname).bind ((takes_int _).bind ?_)⟩
    rw [Int.toNat_natCast, Signature.ofBits?_eq_some_iff.2 ⟨hbits, rfl⟩]
    dsimp only
    rw [if_pos (Int.natCast_nonneg _)]
    exact takes_pure _
  | global hglobal =>
    cases hglobal with
    | mk name linkage hword =>
      cases linkage with
      | external => exact ⟨_, _, rfl, fun pos rest => (takes_global hword).bind (takes_pure _)⟩
      | internal =>
        exact ⟨_, _, rfl, fun pos rest =>
          takes_next fun _ => (takes_global hword).bind (takes_pure _)⟩
  | func hfunc =>
    cases hfunc with
    | mk name linkage params hresults hlocals hbody =>
      have hread (linkage : Linkage) (rest : List Token) :=
        takes_func name linkage params rest hresults hlocals hbody
      cases linkage with
      | external =>
        refine ⟨_, _, rfl, fun pos rest => ?_⟩
        simp only [List.cons_append, List.append_assoc, List.nil_append]
        exact (hread .external rest).bind (takes_pure _)
      | internal =>
        refine ⟨_, _, rfl, fun pos rest => ?_⟩
        simp only [List.append_eq, List.cons_append, List.append_assoc, List.nil_append]
        exact takes_next fun _ => (hread .internal rest).bind (takes_pure _)

/-- From these tokens, wherever they stand, these items are read. -/
def ReadsItems (named : Bool) (tokens : List Token) (items : List Item) : Prop :=
  ∀ located, located.map Located.token = tokens → readItems named located = .ok items

theorem ReadsItems.cons {named : Bool} {k : Token} {tokens rest : List Token} {item : Item}
    {items : List Item} (hitem : ∀ pos, (readItem ⟨k, pos⟩).Takes tokens item rest)
    (hnamed : (named && item.isModuleId) = false)
    (hitems : ReadsItems (named || item.isModuleId) rest items) :
    ReadsItems named (k :: tokens) (item :: items) := by
  intro located h
  cases located with
  | nil => cases h
  | cons t l =>
    obtain ⟨htoken, hl⟩ := List.cons.inj h
    obtain ⟨⟨l', hle⟩, hread, hl'⟩ := hitem t.pos l hl
    rw [← htoken] at hread
    rw [readItems]
    simp only [hread, hnamed, hitems l' hl', if_neg Bool.false_ne_true]

/-- Items are read from whatever they are written as, if only one of them gives an id. -/
theorem readsItems_of_writtenInOrder {named : Bool} {items : List Item}
    (h : WrittenInOrder Item.WrittenAs items tokens)
    (hids : named.toNat + items.countP Item.isModuleId ≤ 1) : ReadsItems named tokens items := by
  induction h generalizing named with
  | nil =>
    intro located hmap
    rw [List.map_eq_nil_iff.1 hmap, readItems]
  | @cons _ _ _ more hitem _ ih =>
    obtain ⟨k, operands, rfl, htakes⟩ := hitem.exists_takes
    obtain ⟨hnamed, hids⟩ := countP_isModuleId_cons_le_iff.1 hids
    exact .cons (fun pos => htakes pos more) hnamed (ih hids)

/-! ### Modules -/

theorem module_ofItems (m : Module) : (Script.ofItems m.items).module = m := by
  have hsplit {α : Type} (f : Item → Option α) : m.items.filterMap f =
      (f (.moduleId m.id)).toList ++ (m.globals.filterMap (f ∘ .global) ++
        m.funcs.filterMap (f ∘ .func)) := by
    rw [← List.filterMap_map, ← List.filterMap_map, ← List.filterMap_append, Module.items,
      List.filterMap_cons]
    cases f (.moduleId m.id) <;> rfl
  have hnone {α β : Type} (xs : List α) : xs.filterMap (fun _ => (none : Option β)) = [] :=
    List.filterMap_eq_nil_iff.2 fun _ _ => rfl
  have hid : m.items.filterMap Item.moduleId? = [m.id] := by
    rw [hsplit, show Item.moduleId? ∘ Item.global = fun _ => none from rfl,
      show Item.moduleId? ∘ Item.func = fun _ => none from rfl, hnone, hnone]
    rfl
  have hglobals : m.items.filterMap Item.global? = m.globals := by
    rw [hsplit, show Item.global? ∘ Item.global = some from rfl,
      show Item.global? ∘ Item.func = fun _ => none from rfl, List.filterMap_some, hnone,
      List.append_nil]
    rfl
  have hfuncs : m.items.filterMap Item.func? = m.funcs := by
    rw [hsplit, show Item.func? ∘ Item.global = fun _ => none from rfl,
      show Item.func? ∘ Item.func = some from rfl, hnone, List.filterMap_some, List.nil_append]
    rfl
  rw [Script.ofItems, hid, hglobals, hfuncs]
  rfl

theorem countP_isModuleId_items (m : Module) : m.items.countP Item.isModuleId = 1 := by
  have hglobals : (m.globals.map Item.global).countP Item.isModuleId = 0 := by
    rw [List.countP_map]
    exact congrFun List.countP_false _
  have hfuncs : (m.funcs.map Item.func).countP Item.isModuleId = 0 := by
    rw [List.countP_map]
    exact congrFun List.countP_false _
  rw [Module.items, List.countP_cons_of_pos rfl, List.countP_append, hglobals, hfuncs]

/-- A module is read back from its tokens, wherever they stand. -/
theorem readItems_of_tokens {m : Module} {located : List Located}
    (h : located.map Located.token = m.tokens) :
    ∃ items, readItems false located = .ok items ∧ (Script.ofItems items).module = m :=
  ⟨m.items, readsItems_of_writtenInOrder m.writtenInOrder_tokens
    (Nat.le_of_eq (by rw [countP_isModuleId_items, Bool.toNat_false])) located h, module_ofItems m⟩

end ComputeScript
