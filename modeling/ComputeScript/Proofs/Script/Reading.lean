import ComputeScript.Proofs.Script.Taking

/-!
# What is read is written

`Consumes p written` says that the tokens that the reader `p` takes write its answer.  Readers that
consume what the grammar says are put together along `bind`.  With the readers that take whatever
the grammar allows, this makes a text exactly as readable as the grammar says
(`Script.read_eq_ok_iff`).
-/

namespace ComputeScript

namespace Reader

/-- What a reader takes off the front writes what it answers. -/
def Consumes {α : Type} (p : Reader α) (written : α → List Token → Prop) : Prop :=
  ∀ located a r, p located = .ok (a, r) →
    ∃ taken, located.map Located.token = taken ++ r.1.map Located.token ∧ written a taken

variable {α β : Type} {written : α → List Token → Prop} {written' : β → List Token → Prop}

/-! ### Composition -/

theorem consumes_pure {a : α} (h : written a []) : Consumes (pure a) written := by
  intro located b r hread
  cases hread
  exact ⟨[], rfl, h⟩

theorem Consumes.mono {p : Reader α} {written'' : α → List Token → Prop} (hp : p.Consumes written)
    (h : ∀ a taken, written a taken → written'' a taken) : p.Consumes written'' := by
  intro located a r hread
  obtain ⟨taken, htaken, ha⟩ := hp located a r hread
  exact ⟨taken, htaken, h a taken ha⟩

theorem consumes_fail (t : Located) (fault : ParseFault) : Consumes (fail t fault) written :=
  fun _ _ _ hread => nomatch hread

theorem Consumes.bind {p : Reader α} {f : α → Reader β} (hp : p.Consumes written)
    (hf : ∀ a taken, written a taken → (f a).Consumes fun b more => written' b (taken ++ more)) :
    (p >>= f).Consumes written' := by
  intro located b r hread
  change Reader.bind p f located = _ at hread
  unfold Reader.bind at hread
  split at hread
  · cases hread
  next a rest hle hpa =>
    obtain ⟨taken, htaken, ha⟩ := hp located a ⟨rest, hle⟩ hpa
    split at hread
    · cases hread
    next b' rest' hle' hfb =>
      cases hread
      obtain ⟨more, hmore, hb⟩ := hf a taken ha rest b ⟨rest', hle'⟩ hfb
      refine ⟨taken ++ more, ?_, hb⟩
      rw [htaken, hmore, List.append_assoc]

/-- A reader that ends in an answer made from what came before. -/
theorem Consumes.map {p : Reader α} {f : α → β} (hp : p.Consumes written)
    (hf : ∀ a taken, written a taken → written' (f a) taken) :
    (p >>= fun a => pure (f a)).Consumes written' :=
  hp.bind fun a taken ha => consumes_pure (by rw [List.append_nil]; exact hf a taken ha)

theorem consumes_next : next.Consumes fun t taken => taken = [t.token] := by
  intro located t r hread
  cases located with
  | nil => cases hread
  | cons t' rest =>
    cases hread
    exact ⟨[t.token], rfl, rfl⟩

/-! ### Single tokens -/

theorem consumes_str : str.Consumes fun text taken => taken = [.str text] := by
  refine consumes_next.bind fun t taken htaken => ?_
  obtain ⟨token, pos⟩ := t
  cases token with
  | str text => exact consumes_pure (by rw [htaken, List.append_nil])
  | _ => exact consumes_fail _ _

theorem consumes_name :
    name.Consumes fun name taken => ∃ t : Token, taken = [t] ∧ t.Names name := by
  refine consumes_next.bind fun t taken htaken => ?_
  obtain ⟨token, pos⟩ := t
  cases token with
  | ident name => exact consumes_pure ⟨_, by rw [htaken, List.append_nil], .ident name⟩
  | symbol name => exact consumes_pure ⟨_, by rw [htaken, List.append_nil], .symbol name⟩
  | _ => exact consumes_fail _ _

theorem consumes_symbol : symbol.Consumes fun name taken => taken = [.symbol name] := by
  refine consumes_next.bind fun t taken htaken => ?_
  obtain ⟨token, pos⟩ := t
  cases token with
  | symbol name => exact consumes_pure (by rw [htaken, List.append_nil])
  | _ => exact consumes_fail _ _

theorem consumes_int : int.Consumes fun n taken => taken = [.int n] := by
  refine consumes_next.bind fun t taken htaken => ?_
  obtain ⟨token, pos⟩ := t
  cases token with
  | int n => exact consumes_pure (by rw [htaken, List.append_nil])
  | _ => exact consumes_fail _ _

theorem consumes_punctuation (t : Token) :
    (punctuation t).Consumes fun _ taken => taken = [t] := by
  refine consumes_next.bind fun found taken htaken => ?_
  split
  next heq => exact consumes_pure (by rw [htaken, heq, List.append_nil])
  next => exact consumes_fail _ _

theorem consumes_word :
    word.Consumes fun v taken => ∃ n, taken = [.int n] ∧ Word.StandsFor n v := by
  refine consumes_next.bind fun t taken htaken => ?_
  split
  next n heq =>
    split
    next v hv =>
      refine consumes_pure ⟨n, ?_, Word.ofNumber?_eq_some_iff.1 hv⟩
      rw [htaken, heq, List.append_nil]
    next => exact consumes_fail _ _
  next => exact consumes_fail _ _

theorem consumes_index : index.Consumes fun i taken => taken = [.int i.toNat] := by
  refine consumes_next.bind fun t taken htaken => ?_
  split
  next n heq =>
    split
    next i hi =>
      refine consumes_pure ?_
      rw [htaken, heq, Word.index?_eq_some_iff.1 hi, List.append_nil]
    next => exact consumes_fail _ _
  next => exact consumes_fail _ _

theorem consumes_indexAfter (mark : Token) : (indexAfter mark).Consumes (ClauseWrittenAs mark) := by
  intro located n r hread
  cases located with
  | nil =>
    cases hread
    exact ⟨[], rfl, .absent⟩
  | cons t rest =>
    rw [indexAfter] at hread
    split at hread
    next heq =>
      have hclause : Consumes (do let _ ← next; index) fun n taken =>
          ∃ k : Token, taken = [k, .int n.toNat] :=
        consumes_next.bind fun k _ hk => consumes_index.mono fun n _ hn =>
          ⟨k.token, by rw [hk, hn]; rfl⟩
      obtain ⟨_, htaken, k, rfl⟩ := hclause _ _ _ hread
      obtain ⟨hk, _⟩ := List.cons.inj htaken
      exact ⟨_, htaken, hk ▸ heq ▸ .present n⟩
    next =>
      cases hread
      exact ⟨[], rfl, .absent⟩

/-- An offset that is not written is 0. -/
theorem consumes_offset :
    offset.Consumes fun n taken => n = 0 ∧ taken = [] ∨ taken = [.int n.toNat] := by
  intro located n r hread
  cases located with
  | nil =>
    cases hread
    exact ⟨[], rfl, .inl ⟨rfl, rfl⟩⟩
  | cons t rest =>
    rw [offset] at hread
    split at hread
    next =>
      obtain ⟨taken, htaken, hn⟩ := consumes_index _ _ _ hread
      exact ⟨taken, htaken, .inr hn⟩
    next =>
      cases hread
      exact ⟨[], rfl, .inl ⟨rfl, rfl⟩⟩

end Reader

open Reader

/-! ### Definitions -/

theorem BinOp.mnemonic_of_ofMnemonic? {s : String} {op : BinOp} (h : ofMnemonic? s = some op) :
    op.mnemonic = s := by
  unfold ofMnemonic? at h
  have hop := List.find?_some h
  exact beq_iff_eq.1 hop

theorem consumes_readInst (t : Located) (mnemonic : String) :
    (readInst t mnemonic).Consumes fun inst operand =>
      inst.WrittenAs (.ident mnemonic :: operand) := by
  unfold readInst
  split
  next op hop =>
    rw [← BinOp.mnemonic_of_ofMnemonic? hop]
    exact consumes_pure (.binary op)
  split
  · exact consumes_word.map fun _ _ ⟨_, htaken, hn⟩ => htaken ▸ .const hn
  · exact consumes_index.map fun i _ htaken => htaken ▸ .localGet i
  · exact consumes_index.map fun i _ htaken => htaken ▸ .localSet i
  · exact consumes_index.map fun i _ htaken => htaken ▸ .localTee i
  · exact consumes_symbol.map fun name _ htaken => htaken ▸ .globalGet name
  · exact consumes_symbol.map fun name _ htaken => htaken ▸ .globalSet name
  · refine consumes_offset.map fun o _ htaken => ?_
    obtain ⟨rfl, rfl⟩ | rfl := htaken
    · exact .load
    · exact .loadAt o
  · refine consumes_offset.map fun o _ htaken => ?_
    obtain ⟨rfl, rfl⟩ | rfl := htaken
    · exact .store
    · exact .storeAt o
  · exact consumes_pure .eqz
  · exact consumes_symbol.map fun name _ htaken => htaken ▸ .call name
  · exact consumes_pure .block
  · exact consumes_pure .loop
  · exact consumes_pure .close
  · exact consumes_index.map fun d _ htaken => htaken ▸ .br d
  · exact consumes_index.map fun d _ htaken => htaken ▸ .brIf d
  · exact consumes_pure .drop
  · exact consumes_pure .ret
  · exact consumes_fail _ _

theorem consumes_readBody (func : String) :
    (readBody func).Consumes fun body taken =>
      ∃ code, WrittenInOrder Inst.WrittenAs body code ∧ taken = code ++ [.rbrace] := by
  intro located
  fun_induction readBody func located with
  | case1 => exact fun _ _ hread => nomatch hread
  | case2 t rest hbrace =>
    intro body r hread
    cases hread
    exact ⟨[.rbrace], by rw [List.map_cons, hbrace]; rfl, [], .nil, rfl⟩
  | case3 => exact fun _ _ hread => nomatch hread
  | case4 => exact fun _ _ hread => nomatch hread
  | case5 t rest mnemonic hident inst rest' hle hinst body rest'' hle' hbody ih =>
    intro _ r hread
    cases hread
    obtain ⟨operand, hoperand, hwritten⟩ := consumes_readInst t mnemonic rest inst _ hinst
    obtain ⟨_, hmore, code, hcode, rfl⟩ := ih body _ hbody
    refine ⟨_, ?_, _, .cons hwritten hcode, rfl⟩
    rw [List.map_cons, hident, hoperand, hmore]
    simp only [List.cons_append, List.append_assoc]
  | case6 => exact fun _ _ hread => nomatch hread

theorem consumes_readGlobal (linkage : Linkage) :
    (readGlobal linkage).Consumes fun g taken =>
      g.WrittenAs (linkage.tokens ++ .keyword .global :: taken) := by
  refine consumes_symbol.bind fun name _ hname => (consumes_punctuation _).bind fun _ _ heq =>
    consumes_word.map fun v _ ⟨n, htaken, hn⟩ => ?_
  rw [hname, heq, htaken]
  exact .mk name linkage hn

theorem consumes_readFunc (linkage : Linkage) :
    (readFunc linkage).Consumes fun f taken =>
      f.WrittenAs (linkage.tokens ++ .keyword .func :: taken) := by
  refine consumes_symbol.bind fun name _ hname => (consumes_punctuation _).bind fun _ _ hopen =>
    consumes_index.bind fun params _ hparams => (consumes_punctuation _).bind fun _ _ hclose =>
    (consumes_indexAfter _).bind fun results arrow hresults =>
    (consumes_indexAfter _).bind fun locals more hlocals =>
    (consumes_punctuation _).bind fun _ _ hbrace =>
    (consumes_readBody name).map fun body _ ⟨code, hbody, hcode⟩ => ?_
  rw [hname, hopen, hparams, hclose, hbrace, hcode]
  exact .mk name linkage params hresults hlocals hbody

/-! ### Items -/

theorem consumes_readExport :
    readExport.Consumes fun item taken => item.WrittenAs (.keyword .exports :: taken) := by
  refine consumes_next.bind fun kind _ hkind => ?_
  rw [hkind]
  split
  next heq =>
    rw [heq]
    exact consumes_name.map fun _ _ ⟨t, ht, hname⟩ => ht ▸ .exportVar hname
  next heq =>
    rw [heq]
    exact consumes_name.map fun _ _ ⟨t, ht, hname⟩ => ht ▸ .exportFunc hname
  next heq =>
    rw [heq]
    refine consumes_name.bind fun name _ ⟨t, ht, hname⟩ => consumes_int.bind fun n _ hn => ?_
    split
    next signature hbits =>
      split
      next hnat =>
        obtain ⟨hmask, rfl⟩ := Signature.ofBits?_eq_some_iff.1 hbits
        refine consumes_pure ?_
        rw [ht, hn, ← Int.toNat_of_nonneg hnat]
        exact .exportKernel hname hmask
      next => exact consumes_fail _ _
    next => exact consumes_fail _ _
  next => exact consumes_fail _ _

theorem consumes_readInternal :
    readInternal.Consumes fun item taken => item.WrittenAs (.keyword .internal :: taken) := by
  refine consumes_next.bind fun kind _ hkind => ?_
  rw [hkind]
  split
  next heq =>
    rw [heq]
    exact (consumes_readGlobal .internal).map fun _ _ hg => .global hg
  next heq =>
    rw [heq]
    exact (consumes_readFunc .internal).map fun _ _ hf => .func hf
  next => exact consumes_fail _ _

theorem consumes_readItem (t : Located) :
    (readItem t).Consumes fun item taken => item.WrittenAs (t.token :: taken) := by
  obtain ⟨token, pos⟩ := t
  unfold readItem
  dsimp only
  split
  · exact consumes_str.map fun id _ htaken => htaken ▸ .moduleId id
  · refine consumes_int.bind fun n _ htaken => ?_
    split
    next version hversion =>
      rw [htaken, Word.index?_eq_some_iff.1 hversion]
      exact consumes_pure (.version version)
    next => exact consumes_fail _ _
  · refine consumes_int.bind fun n _ htaken => ?_
    split
    next level hlevel =>
      rw [htaken, OptLevel.ofInt?_eq_some_iff.1 hlevel]
      exact consumes_pure (.optLevel level)
    next => exact consumes_fail _ _
  · exact consumes_str.map fun name _ htaken => htaken ▸ .library name
  · exact consumes_readExport
  · exact (consumes_readGlobal .external).map fun _ _ hg => .global hg
  · exact (consumes_readFunc .external).map fun _ _ hf => .func hf
  · exact consumes_readInternal
  · exact consumes_fail _ _

/-- Items that are read are written by the tokens, and at most one of them gives an id. -/
theorem writtenInOrder_of_readItems {named : Bool} {located : List Located} {items : List Item}
    (h : readItems named located = .ok items) :
    WrittenInOrder Item.WrittenAs items (located.map Located.token) ∧
      named.toNat + items.countP Item.isModuleId ≤ 1 := by
  fun_induction readItems named located generalizing items with
  | case1 named =>
    cases h
    exact ⟨.nil, named.toNat_le⟩
  | case2 => cases h
  | case3 => cases h
  | case4 => cases h
  | case5 named t rest item rest' hle hread hnamed others hothers ih =>
    cases h
    obtain ⟨taken, htaken, hitem⟩ := consumes_readItem t rest item _ hread
    obtain ⟨hwritten, hids⟩ := ih hothers
    refine ⟨?_, countP_isModuleId_cons_le_iff.2 ⟨Bool.not_eq_true _ ▸ hnamed, hids⟩⟩
    rw [List.map_cons, htaken, ← List.cons_append]
    exact .cons hitem hwritten

/-! ### Scripts -/

theorem lastOf_cons_iff {α : Type} {setting : Item → Option α} {item : Item} {items : List Item}
    {default value : α} :
    LastOf setting (item :: items) default value ↔
      LastOf setting items ((setting item).getD default) value := by
  constructor
  · rintro (⟨hnone, rfl⟩ | ⟨before, last, after, hsplit, hlast, hafter⟩)
    · obtain ⟨hitem, hitems⟩ := List.forall_mem_cons.1 hnone
      exact .inl ⟨hitems, by rw [hitem, Option.getD_none]⟩
    · cases before with
      | nil =>
        obtain ⟨rfl, rfl⟩ := List.cons.inj hsplit
        exact .inl ⟨hafter, by rw [hlast, Option.getD_some]⟩
      | cons _ before =>
        obtain ⟨_, rfl⟩ := List.cons.inj hsplit
        exact .inr ⟨before, last, after, rfl, hlast, hafter⟩
  · rintro (⟨hnone, rfl⟩ | ⟨before, last, after, rfl, hlast, hafter⟩)
    · cases hitem : setting item with
      | none => exact .inl ⟨List.forall_mem_cons.2 ⟨hitem, hnone⟩, rfl⟩
      | some value => exact .inr ⟨[], item, items, rfl, hitem, hnone⟩
    · exact .inr ⟨item :: before, last, after, rfl, hlast, hafter⟩

theorem lastOf_iff {α : Type} {setting : Item → Option α} {items : List Item}
    {default value : α} :
    LastOf setting items default value ↔ value = (items.filterMap setting).getLastD default := by
  induction items generalizing default with
  | nil =>
    constructor
    · rintro (⟨_, h⟩ | ⟨before, last, after, hsplit, _⟩)
      · exact h
      · exact absurd hsplit.symm (List.append_ne_nil_of_right_ne_nil before (List.cons_ne_nil _ _))
    · exact fun h => .inl ⟨fun _ hitem => absurd hitem List.not_mem_nil, h⟩
  | cons item items ih =>
    rw [lastOf_cons_iff, ih, List.filterMap_cons]
    cases setting item with
    | none => rfl
    | some v => rw [List.getLastD_cons, Option.getD_some]

namespace Script

/-- Items make up one script. -/
theorem madeOf_iff {script : Script} {items : List Item} :
    script.MadeOf items ↔ script = ofItems items := by
  have hlibrary : (items.filterMap fun item => item.library?.map some).getLastD none =
      (items.filterMap Item.library?).getLast? := by
    rw [← List.map_filterMap, List.getLastD_eq_getLast?, List.getLast?_map]
    cases (items.filterMap Item.library?).getLast? <;> rfl
  constructor
  · intro h
    obtain ⟨⟨id, globals, funcs⟩, exports, optLevel, version, library⟩ := script
    have hid := lastOf_iff.1 h.id
    have hversion := lastOf_iff.1 h.version
    have hlevel := lastOf_iff.1 h.optLevel
    have hlib := hlibrary ▸ lastOf_iff.1 h.library
    obtain ⟨-, -, -, -, hglobals, hfuncs, hexports⟩ := h
    dsimp only at *
    subst hid hversion hlevel hlib hglobals hfuncs hexports
    rfl
  · rintro rfl
    exact
      { id := lastOf_iff.2 rfl
        version := lastOf_iff.2 rfl
        optLevel := lastOf_iff.2 rfl
        library := lastOf_iff.2 hlibrary.symm
        globals := rfl
        funcs := rfl
        exports := rfl }

/-- A text is read exactly if its tokens write items of which at most one gives an id, and what is
read is the script that is made of them. -/
theorem read_eq_ok_iff (source : String) (script : Script) :
    Script.read source = .ok script ↔
      ∃ located items, Token.lex source = .ok located ∧
        WrittenInOrder Item.WrittenAs items (located.map Located.token) ∧
        items.countP Item.isModuleId ≤ 1 ∧ script.MadeOf items := by
  constructor
  · intro h
    unfold Script.read at h
    split at h
    · cases h
    next located hlex =>
      split at h
      · cases h
      next items hitems =>
        cases h
        obtain ⟨hwritten, hids⟩ := writtenInOrder_of_readItems hitems
        exact ⟨located, items, hlex, hwritten, Nat.le_trans (Nat.le_add_left _ _) hids,
          madeOf_iff.2 rfl⟩
  · rintro ⟨located, items, hlex, hwritten, hids, hmade⟩
    have hitems : readItems false located = .ok items :=
      readsItems_of_writtenInOrder hwritten (by rwa [Bool.toNat_false, Nat.zero_add]) located rfl
    rw [Script.read, hlex]
    simp only [hitems]
    rw [madeOf_iff.1 hmade]

end Script

end ComputeScript
