import ComputeScript.Proofs.Script.Reading
import ComputeScript.Proofs.Token.Faults

/-!
# What is read can be printed

Every symbol of a text has a name, and no string of it goes over a quote or a line end
(`Token.wellFormed_of_lexFrom`).  Names are written as symbols, so a module that was read from any
text is printable (`Module.printable_of_read`).
-/

namespace ComputeScript

namespace Token

/-- A token is one that some text has. -/
def WellFormed : Token → Prop
  | .symbol name => IsSymbolName name
  | .str text => IsStringText text
  | _ => True

theorem WrittenAs.wellFormed {token : Token} {text : String} (h : token.WrittenAs text) :
    token.WellFormed := by
  cases h with
  | symbol hname => exact hname
  | str htext => exact htext
  | _ => trivial

theorem wellFormed_of_lexFrom {pos : Nat} {cs : List Char} {located : List Located}
    (h : lexFrom pos cs = .ok located) : ∀ t ∈ located, t.token.WellFormed := by
  fun_induction lexFrom pos cs generalizing located with
  | case1 =>
    cases h
    exact fun t ht => absurd ht List.not_mem_nil
  | case2 pos c cs _ ih => exact ih h
  | case3 pos cs _ ih => exact ih h
  | case4 => cases h
  | case5 => cases h
  | case6 pos c cs hspace hcomment l hl tokens htokens ih =>
    cases h
    have hsound := sound_lexeme (Bool.eq_false_iff.2 hspace) hcomment cs
    rw [hl] at hsound
    exact List.forall_mem_cons.2 ⟨hsound.1.wellFormed, ih htokens⟩

end Token

open Token

/-! ### Definitions -/

/-- What is written one after another in well-formed tokens has what well-formed tokens give. -/
theorem WrittenInOrder.forall_mem {α : Type} {written : α → List Token → Prop} {P : α → Prop}
    (hP : ∀ a tokens, written a tokens → (∀ t ∈ tokens, t.WellFormed) → P a) {as : List α}
    {tokens : List Token} (h : WrittenInOrder written as tokens)
    (htokens : ∀ t ∈ tokens, t.WellFormed) : ∀ a ∈ as, P a := by
  induction h with
  | nil => exact fun a ha => absurd ha List.not_mem_nil
  | cons ha _ ih =>
    obtain ⟨hfirst, hmore⟩ := List.forall_mem_append.1 htokens
    exact List.forall_mem_cons.2 ⟨hP _ _ ha hfirst, ih hmore⟩

variable {tokens : List Token}

theorem Inst.WrittenAs.printable {inst : Inst String} (h : inst.WrittenAs tokens)
    (htokens : ∀ t ∈ tokens, t.WellFormed) : inst.Printable := by
  intro name hname
  cases h <;> cases hname
  all_goals exact htokens (.symbol name) (List.mem_cons_of_mem _ List.mem_cons_self)

theorem Global.WrittenAs.printable {g : Global} (h : g.WrittenAs tokens)
    (htokens : ∀ t ∈ tokens, t.WellFormed) : IsSymbolName g.name := by
  obtain ⟨name, linkage, hn⟩ := h
  exact htokens (.symbol name) (by simp)

theorem Func.WrittenAs.printable {f : Func} (h : f.WrittenAs tokens)
    (htokens : ∀ t ∈ tokens, t.WellFormed) :
    IsSymbolName f.name ∧ ∀ name ∈ f.references, IsSymbolName name := by
  obtain ⟨name, linkage, params, hresults, hlocals, hbody⟩ := h
  refine ⟨htokens (.symbol name) (by simp), fun target htarget => ?_⟩
  obtain ⟨inst, hinst, href⟩ := List.mem_filterMap.1 htarget
  have hinsts := hbody.forall_mem (fun _ _ h => h.printable)
    fun t ht => htokens t (by simp [ht])
  exact hinsts inst hinst target href

/-! ### Items -/

/-- What an item adds to a module can be written. -/
def Item.Printable : Item → Prop
  | .moduleId id => IsStringText id
  | .global g => IsSymbolName g.name
  | .func f => IsSymbolName f.name ∧ ∀ name ∈ f.references, IsSymbolName name
  | _ => True

theorem Item.WrittenAs.printable {item : Item} (h : item.WrittenAs tokens)
    (htokens : ∀ t ∈ tokens, t.WellFormed) : item.Printable := by
  cases h with
  | moduleId id => exact htokens (.str id) (List.mem_cons_of_mem _ List.mem_cons_self)
  | global h => exact h.printable htokens
  | func h => exact h.printable htokens
  | _ => trivial

/-! ### Modules -/

theorem printable_ofItems {items : List Item} (h : ∀ item ∈ items, item.Printable) :
    (Script.ofItems items).module.Printable := by
  have hid (id : String) (hid : id ∈ items.filterMap Item.moduleId?) : IsStringText id := by
    obtain ⟨item, hitem, hsome⟩ := List.mem_filterMap.1 hid
    cases item <;> cases hsome
    exact h _ hitem
  have hfunc (f : Func) (hf : f ∈ items.filterMap Item.func?) : Item.Printable (.func f) := by
    obtain ⟨item, hitem, hsome⟩ := List.mem_filterMap.1 hf
    cases item <;> cases hsome
    exact h _ hitem
  refine ⟨?_, fun g hg => ?_, fun f hf => (hfunc f hf).1, fun f hf => (hfunc f hf).2⟩
  · have hlast : (items.filterMap Item.moduleId?).getLastD "script" ∈
        "script" :: items.filterMap Item.moduleId? := List.getLastD_mem_cons
    rcases List.mem_cons.1 hlast with hdefault | hgiven
    · change IsStringText ((items.filterMap Item.moduleId?).getLastD "script")
      rw [hdefault]
      decide
    · exact hid _ hgiven
  · obtain ⟨item, hitem, hsome⟩ := List.mem_filterMap.1 hg
    cases item <;> cases hsome
    exact h _ hitem

/-- A module that was read can be printed, whatever text it was read from. -/
theorem Module.printable_of_read {source : String} {m : Module} (h : Module.read source = .ok m) :
    m.Printable := by
  unfold Module.read Script.read at h
  split at h
  · cases h
  next tokens hlex =>
    split at h
    · cases h
    next items hitems =>
      cases h
      have htokens : ∀ t ∈ tokens.map Located.token, t.WellFormed :=
        List.forall_mem_map.2 (wellFormed_of_lexFrom hlex)
      exact printable_ofItems ((writtenInOrder_of_readItems hitems).1.forall_mem
        (fun _ _ h => h.printable) htokens)

end ComputeScript
