import ComputeScript.Proofs.Script.Printable
import ComputeScript.Proofs.Script.Taking

/-!
# Printing and reading

The text of a module is read back as this module exactly if the module is printable, which every
module is that was read from a text (`Module.read_text_iff`).
-/

namespace ComputeScript

namespace Module

/-- Whatever spells the tokens of a module is read as this module. -/
theorem read_of_spells {m : Module} {source : String}
    (h : Token.Spells Token.Anything source m.tokens) : Module.read source = .ok m := by
  obtain ⟨located, hlex, htokens⟩ := h.lexes trivial 0
  obtain ⟨items, hitems, hmodule⟩ := readItems_of_tokens htokens
  have hscript : Script.read source = .ok (Script.ofItems items) := by
    rw [Script.read, Token.lex, hlex]
    simp only [hitems]
  rw [Module.read, hscript, ← hmodule]
  rfl

theorem read_text {m : Module} (h : m.Printable) : Module.read m.text = .ok m :=
  read_of_spells (spells_text h)

theorem read_text_iff (m : Module) :
    (Module.read m.text = .ok m ↔ m.Printable) ∧
      ∀ source, Module.read source = .ok m → Module.read m.text = .ok m :=
  ⟨⟨printable_of_read, read_text⟩, fun _ h => read_text (printable_of_read h)⟩

/-- A module whose symbols are named like a reserved word and like a number. -/
def oddNames : Module where
  id := "odd names; 1"
  globals := [{ name := "func", linkage := .internal, init := -2147483648 }]
  funcs := [{ name := "0x", results := 1, body := [.close, .globalGet "func", .call "0x"] }]

/-- A module that refers to a name with a blank in it. -/
def blankName : Module where
  id := "blank"
  funcs := [{ name := "f", body := [.call "f g"] }]

theorem read_text_iff_names :
    Module.read oddNames.text = .ok oddNames ∧ Module.read blankName.text ≠ .ok blankName := by
  have hfunc : Token.IsSymbolName "func" := ⟨by decide, List.all_eq_true.1 rfl⟩
  have hzero : Token.IsSymbolName "0x" := ⟨by decide, List.all_eq_true.1 rfl⟩
  have hid : oddNames.id.toList.all Token.isStringChar = true := rfl
  have hodd : oddNames.Printable :=
    { id := fun c hc => (Token.isStringChar_iff c).1 (List.all_eq_true.1 hid c hc)
      globals := List.forall_mem_singleton.2 hfunc
      funcs := List.forall_mem_singleton.2 hzero
      references := List.forall_mem_singleton.2
        (List.forall_mem_cons.2 ⟨hfunc, List.forall_mem_singleton.2 hzero⟩) }
  have hblank : ¬ blankName.Printable := by
    intro h
    have hname := h.references _ List.mem_cons_self "f g" List.mem_cons_self
    exact absurd (hname.2 ' ' (by decide)) (by decide)
  exact ⟨(read_text_iff oddNames).1.2 hodd, fun h => hblank ((read_text_iff blankName).1.1 h)⟩

end Module

end ComputeScript
