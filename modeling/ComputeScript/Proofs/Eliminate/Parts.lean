import ComputeScript.Proofs.Symbols

/-!
# Closed parts of a module

A part of a module has all of its definitions of some names, in their order, and refers to nothing
else (`Module.PartOf`).  What is reachable in a part is reachable in the module, so elimination
leaves no less of the module than of a part of it (`PartOf.sublist_eliminate`); and it leaves the same
where everything that the module shows is in the part (`PartOf.eliminate_eq`).
-/

namespace ComputeScript

namespace Module

/-- A module has the definitions of its names in `m`, and these refer to no other names. -/
structure PartOf (part m : Module) : Prop where
  id : part.id = m.id
  globals : part.globals = m.globals.filter fun g => part.defines g.name
  funcs : part.funcs = m.funcs.filter fun f => part.defines f.name
  closed : ∀ f ∈ part.funcs, ∀ target ∈ f.references, part.defines target

namespace PartOf

variable {part m : Module} {name : String}

/-! ### Names -/

theorem symbols_eq (h : part.PartOf m) :
    part.symbols = m.symbols.filter fun s => part.defines s.1 := by
  conv_lhs => rw [symbols, h.globals, h.funcs]
  simp only [symbols, List.filter_append, List.filter_map, Function.comp_def]

theorem func?_eq (h : part.PartOf m) (hname : part.defines name) :
    part.func? name = m.func? name := by
  rw [func?, func?, h.funcs, List.find?_filter]
  refine congrFun (congrArg List.find? (funext fun f => ?_)) _
  by_cases heq : f.name = name
  · simp [heq, hname]
  · simp [heq]

theorem referencesOf_eq (h : part.PartOf m) (hname : part.defines name) :
    part.referencesOf name = m.referencesOf name := by
  rw [referencesOf, referencesOf, h.func?_eq hname]

theorem defines_of_mem_referencesOf (h : part.PartOf m) {target : String}
    (ht : target ∈ part.referencesOf name) : part.defines target := by
  rw [referencesOf] at ht
  rcases hf : part.func? name with _ | f <;> rw [hf] at ht
  · cases ht
  · exact h.closed f (List.mem_of_find?_eq_some hf) target ht

theorem mem_externalNames_iff (h : part.PartOf m) :
    name ∈ part.externalNames ↔ name ∈ m.externalNames ∧ part.defines name := by
  rw [Module.mem_externalNames_iff, Module.mem_externalNames_iff, h.symbols_eq, List.mem_filter]

/-! ### What is reachable -/

theorem defines_of_reachable (h : part.PartOf m) (hreachable : part.Reachable name) :
    part.defines name := by
  cases hreachable with
  | external hexternal => exact (h.mem_externalNames_iff.1 hexternal).2
  | reference _ ht => exact h.defines_of_mem_referencesOf ht

theorem reachable (h : part.PartOf m) (hreachable : part.Reachable name) : m.Reachable name := by
  induction hreachable with
  | external hexternal => exact .external (h.mem_externalNames_iff.1 hexternal).1
  | reference hname ht ih =>
    exact .reference ih (h.referencesOf_eq (h.defines_of_reachable hname) ▸ ht)

theorem reachable_of_shown (h : part.PartOf m) (hshown : ∀ n ∈ m.externalNames, part.defines n)
    (hreachable : m.Reachable name) : part.Reachable name := by
  induction hreachable with
  | external hexternal =>
    exact .external (h.mem_externalNames_iff.2 ⟨hexternal, hshown _ hexternal⟩)
  | reference _ ht ih =>
    exact .reference ih (h.referencesOf_eq (h.defines_of_reachable ih) ▸ ht)

theorem contains_live (h : part.PartOf m) (hname : part.live.contains name) :
    m.live.contains name := by
  rw [List.contains_iff_mem, mem_live_iff] at hname ⊢
  exact h.reachable hname

/-- Eliminating a part drops of the module what is not in the part or is not live there. -/
theorem eliminate_eq_restrict (h : part.PartOf m) : part.eliminate = m.restrict part.live := by
  have hlive (n : String) : (part.live.contains n && part.defines n) = part.live.contains n := by
    rw [Bool.and_eq_left_iff_imp, List.contains_iff_mem, mem_live_iff]
    exact h.defines_of_reachable
  unfold eliminate restrict
  rw [h.id]
  conv_lhs => rw [h.globals, h.funcs]
  simp only [List.filter_filter, hlive]

/-! ### Elimination -/

/-- Elimination leaves everything of a module that it leaves of a part. -/
theorem sublist_eliminate (h : part.PartOf m) :
    part.eliminate.globals.Sublist m.eliminate.globals ∧
      part.eliminate.funcs.Sublist m.eliminate.funcs := by
  rw [h.eliminate_eq_restrict]
  exact ⟨List.monotone_filter_right _ fun _ => h.contains_live,
    List.monotone_filter_right _ fun _ => h.contains_live⟩

/-- Elimination leaves the same of a module and of a part with everything that the module shows. -/
theorem eliminate_eq (h : part.PartOf m) (hshown : ∀ n ∈ m.externalNames, part.defines n) :
    m.eliminate = part.eliminate := by
  have hlive (n : String) : m.live.contains n = part.live.contains n := by
    rw [Bool.eq_iff_iff, List.contains_iff_mem, List.contains_iff_mem, mem_live_iff, mem_live_iff]
    exact ⟨h.reachable_of_shown hshown, h.reachable⟩
  rw [h.eliminate_eq_restrict]
  unfold eliminate restrict
  simp only [hlive]

/-! ### Other passes -/

theorem internalize (h : part.PartOf m) (keep : List String) :
    (part.internalize keep).PartOf (m.internalize keep) := by
  have hdefines (n : String) : (part.internalize keep).defines n = part.defines n := by
    rw [Bool.eq_iff_iff, defines_iff, defines_iff, names_internalize]
  refine ⟨h.id, ?_, ?_, fun f' hf' target ht => ?_⟩
  · simp only [hdefines]
    conv_lhs => rw [Module.internalize, h.globals]
    simp only [Module.internalize, List.filter_map, Function.comp_def]
  · simp only [hdefines]
    conv_lhs => rw [Module.internalize, h.funcs]
    simp only [Module.internalize, List.filter_map, Function.comp_def]
  · obtain ⟨f, hf, rfl⟩ := List.mem_map.1 hf'
    rw [hdefines]
    exact h.closed f hf target ht

theorem fold (h : part.PartOf m) : part.fold.PartOf m.fold := by
  have hdefines (n : String) : part.fold.defines n = part.defines n := by
    rw [Bool.eq_iff_iff, defines_iff, defines_iff, names_fold]
  refine ⟨h.id, ?_, ?_, fun f' hf' target ht => ?_⟩
  · simp only [hdefines]
    exact h.globals
  · simp only [hdefines]
    conv_lhs => rw [Module.fold, h.funcs]
    simp only [Module.fold, List.filter_map, Function.comp_def]
    rfl
  · obtain ⟨f, hf, rfl⟩ := List.mem_map.1 hf'
    rw [hdefines]
    exact h.closed f hf target (f.references_fold ▸ ht)

end PartOf

end Module

end ComputeScript
