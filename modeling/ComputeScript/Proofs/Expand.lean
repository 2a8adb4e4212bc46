import ComputeScript.Pass.Expand
import ComputeScript.Proofs.Exec.Agreement
import ComputeScript.Proofs.Verify
import Mathlib.Data.List.Nodup

/-!
# What expansion adds

Expansion adds wrappers behind the functions of a module and nothing else.  A name that the module
defines means what it meant (`func?_of_expand`), so in a module that verifies every call ends as
before (`ends_iff_of_expand`); and a wrapper is found under its name if the kernels of the list have
distinct names (`func?_wrapperName`).
-/

namespace ComputeScript

namespace Kernel

theorem wrapperName_injective {k k' : Kernel} (h : k.wrapperName = k'.wrapperName) :
    k.name = k'.name := by
  have hl := congrArg String.toList h
  simp only [wrapperName, String.toList_append, List.append_cancel_right_eq] at hl
  exact String.toList_inj.1 hl

theorem fault?_eq_none_iff {m : Module} {k : Kernel} :
    k.fault? m = none ↔ ∃ f, m.func? k.name = some f ∧ f.params = k.signature.params ∧
      f.results = k.signature.results := by
  unfold fault?
  rcases m.func? k.name with _ | f
  · simp
  · simp only [Option.some.injEq, exists_eq_left']
    split_ifs with hshape
    · exact iff_of_true rfl hshape
    · exact iff_of_false (by simp) hshape

end Kernel

namespace Module

variable {m m' : Module} {fixed : Bool} {kernels : List Kernel}

theorem expand_eq_ok_iff :
    m.expand fixed kernels = .ok m' ↔
      (∀ k ∈ m.unexpanded kernels, k.fault? m = none) ∧
        m' = { m with funcs := m.funcs ++ (m.unexpanded kernels).map (Kernel.wrapper fixed) } := by
  unfold expand
  rcases hf : (m.unexpanded kernels).findSome? (Kernel.fault? m) with _ | fault
  · have hnone := List.findSome?_eq_none_iff.1 hf
    simp only [Except.ok.injEq]
    exact ⟨fun h => ⟨hnone, h.symm⟩, fun h => h.2.symm⟩
  · obtain ⟨k, hk, hfault⟩ := List.exists_of_findSome?_eq_some hf
    simp only [reduceCtorEq, false_iff, not_and]
    intro hall
    rw [hall k hk] at hfault
    cases hfault

theorem expand_eq_error_iff {fault : ExpandFault} :
    m.expand fixed kernels = .error fault ↔
      (m.unexpanded kernels).findSome? (Kernel.fault? m) = some fault := by
  unfold expand
  cases (m.unexpanded kernels).findSome? (Kernel.fault? m) with
  | none => simp
  | some fault => simp

theorem mem_unexpanded {k : Kernel} :
    k ∈ m.unexpanded kernels ↔ k ∈ kernels ∧ m.defines k.wrapperName = false := by
  simp [unexpanded]

/-- A name that the module defines means what it meant. -/
theorem func?_of_expand (h : m.expand fixed kernels = .ok m') {name : String}
    (hname : m.defines name) : m'.func? name = m.func? name := by
  obtain ⟨-, rfl⟩ := expand_eq_ok_iff.1 h
  have hnone : ((m.unexpanded kernels).map (Kernel.wrapper fixed)).find?
      (fun f => f.name == name) = none := by
    rw [List.find?_eq_none]
    intro f hf
    obtain ⟨k, hk, rfl⟩ := List.mem_map.1 hf
    rintro hk'
    have hk' : k.wrapperName = name := eq_of_beq hk'
    rw [← hk', (mem_unexpanded.1 hk).2] at hname
    cases hname
  simp only [func?, List.find?_append, hnone, Option.or_none]

theorem globals_of_expand (h : m.expand fixed kernels = .ok m') : m'.globals = m.globals := by
  obtain ⟨-, rfl⟩ := expand_eq_ok_iff.1 h
  rfl

/-- Among kernels with distinct names, the wrapper of a kernel is found under its name. -/
theorem func?_wrapperName (h : m.expand fixed kernels = .ok m')
    (hdistinct : (kernels.map Kernel.name).Nodup) {k : Kernel} (hk : k ∈ m.unexpanded kernels) :
    m'.func? k.wrapperName = some (k.wrapper fixed) := by
  obtain ⟨-, rfl⟩ := expand_eq_ok_iff.1 h
  have hnone : m.func? k.wrapperName = none := by
    have := (mem_unexpanded.1 hk).2
    simp only [defines, Bool.or_eq_false_iff, Option.isSome_eq_false_iff,
      Option.isNone_iff_eq_none] at this
    exact this.1
  obtain ⟨f, hf⟩ : ∃ f, ((m.unexpanded kernels).map (Kernel.wrapper fixed)).find?
      (fun f => f.name == k.wrapperName) = some f :=
    Option.isSome_iff_exists.1
      (List.find?_isSome.2 ⟨_, List.mem_map_of_mem hk, beq_self_eq_true _⟩)
  obtain ⟨k', hk', rfl⟩ := List.mem_map.1 (List.mem_of_find?_eq_some hf)
  have hbeq : ((k'.wrapper fixed).name == k.wrapperName) = true :=
    List.find?_some (p := fun f : Func => f.name == k.wrapperName) hf
  have hname : k'.name = k.name := Kernel.wrapperName_injective (eq_of_beq hbeq)
  obtain rfl : k' = k :=
    List.inj_on_of_nodup_map hdistinct (mem_unexpanded.1 hk').1 (mem_unexpanded.1 hk).1 hname
  simp only [func?] at hnone
  simp only [func?, List.find?_append, hnone, hf, Option.none_or]

/-! ### Calls -/

/-- In a module that verifies, what the call of a definition comes to stays as it was. -/
theorem ends_iff_of_expand (h : m.expand fixed kernels = .ok m') (hm : m.verify = .ok ())
    {name : String} (hname : m.defines name) {arguments : List Int32} {s t : Store String}
    {e : Ending} : m'.Ends name arguments s e t ↔ m.Ends name arguments s e t := by
  have hsame (n : String) (hn : m.defines n) : m.procedure? n = m'.procedure? n := by
    rw [procedure?, procedure?, func?_of_expand h hn]
  have hclosed (n : String) (f : Func) (_ : m.defines n) (hf : m.func? n = some f) :
      ∀ target ∈ f.references, m.defines target :=
    defines_of_verify hm hf
  constructor
  · intro hends
    obtain ⟨_, rfl, hends'⟩ := hends.of_agree (storeRelation_eq (m.defines · = true))
      (fun n hn => (hsame n hn).symm)
      (fun n f hn hf => hclosed n f hn (by rwa [← func?_of_expand h hn])) hname rfl
    exact hends'
  · intro hends
    obtain ⟨_, rfl, hends'⟩ := hends.of_agree (storeRelation_eq (m.defines · = true)) hsame
      hclosed hname rfl
    exact hends'

end Module

end ComputeScript
