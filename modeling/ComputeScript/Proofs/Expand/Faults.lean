import ComputeScript.Proofs.Compile.Stages
import ComputeScript.Proofs.Symbols

/-!
# When expansion fails

Kernels that have a wrapper are passed over, and of the others the first that misfits
(`Kernel.Misfits`) makes the expansion fail; its fault names it (`Kernel.exists_message_eq`).  As
all are looked at before anything is added, a failure leaves the module as it was.
`Pass.expand_exact` says what expansion does to any module, whether that verifies or not.
-/

namespace ComputeScript

namespace Kernel

/-- The module has no wrapper for a kernel, and the kernel is not the name of a function or the
first function of this name has not the shape of its signature. -/
def Misfits (m : Module) (k : Kernel) : Prop :=
  k.name ++ ".expand" ∉ m.names ∧
    ∀ f, m.func? k.name = some f →
      f.params ≠ k.signature.params ∨ f.results ≠ k.signature.results

variable {m : Module} {k : Kernel} {fault : ExpandFault} {kernels : List Kernel}

theorem misfits_iff :
    k.Misfits m ↔ m.defines k.wrapperName = false ∧ k.fault? m ≠ none := by
  rw [Misfits, ne_eq, fault?_eq_none_iff, Bool.eq_false_iff, ne_eq, Module.defines_iff]
  refine and_congr_right fun _ => ?_
  simp only [not_exists, not_and, ← imp_iff_not_or]

/-- What a fault says begins with the name of its kernel. -/
theorem exists_message_eq (h : k.fault? m = some fault) :
    ∃ rest : String, fault.message = s!"foreach kernel '{k.name}' {rest}" := by
  unfold fault? at h
  split at h
  · obtain rfl := Option.some.inj h
    have hmessage : (ExpandFault.noKernel k.name m.id).message =
        "foreach kernel '" ++ k.name ++ "' is not defined in '" ++ m.id ++ "'" := rfl
    have hsplit : "' is not defined in '" = "' " ++ "is not defined in '" := by simp
    refine ⟨"is not defined in '" ++ (m.id ++ "'"), ?_⟩
    rw [hmessage, hsplit]
    simp only [String.append_assoc]
    rfl
  · next f _ =>
    split_ifs at h
    obtain rfl := Option.some.inj h
    let needs := s!"but signature {k.signature.text} needs {k.signature.params} and "
    have hmessage : (ExpandFault.wrongShape k f.params f.results).message =
        "foreach kernel '" ++ k.name ++ "' takes " ++ toString f.params ++
          " parameter(s) and returns " ++ toString f.results ++ " value(s), " ++ needs ++
            toString k.signature.results := rfl
    have hsplit : "' takes " = "' " ++ "takes " := by simp
    refine ⟨"takes " ++ (toString f.params ++ (" parameter(s) and returns " ++
      (toString f.results ++ (" value(s), " ++
        (needs ++ toString k.signature.results))))), ?_⟩
    rw [hmessage, hsplit]
    simp only [String.append_assoc]
    rfl

end Kernel

namespace Module

variable {m m' : Module} {fixed : Bool} {kernels : List Kernel} {fault : ExpandFault}

/-- The fault of an expansion is that of the first kernel that misfits. -/
theorem exists_misfits_of_expand (h : m.expand fixed kernels = .error fault) :
    ∃ before k after, kernels = before ++ k :: after ∧ k.Misfits m ∧
      (∀ k' ∈ before, ¬ k'.Misfits m) ∧ k.fault? m = some fault := by
  obtain ⟨before, k, after, hlist, hfault, hnone⟩ :=
    List.findSome?_eq_some_iff.1 (expand_eq_error_iff.1 h)
  obtain ⟨first, rest, rfl, rfl, hrest⟩ := List.filter_eq_append_iff.1 hlist
  obtain ⟨skipped, after, rfl, hskipped, hk, -⟩ := List.filter_eq_cons_iff.1 hrest
  refine ⟨first ++ skipped, k, after, by simp, ?_, ?_, hfault⟩
  · rw [Kernel.misfits_iff, hfault]
    exact ⟨by simpa using hk, by simp⟩
  · intro k' hk' hmisfits
    obtain ⟨hnew, hfault'⟩ := Kernel.misfits_iff.1 hmisfits
    rcases List.mem_append.1 hk' with hmem | hmem
    · exact hfault' (hnone k' (List.mem_filter.2 ⟨hmem, by simp [hnew]⟩))
    · exact hskipped k' hmem (by simp [hnew])

theorem not_misfits_of_expand (h : m.expand fixed kernels = .ok m') :
    ∀ k ∈ kernels, ¬ k.Misfits m := by
  intro k hk hmisfits
  obtain ⟨hnew, hfault⟩ := Kernel.misfits_iff.1 hmisfits
  exact hfault ((expand_eq_ok_iff.1 h).1 k (mem_unexpanded.2 ⟨hk, hnew⟩))

end Module

/-- Expansion fails exactly if a kernel misfits; then the module is as it was, and the error names
the first kernel that does.  Otherwise it appends one external wrapper for each kernel of the list
that had none, in the order of the list and however often the kernel is repeated, and changes
nothing else. -/
theorem Pass.expand_exact (ω : Type) (fixed : Bool) (kernels : List Kernel) (m : Module) :
    ∃ result m', (Pass.expand (m := StateM ω) fixed kernels).run.run.run m = pure (result, m') ∧
      ((∃ error, result = .error error) ↔ ∃ k ∈ kernels, k.Misfits m) ∧
      (∀ error, result = .error error → m' = m ∧
        ∃ before k after, ∃ rest : String, kernels = before ++ k :: after ∧ k.Misfits m ∧
          (∀ k' ∈ before, ¬ k'.Misfits m) ∧
          error = ⟨"foreach-expand", s!"foreach kernel '{k.name}' {rest}"⟩) ∧
      ∀ outcome, result = .ok outcome →
        ∃ wrappers, m' = { m with funcs := m.funcs ++ wrappers } ∧
          List.Forall₂ (fun k f => f.name = k.name ++ ".expand" ∧ f.linkage = .external ∧
            f.params = 6 ∧ f.results = 0 ∧ f.locals = 0 ∧ f.body = k.wrapperBody fixed)
            (kernels.filter fun k => k.name ++ ".expand" ∉ m.names) wrappers := by
  refine ⟨_, _, run_expand fixed kernels m, ?_⟩
  rcases hexpand : m.expand fixed kernels with fault | m'
  · obtain ⟨before, k, after, rfl, hk, hbefore, hfault⟩ := Module.exists_misfits_of_expand hexpand
    obtain ⟨rest, hmessage⟩ := Kernel.exists_message_eq hfault
    refine ⟨?_, ?_, nofun⟩
    · exact iff_of_true ⟨_, rfl⟩ ⟨k, by simp, hk⟩
    · intro error herror
      obtain rfl := Except.error.inj herror
      exact ⟨rfl, before, k, after, rest, rfl, hk, hbefore, by rw [hmessage]⟩
  · refine ⟨?_, nofun, fun _ _ => ?_⟩
    · refine iff_of_false nofun ?_
      rintro ⟨k, hk, hmisfits⟩
      exact Module.not_misfits_of_expand hexpand k hk hmisfits
    · obtain ⟨-, rfl⟩ := Module.expand_eq_ok_iff.1 hexpand
      refine ⟨_, rfl, ?_⟩
      rw [Module.unexpanded_eq_filter, List.forall₂_map_right_iff]
      exact List.forall₂_same.2 fun k _ => ⟨rfl, rfl, rfl, rfl, rfl, rfl⟩

/-- The wrapper of one kernel is no kernel for the next. -/
example :
    let kernels : List Kernel :=
      [⟨"k", .empty⟩, ⟨"k", .empty⟩, ⟨"k.expand", .empty⟩, ⟨"absent", .empty⟩]
    ({ id := "one", funcs := [{ name := "k" }] } : Module).expand true kernels =
      .error (.noKernel "k.expand" "one") := by
  decide

end ComputeScript
