import ComputeScript.Proofs.Compile.Preservation
import ComputeScript.Proofs.Verified

/-!
# What whole-program optimization leaves

`Module.reachablePart` is what is reachable from given roots, with nothing but the roots external
and all bodies folded.  Internalization is queued before the wrappers are made, and runs together
with folding and elimination after them; `optimize_eq_reachablePart` says that this comes to the
reachable part of the module with its wrappers, the roots being its external names that are to stay
visible.
-/

namespace ComputeScript

namespace Module

/-- A name is a root, or a function whose name is reachable refers to it. -/
inductive ReachableFrom (m : Module) (roots : String → Prop) : String → Prop where
  | root {name} (h : roots name) : m.ReachableFrom roots name
  | reference {f target} (hf : f ∈ m.funcs) (h : m.ReachableFrom roots f.name)
      (ht : target ∈ f.references) : m.ReachableFrom roots target

open scoped Classical in
/-- What is reachable from the roots, in the order of the module.  Only roots are external, and
bodies are folded. -/
noncomputable def reachablePart (m : Module) (roots : String → Prop) : Module where
  id := m.id
  globals := (m.globals.filter fun g => m.ReachableFrom roots g.name).map fun g =>
    { g with linkage := if roots g.name then .external else .internal }
  funcs := (m.funcs.filter fun f => m.ReachableFrom roots f.name).map fun f =>
    { f with linkage := if roots f.name then .external else .internal, body := (foldBody f.body).1 }

/-- The module with an external wrapper for every kernel that has none, in the order of the kernels;
where kernels are launched natively, the module itself. -/
def withWrappers (native : Bool) (kernels : List Kernel) (m : Module) : Module :=
  if native then m
  else
    { m with
      funcs := m.funcs ++
        (kernels.filter fun k => k.wrapperName ∉ m.names).map (Kernel.wrapper true) }

variable {m m' : Module} {name : String} {keep : List String}

theorem referencesOf_fold (m : Module) (name : String) :
    m.fold.referencesOf name = m.referencesOf name := by
  rw [referencesOf, referencesOf, func?_fold]
  rcases m.func? name with _ | f
  · rfl
  · exact f.references_fold

theorem referencesOf_internalize (keep : List String) (m : Module) (name : String) :
    (m.internalize keep).referencesOf name = m.referencesOf name := by
  rw [referencesOf, referencesOf, func?_internalize]
  rcases m.func? name with _ | f <;> rfl

/-- Hiding and folding leave the graph of references as it is, and make the names that were kept
visible its roots. -/
theorem reachable_iff (hnodup : m.names.Nodup) :
    (m.internalize keep).fold.Reachable name ↔
      m.ReachableFrom (fun n => n ∈ m.externalNames ∧ n ∈ keep) name := by
  constructor
  · intro h
    induction h with
    | external h =>
      rw [externalNames_fold, mem_externalNames_internalize_iff] at h
      exact .root h
    | @reference name target _ ht ih =>
      rw [referencesOf_fold, referencesOf_internalize, referencesOf] at ht
      rcases hf : m.func? name with _ | f <;> rw [hf] at ht
      · cases ht
      · exact .reference (List.mem_of_find?_eq_some hf) (name_of_func? hf ▸ ih) ht
  · intro h
    induction h with
    | root h =>
      refine .external ?_
      rwa [externalNames_fold, mem_externalNames_internalize_iff]
    | reference hf _ ht ih =>
      refine .reference ih ?_
      rwa [referencesOf_fold, referencesOf_internalize, referencesOf, func?_of_mem hnodup hf]

/-- Hiding a symbol whose name is not defined twice leaves it external exactly if it is a root. -/
theorem keepIf_eq (hnodup : m.names.Nodup) {linkage : Linkage} (h : (name, linkage) ∈ m.symbols)
    {_ : Decidable (name ∈ m.externalNames ∧ name ∈ keep)} :
    linkage.keepIf (keep.contains name) =
      if name ∈ m.externalNames ∧ name ∈ keep then .external else .internal := by
  have hlinkage := mem_externalNames_iff_of_mem_symbols hnodup h
  split_ifs with hroot
  · rw [hlinkage.1 hroot.1, List.contains_iff_mem.2 hroot.2]
    rfl
  · rw [hlinkage, ← List.contains_iff_mem] at hroot
    revert hroot
    cases linkage <;> cases keep.contains name <;> simp [Linkage.keepIf]

/-- Hiding, folding and elimination leave the reachable part. -/
theorem eliminate_eq_reachablePart (hnodup : m.names.Nodup) (keep : List String) :
    (m.internalize keep).fold.eliminate =
      m.reachablePart fun n => n ∈ m.externalNames ∧ n ∈ keep := by
  classical
  have hlive (n : String) : (m.internalize keep).fold.live.contains n =
      decide (m.ReachableFrom (fun n => n ∈ m.externalNames ∧ n ∈ keep) n) := by
    rw [Bool.eq_iff_iff, List.contains_iff_mem, mem_live_iff, reachable_iff hnodup,
      decide_eq_true_iff]
  have hglobals : (m.internalize keep).fold.globals =
      m.globals.map fun g => { g with linkage := g.linkage.keepIf (keep.contains g.name) } := rfl
  have hfuncs : (m.internalize keep).fold.funcs =
      m.funcs.map fun f =>
        { f with
          linkage := f.linkage.keepIf (keep.contains f.name)
          body := (foldBody f.body).1 } :=
    List.map_map
  unfold eliminate restrict reachablePart
  rw [hglobals, hfuncs, List.filter_map, List.filter_map]
  simp only [Function.comp_def, hlive]
  congr 1
  · refine List.map_congr_left fun g hg => ?_
    have hmem : (g.name, g.linkage) ∈ m.symbols :=
      List.mem_append_left _ (List.mem_map_of_mem (List.mem_of_mem_filter hg))
    exact congrArg (fun l => ({ g with linkage := l } : Global)) (keepIf_eq hnodup hmem)
  · refine List.map_congr_left fun f hf => ?_
    have hmem : (f.name, f.linkage) ∈ m.symbols :=
      List.mem_append_right _ (List.mem_map_of_mem (List.mem_of_mem_filter hf))
    exact congrArg (fun l => ({ f.fold with linkage := l } : Func)) (keepIf_eq hnodup hmem)

theorem eq_withWrappers_of_expandFor {machine : Machine} {kernels : List Kernel}
    (h : m.expandFor machine kernels = .ok m') : m' = m.withWrappers machine.native kernels := by
  unfold expandFor at h
  unfold withWrappers
  split_ifs at h ⊢
  · cases h
    rfl
  · rw [(expand_eq_ok_iff.1 h).2, unexpanded_eq_filter]

theorem verify_expandFor {machine : Machine} {kernels : List Kernel}
    (hdistinct : (kernels.map Kernel.name).Nodup) (h : m.expandFor machine kernels = .ok m')
    (hverify : m.verify = .ok ()) : m'.verify = .ok () := by
  unfold expandFor at h
  split_ifs at h
  · cases h
    exact hverify
  · exact verify_expand hdistinct h hverify

end Module

namespace Compiler

/-- Whole-program optimization of a script, if it succeeds, leaves what is reachable, in the module
with the wrappers of its kernels, from the external names that are to stay visible. -/
theorem optimize_eq_reachablePart {ω : Type} (entryPoints : List String) (machine : Machine)
    (script script' : Script) (table : ExportTable) (w w' : ω) (bytes : Bytes)
    (hverify : script.module.verify = .ok ()) (htable : script.exports = some table)
    (hdistinct : (table.kernels.map Kernel.name).Nodup)
    (h : ((withoutPasses (runStage (m := StateM ω) (.script entryPoints) machine .lto)).run.run
      script).run w = ((.ok bytes, script'), w')) :
    let module := script.module.withWrappers machine.native table.kernels
    script' = { script with
      module := module.reachablePart fun name =>
        name ∈ module.externalNames ∧ name ∈ table.preserved entryPoints machine.native } := by
  rw [run_runStage_lto] at h
  obtain ⟨hrun, -⟩ := Prod.mk.inj h
  simp only [Script.optimize, htable] at hrun
  rcases he : script.module.expandFor machine table.kernels with fault | module <;> rw [he] at hrun
  · cases hrun
  · obtain ⟨-, rfl⟩ := Prod.mk.inj hrun
    have hnodup := (Module.verify_eq_ok_iff.1 (Module.verify_expandFor hdistinct he hverify)).1
    rw [Module.eliminate_eq_reachablePart hnodup, ← Module.eq_withWrappers_of_expandFor he,
      ← htable]

/-- Exports of nothing but a kernel. -/
def doublingExports : ExportTable where
  kernels := [⟨"double", ⟨true, true, false⟩⟩]

/-- A script with a kernel, a function that the running system calls, and one that nothing calls. -/
def doubling : Script where
  module :=
    { id := "doubling"
      globals := [{ name := "factor" }]
      funcs :=
        [{ name := "idle" },
         { name := "double", params := 1, results := 1,
           body := [.localGet 0, .globalGet "factor", .binary .mul] },
         { name := "init", body := [.const 1, .const 1, .binary .add, .globalSet "factor"] }] }
  exports := some doublingExports

/-- Of this script, what is left is reachable from its entry point and from the wrapper. -/
theorem optimize_eq_reachablePart_doubling :
    ∃ machine script', sampleCompiler.machine = some machine ∧
      ((withoutPasses (runStage (m := StateM Unit) (.script ExportTable.entryPoints) machine
        .lto)).run.run doubling).run () = ((.ok [], script'), ()) ∧
      script'.module.names = ["factor", "double", "init", "double.expand"] ∧
      script'.module.externalNames = ["init", "double.expand"] ∧
      let module := doubling.module.withWrappers false doublingExports.kernels
      script' = { doubling with
        module := module.reachablePart fun name =>
          name ∈ module.externalNames ∧
            name ∈ doublingExports.preserved ExportTable.entryPoints false } := by
  have h : ((withoutPasses (runStage (m := StateM Unit) (.script ExportTable.entryPoints)
      (sampleCompiler.machine.get rfl) .lto)).run.run doubling).run () = ((.ok [], _), ()) :=
    Prod.ext (Prod.ext (by decide +kernel) rfl) rfl
  exact ⟨_, _, rfl, h, by decide +kernel, by decide +kernel,
    optimize_eq_reachablePart _ _ _ _ _ _ _ _ (by decide +kernel) rfl (by decide) h⟩

end Compiler

end ComputeScript
