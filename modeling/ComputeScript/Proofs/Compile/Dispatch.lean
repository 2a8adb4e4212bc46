import ComputeScript.Proofs.Compile.Optimized

/-!
# Which kernels can be launched

A kernel can be launched if an external function has its dispatch name.  Hiding keeps the dispatch
names but makes nothing external, and expansion leaves a wrapper alone that is already defined,
whatever it is.  So a kernel can be launched after a compilation exactly if it could be before, or
if it was without a wrapper on a machine that needs one (`compile_showsFunc_iff`).
-/

namespace ComputeScript

namespace Module

/-- An external function has this name. -/
def ShowsFunc (m : Module) (name : String) : Prop :=
  ∃ f ∈ m.funcs, f.name = name ∧ f.linkage = .external

instance (m : Module) (name : String) : Decidable (m.ShowsFunc name) :=
  inferInstanceAs (Decidable (∃ f ∈ m.funcs, f.name = name ∧ f.linkage = .external))

variable {m : Module} {name : String}

theorem ShowsFunc.mem_externalNames (h : m.ShowsFunc name) : name ∈ m.externalNames := by
  obtain ⟨f, hf, rfl, hexternal⟩ := h
  refine List.mem_append_right _ (List.mem_map_of_mem (List.mem_filter.2 ⟨hf, ?_⟩))
  exact beq_iff_eq.2 hexternal

/-- What is made of the functions one by one, if it keeps their names and the linkage of the ones
with this name, keeps whether one of them is external. -/
theorem showsFunc_map_iff {m' : Module} {g : Func → Func} (hm' : m'.funcs = m.funcs.map g)
    (hname : ∀ f, (g f).name = f.name) (hlinkage : ∀ f, f.name = name → (g f).linkage = f.linkage) :
    m'.ShowsFunc name ↔ m.ShowsFunc name := by
  unfold ShowsFunc
  rw [hm']
  constructor
  · rintro ⟨f', hf', rfl, hexternal⟩
    obtain ⟨f, hf, rfl⟩ := List.mem_map.1 hf'
    exact ⟨f, hf, (hname f).symm, (hlinkage f (hname f).symm).symm.trans hexternal⟩
  · rintro ⟨f, hf, rfl, hexternal⟩
    exact ⟨g f, List.mem_map_of_mem hf, hname f, (hlinkage f rfl).trans hexternal⟩

theorem showsFunc_fold_iff : m.fold.ShowsFunc name ↔ m.ShowsFunc name :=
  showsFunc_map_iff (g := Func.fold) rfl (fun _ => rfl) fun _ _ => rfl

theorem showsFunc_internalize_iff {keep : List String} (h : name ∈ keep) :
    (m.internalize keep).ShowsFunc name ↔ m.ShowsFunc name := by
  refine showsFunc_map_iff rfl (fun _ => rfl) fun f hf => ?_
  change f.linkage.keepIf (keep.contains f.name) = f.linkage
  rw [hf, List.contains_iff_mem.2 h]
  rfl

theorem showsFunc_eliminate_iff : m.eliminate.ShowsFunc name ↔ m.ShowsFunc name := by
  constructor
  · rintro ⟨f, hf, hname, hexternal⟩
    exact ⟨f, List.mem_of_mem_filter hf, hname, hexternal⟩
  · intro h
    have hlive := (mem_live_iff m name).2 (.external h.mem_externalNames)
    obtain ⟨f, hf, rfl, hexternal⟩ := h
    exact ⟨f, List.mem_filter.2 ⟨hf, List.contains_iff_mem.2 hlive⟩, rfl, hexternal⟩

/-- With its wrappers, a module shows the dispatch name of a kernel if it did so without them, or if
the kernel is given one. -/
theorem showsFunc_withWrappers_iff {native : Bool} {kernels : List Kernel} {k : Kernel}
    (hk : k ∈ kernels) :
    (m.withWrappers native kernels).ShowsFunc (k.dispatchName native) ↔
      m.ShowsFunc (k.dispatchName native) ∨ native = false ∧ m.defines k.wrapperName = false := by
  cases native with
  | true => simp [withWrappers]
  | false =>
    have hdefines : m.defines k.wrapperName = false ↔ k.wrapperName ∉ m.names := by
      rw [← defines_iff, Bool.not_eq_true]
    simp only [withWrappers, Bool.false_eq_true, if_false, true_and, Kernel.dispatchName, hdefines]
    constructor
    · rintro ⟨f, hf, hname, hexternal⟩
      rcases List.mem_append.1 hf with hf | hf
      · exact .inl ⟨f, hf, hname, hexternal⟩
      · obtain ⟨k', hk', rfl⟩ := List.mem_map.1 hf
        have hname : k'.wrapperName = k.wrapperName := hname
        exact .inr (hname ▸ of_decide_eq_true (List.mem_filter.1 hk').2)
    · rintro (⟨f, hf, hname, hexternal⟩ | hnew)
      · exact ⟨f, List.mem_append_left _ hf, hname, hexternal⟩
      · have hmem : k ∈ kernels.filter fun k => k.wrapperName ∉ m.names :=
          List.mem_filter.2 ⟨hk, decide_eq_true hnew⟩
        exact ⟨k.wrapper true, List.mem_append_right _ (List.mem_map_of_mem hmem), rfl, rfl⟩

end Module

namespace ExportTable

theorem dispatchName_mem_preserved {table : ExportTable} {k : Kernel} (hk : k ∈ table.kernels)
    (entryPoints : List String) (native : Bool) :
    k.dispatchName native ∈ table.preserved entryPoints native :=
  List.mem_append_right _ (List.mem_map_of_mem hk)

end ExportTable

namespace Script

variable {entryPoints : List String} {machine : Machine} {script script' : Script} {bytes : Bytes}
  {table : ExportTable} {k : Kernel} {name : String}

theorem showsFunc_optimize_iff (htable : script.exports = some table) (hk : k ∈ table.kernels)
    (h : script.optimize entryPoints machine = (.ok bytes, script')) :
    script'.module.ShowsFunc (k.dispatchName machine.native) ↔
      script.module.ShowsFunc (k.dispatchName machine.native) ∨
        machine.native = false ∧ script.module.defines k.wrapperName = false := by
  obtain ⟨table', module, htable', hexpand, rfl⟩ := of_optimize h
  cases htable.symm.trans htable'
  rw [Module.showsFunc_eliminate_iff, Module.showsFunc_fold_iff, Module.showsFunc_internalize_iff
    (ExportTable.dispatchName_mem_preserved hk entryPoints machine.native),
    Module.eq_withWrappers_of_expandFor hexpand, Module.showsFunc_withWrappers_iff hk]

theorem showsFunc_generate_iff (h : script.generate machine = (.ok bytes, script')) :
    script'.module.ShowsFunc name ↔ script.module.ShowsFunc name := by
  obtain ⟨-, -, rfl⟩ := of_generate h
  unfold final
  split_ifs
  · exact Iff.rfl
  · exact Module.showsFunc_fold_iff

end Script

namespace Compiler

/-- After a compilation with whole-program optimization, a kernel can be launched exactly if an
external function of the script had its dispatch name before, or if the machine needs a wrapper of
it and the script defined nothing by that name. -/
theorem compile_showsFunc_iff {ω : Type} (c : Compiler) (machine : Machine)
    (entryPoints : List String) (sink : Sink (StateM ω)) (script script' : Script)
    (table : ExportTable) (w w' : ω) (hmachine : c.machine = some machine) (hlto : c.lto = true)
    (htable : script.exports = some table)
    (h : ((c.compile (.script entryPoints) sink).run.run script).run w = ((.ok (), script'), w')) :
    ∀ k ∈ table.kernels,
      script'.module.ShowsFunc (k.dispatchName machine.native) ↔
        script.module.ShowsFunc (k.dispatchName machine.native) ∨
          machine.native = false ∧ script.module.defines k.wrapperName = false := by
  intro k hk
  obtain ⟨machine', bytes, hmachine', -, hbuild⟩ := build_of_compile h
  obtain rfl : machine = machine' := Option.some.inj (hmachine.symm.trans hmachine')
  rw [Script.build, if_pos hlto] at hbuild
  rcases ho : script.optimize entryPoints machine with ⟨e | output, script₁⟩ <;> rw [ho] at hbuild
  · cases hbuild
  · rw [Script.showsFunc_generate_iff hbuild, Script.showsFunc_optimize_iff htable hk ho]

/-- In the sample with a kernel, it can be launched under the name of its wrapper. -/
theorem compile_showsFunc_iff_doubling :
    ∃ script' w',
      ((sampleCompiler.compile (.script ExportTable.entryPoints)
        (Sink.stream (Sink.memory (m := Id)))).run.run doubling).run { writer := [] } =
          ((.ok (), script'), w') ∧
      script'.module.ShowsFunc "double.expand" ∧ ¬ script'.module.ShowsFunc "double" := by
  have h : ((sampleCompiler.compile (.script ExportTable.entryPoints)
      (Sink.stream (Sink.memory (m := Id)))).run.run doubling).run { writer := [] } =
        ((.ok (), _), _) :=
    Prod.ext (Prod.ext (by decide +kernel) rfl) rfl
  have hshows := (compile_showsFunc_iff sampleCompiler (sampleCompiler.machine.get rfl) _ _ doubling
    _ doublingExports _ _ rfl rfl rfl h ⟨"double", ⟨true, true, false⟩⟩ List.mem_cons_self).2
    (.inr ⟨by decide +kernel, by decide +kernel⟩)
  have hname : Kernel.dispatchName ⟨"double", ⟨true, true, false⟩⟩
      (sampleCompiler.machine.get rfl).native = "double.expand" := by decide +kernel
  exact ⟨_, _, h, hname ▸ hshows, by decide +kernel⟩

/-- A script whose kernel is internal and has an internal wrapper. -/
def sealed : Script where
  module :=
    { id := "sealed"
      funcs :=
        [{ name := "scale", linkage := .internal, params := 1, results := 1,
           body := [.localGet 0, .const 2, .binary .mul] },
         { name := "scale.expand", linkage := .internal, params := 6 }] }
  exports := some { kernels := [⟨"scale", ⟨true, true, false⟩⟩] }

/-- Neither a machine that needs wrappers nor one that launches kernels natively lets this kernel be
launched, and both compile the script. -/
theorem compile_not_showsFunc_sealed :
    sealed.module.verify = .ok () ∧
      (∃ wasm script' w',
        Machine.create { triple := "wasm32-unknown-unknown", fileType := .assembly } = .ok wasm ∧
        ((compile { machine := some wasm } (.script ExportTable.entryPoints)
          (Sink.stream (Sink.memory (m := Id)))).run.run sealed).run { writer := [] } =
            ((.ok (), script'), w') ∧
        ¬ script'.module.ShowsFunc "scale.expand") ∧
      ∃ usc script' w',
        Machine.create { triple := "usc-unknown-unknown", fileType := .assembly } = .ok usc ∧
        ((compile { machine := some usc } (.script ExportTable.entryPoints)
          (Sink.stream (Sink.memory (m := Id)))).run.run sealed).run { writer := [] } =
            ((.ok (), script'), w') ∧
        ¬ script'.module.ShowsFunc "scale" := by
  let wasm : Machine := ⟨⟨"wasm32-unknown-unknown", "wasm32", "unknown", "unknown", none⟩, .wasm32,
    "generic", [], .o3, .assembly⟩
  let usc : Machine := ⟨⟨"usc-unknown-unknown", "usc", "unknown", "unknown", none⟩, .usc,
    "generic", [], .o3, .assembly⟩
  have hwasm : ((compile { machine := some wasm } (.script ExportTable.entryPoints)
      (Sink.stream (Sink.memory (m := Id)))).run.run sealed).run { writer := [] } =
        ((.ok (), _), _) :=
    Prod.ext (Prod.ext (by decide +kernel) rfl) rfl
  have husc : ((compile { machine := some usc } (.script ExportTable.entryPoints)
      (Sink.stream (Sink.memory (m := Id)))).run.run sealed).run { writer := [] } =
        ((.ok (), _), _) :=
    Prod.ext (Prod.ext (by decide +kernel) rfl) rfl
  exact ⟨by decide +kernel, ⟨wasm, _, _, by decide +kernel, hwasm, by decide +kernel⟩,
    usc, _, _, by decide +kernel, husc, by decide +kernel⟩

end Compiler

end ComputeScript
