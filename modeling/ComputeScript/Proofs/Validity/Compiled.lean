import ComputeScript.Proofs.Compile.Artifact
import ComputeScript.Proofs.Validity.Modules

/-!
# Objects that type-check

If the functions of a script type-check, so do those of the object that it is compiled to, the
wrappers of its kernels included (`Compiler.compile_isTyped`).  That no name is found twice needs an
argument of its own: kernels may be listed twice, and a module with two wrappers of one name does not
verify any more; but both are shown, and then there is no object.
-/

namespace ComputeScript

namespace Script

variable {entryPoints : List String} {machine : Machine} {lto : Bool} {script script' : Script}
  {bytes : Bytes} {image : Image}

theorem externalNames_final (machine : Machine) (script : Script) :
    (script.final machine).externalNames = script.module.externalNames := by
  unfold final
  split_ifs
  · rfl
  · exact Module.externalNames_fold _

theorem typeChecks_final (machine : Machine) (h : script.module.TypeChecks) :
    (script.final machine).TypeChecks := by
  unfold final
  split_ifs
  · exact h
  · exact Module.typeChecks_fold h

/-- Where optimization leaves a module without repeated external names, no wrapper was made
twice. -/
theorem verify_expanded {m module : Module} {table : ExportTable} {machine : Machine}
    (hverify : m.verify = .ok ()) (hexpand : m.expandFor machine table.kernels = .ok module)
    (hnodup : (module.internalize
      (table.preserved entryPoints machine.native)).fold.eliminate.externalNames.Nodup) :
    module.verify = .ok () := by
  unfold Module.expandFor at hexpand
  split_ifs at hexpand with hnative
  · cases hexpand
    exact hverify
  · have hkept (k : Kernel) (hk : k ∈ table.kernels) :
        k.wrapperName ∈ table.preserved entryPoints machine.native := by
      rw [Bool.eq_false_iff.2 hnative]
      exact ExportTable.dispatchName_mem_preserved hk entryPoints false
    have hsublist := Module.sublist_externalNames_optimized hexpand hkept
    refine (Module.verify_expand_iff hexpand hverify).2 ?_
    exact List.Nodup.of_map (· ++ ".expand") (by rw [List.map_map]; exact hnodup.sublist hsublist)

/-- A build for an object that succeeds has made one. -/
theorem object_of_build (h : script.build entryPoints machine lto = (.ok bytes, script'))
    (hfile : machine.fileType = .object) : script'.module.object = .ok bytes := by
  obtain ⟨script₁, -, hg⟩ := of_build h
  obtain ⟨-, hemit, rfl⟩ := of_generate hg
  rw [Machine.emit, hfile] at hemit
  dsimp only at hemit ⊢
  rcases hobject : (script₁.final machine).object with fault | object <;> rw [hobject] at hemit
  · cases hemit
  · cases hemit
    rfl

/-- A build that ends in an image keeps names distinct and functions that type-check. -/
theorem typeChecks_build (h : script.build entryPoints machine lto = (.ok bytes, script'))
    (hverify : script.module.verify = .ok ()) (htyped : script.module.TypeChecks)
    (himage : script'.module.image = .ok image) :
    script'.module.names.Nodup ∧ script'.module.TypeChecks := by
  obtain ⟨script₁, hstage, hg⟩ := of_build h
  obtain ⟨-, -, rfl⟩ := of_generate hg
  have hnodup := Module.nodup_externalNames_of_image himage
  rw [externalNames_final] at hnodup
  have hsettled : script₁.module.names.Nodup ∧ script₁.module.TypeChecks := by
    obtain ⟨-, output, ho⟩ | ⟨-, rfl⟩ := hstage
    · obtain ⟨table, module, -, hexpand, rfl⟩ := of_optimize ho
      have hverified := verify_expanded hverify hexpand hnodup
      have hexpanded : module.TypeChecks := by
        unfold Module.expandFor at hexpand
        split_ifs at hexpand
        · cases hexpand
          exact htyped
        · exact Module.typeChecks_expand hexpand htyped
      have hfolded := Module.verify_eq_ok_iff.1 (Module.verify_fold
        (Module.verify_internalize (table.preserved entryPoints machine.native) hverified))
      exact ⟨hfolded.1.sublist (Module.names_eliminate_sublist _), Module.typeChecks_eliminate
        hfolded.1 (Module.typeChecks_fold (Module.typeChecks_internalize hexpanded))⟩
    · exact ⟨(Module.verify_eq_ok_iff.1 hverify).1, htyped⟩
  exact ⟨by rw [names_final]; exact hsettled.1, typeChecks_final machine hsettled.2⟩

end Script

namespace Compiler

/-- If a script whose functions type-check is compiled to an object, what is written into the sink
reads back as an image of the module that is left, in which every function type-checks against the
types, the functions, the globals and the memory of that image, and every export refers to something
in it under a name of its own. -/
theorem compile_isTyped {ω : Type} (c : Compiler) (machine : Machine) (entryPoints : List String)
    (sink : Sink (StateM ω)) (script script' : Script) (w w' : ω)
    (hmachine : c.machine = some machine) (hfile : machine.fileType = .object)
    (htyped : script.module.TypeChecks)
    (h : ((c.compile (.script entryPoints) sink).run.run script).run w = ((.ok (), script'), w')) :
    ∃ bytes image w₁, c.artifact entryPoints script = some bytes ∧
      (sink.write bytes).run.run w₁ = (.ok (), w') ∧
      Image.decode? bytes = some image ∧ image.Holds script'.module ∧ image.IsTyped := by
  obtain ⟨machine', bytes, w₁, hmachine', hverify, hbuild, hartifact, hwrite⟩ :=
    artifact_of_compile h
  obtain rfl := Option.some.inj (hmachine'.symm.trans hmachine)
  obtain ⟨image, himage, rfl⟩ := ok_of_map (Script.object_of_build hbuild hfile)
  obtain ⟨hnodup, htyped'⟩ := Script.typeChecks_build hbuild hverify htyped himage
  exact ⟨_, image, w₁, hartifact, hwrite, image.decode?_encode, Module.holds_of_image himage,
    Module.isTyped_of_image hnodup htyped' himage⟩

/-- A script with code behind branches and returns, some of it to fold, and with a kernel. -/
def branching : Script where
  module :=
    { id := "branching"
      globals := [{ name := "count" }]
      funcs :=
        [{ name := "idle" },
         { name := "clamp", params := 1, results := 1, locals := 1,
           body :=
             [.block, .loop, .localGet 0, .brIf 1, .const 1, .eqz, .brIf 0, .br 1,
              .binary .add, .localTee 1, .const 6, .const 7, .binary .mul, .globalSet "count",
              .drop, .close, .close,
              .const 2, .const 3, .binary .sub, .ret, .binary .mul] }] }
  exports := some { kernels := [⟨"clamp", ⟨true, true, false⟩⟩] }

/-- Its object has the kernel and a wrapper, both of which type-check. -/
theorem compile_isTyped_branching :
    branching.module.TypeChecks ∧
      ∃ script' w' bytes image,
        ((sampleCompiler.compile (.script ExportTable.entryPoints)
          (Sink.stream (Sink.memory (m := Id)))).run.run branching).run { writer := [] } =
            ((.ok (), script'), w') ∧
        script'.module.names = ["count", "clamp", "clamp.expand"] ∧
        sampleCompiler.artifact ExportTable.entryPoints branching = some bytes ∧
        Image.decode? bytes = some image ∧ image.Holds script'.module ∧ image.IsTyped := by
  have htyped : branching.module.TypeChecks := by decide +kernel
  have h : ((sampleCompiler.compile (.script ExportTable.entryPoints)
      (Sink.stream (Sink.memory (m := Id)))).run.run branching).run { writer := [] } =
        ((.ok (), _), _) :=
    Prod.ext (Prod.ext (by decide +kernel) rfl) rfl
  obtain ⟨bytes, image, -, hartifact, -, hdecode, hholds, hisTyped⟩ := compile_isTyped
    sampleCompiler (sampleCompiler.machine.get rfl) _ _ _ _ _ _ rfl rfl htyped h
  exact ⟨htyped, _, _, bytes, image, h, by decide +kernel, hartifact, hdecode, hholds, hisTyped⟩

end Compiler

end ComputeScript
