import ComputeScript.Proofs.Compile.History
import ComputeScript.Proofs.Compile.Optimized
import ComputeScript.Proofs.Object.Emission
import ComputeScript.Proofs.Target

/-!
# Why a compilation of a well-formed script fails

Under the hooks for scripts, a module that verifies verifies after every event of a compilation
(`sound_of_recorded`): every pass that is collected keeps it so, and so do the wrappers.  What is
left that can fail, when an object is compiled with whole-program optimization into a sink that
accepts it, is the making of the wrappers, and the emission of a module that uses memory and shows
something else under its name (`compile_succeeds_iff`).
-/

namespace ComputeScript

variable {ω : Type}

/-! ### Every module verifies -/

/-- After the pass a module verifies if it did before, even if the pass fails. -/
def Pass.KeepsVerified (p : Pass (StateM ω)) : Prop :=
  ∀ (module : Module) (w : ω), module.verify = .ok () →
    ((p.run.run.run module).run w).1.2.verify = .ok ()

namespace Pass

theorem keepsVerified_internalize (keep : List String) :
    (Pass.internalize (m := StateM ω) keep).KeepsVerified := by
  intro module w h
  rw [run_internalize]
  exact Module.verify_internalize keep h

theorem keepsVerified_fold : (Pass.fold (m := StateM ω)).KeepsVerified := by
  intro module w h
  rw [run_fold]
  exact Module.verify_fold h

theorem keepsVerified_eliminate : (Pass.eliminate (m := StateM ω)).KeepsVerified := by
  intro module w h
  rw [run_eliminate]
  exact Module.verify_eliminate h

theorem keepsVerified_emitter (machine : Machine) :
    (machine.emitter (m := StateM ω)).KeepsVerified := by
  intro module w h
  rw [run_emitter]
  rcases machine.emit module with reason | bytes <;> exact h

end Pass

theorem Machine.keepsVerified_of_mem_stagePasses {machine : Machine} {stage : Stage}
    {passes : List (Pass (StateM ω))} (h : machine.stagePasses stage = .ok passes) :
    ∀ p ∈ passes, p.KeepsVerified :=
  forall_mem_stagePasses h Pass.keepsVerified_fold Pass.keepsVerified_eliminate
    (Pass.keepsVerified_emitter machine)

/-- The module verifies, the exports are these, and the passes that were collected keep the module
well-formed. -/
structure Situation.Sound (table : ExportTable) (x : Situation ω) : Prop where
  verified : x.script.module.verify = .ok ()
  exports : x.script.exports = some table
  passes : ∀ p ∈ x.passes, p.KeepsVerified

section

variable {entryPoints : List String} {machine : Machine} {sink : Sink (StateM ω)}
  {table : ExportTable} {x : Situation ω}

/-- What a hook for scripts leaves is sound. -/
theorem Hooks.sound_script (hdistinct : (table.kernels.map Kernel.name).Nodup) (point : HookPoint)
    {w : Workpiece (StateM ω)} (h : Situation.Sound table ⟨w.script, w.passes, x.world⟩) :
    ∃ result w', ((Hooks.script (m := StateM ω) entryPoints).call point machine).run.run w =
      pure (result, w') ∧ Situation.Sound table ⟨w'.script, w'.passes, x.world⟩ := by
  obtain ⟨stage, moment⟩ := point
  cases stage <;> cases moment
  case lto.beforeAdd =>
    refine ⟨_, _, run_hide_of_some entryPoints machine h.exports, h.verified, h.exports, ?_⟩
    intro p hp
    rcases List.mem_append.1 hp with hp | hp
    · exact h.passes p hp
    · rw [List.mem_singleton.1 hp]
      exact Pass.keepsVerified_internalize _
  case lto.beforeExecute =>
    have hrun := run_expand_of_some machine h.exports
    rcases he : w.script.module.expandFor machine table.kernels with fault | module <;>
      rw [he] at hrun
    · exact ⟨_, _, hrun, h⟩
    · exact ⟨_, _, hrun, Module.verify_expandFor hdistinct he h.verified, h.exports, h.passes⟩
  all_goals exact ⟨_, _, rfl, h⟩

/-- What an event leaves is sound if what it found was. -/
theorem Event.sound_perform (hdistinct : (table.kernels.map Kernel.name).Nodup)
    (h : x.Sound table) (e : Event) :
    (e.perform (.script entryPoints) machine sink x).2.Sound table := by
  cases e with
  | query | prepare | write artifact => exact ⟨h.verified, h.exports, h.passes⟩
  | verify => exact h
  | hook point =>
    have hfound : Situation.Sound table ⟨x.script,
        if point.moment = .beforeAdd then [] else x.passes, x.world⟩ := by
      refine ⟨h.verified, h.exports, ?_⟩
      split_ifs
      · exact fun p hp => absurd hp List.not_mem_nil
      · exact h.passes
    obtain ⟨result, w', hrun, hsound⟩ := Hooks.sound_script hdistinct point
      (w := ⟨x.script, if point.moment = .beforeAdd then [] else x.passes⟩) hfound
    rw [perform_hook_of_pure _ _ _ hrun]
    exact hsound
  | add stage =>
    rw [perform]
    rcases hp : machine.stagePasses (m := StateM ω) stage with error | passes
    · exact h
    · refine ⟨h.verified, h.exports, fun p hmem => ?_⟩
      rcases List.mem_append.1 hmem with hmem | hmem
      · exact h.passes p hmem
      · exact Machine.keepsVerified_of_mem_stagePasses hp p hmem
  | pass stage index =>
    rcases hp : x.passes[index]? with _ | p
    · rw [perform, hp]
      exact h
    · rw [perform_pass _ _ _ hp]
      exact ⟨h.passes p (List.mem_of_getElem? hp) _ _ h.verified, h.exports, h.passes⟩

/-- Records that begin in a sound situation tell of sound situations only. -/
theorem sound_of_recorded (hdistinct : (table.kernels.map Kernel.name).Nodup)
    {records : List (Record ω)} (h : x.Sound table)
    (hrecorded : Event.Recorded (.script entryPoints) machine sink x records) :
    ∀ r ∈ records, r.after.Sound table := by
  induction records generalizing x with
  | nil => exact fun r hr => absurd hr List.not_mem_nil
  | cons r records ih =>
    obtain ⟨hperform, hrest⟩ := hrecorded
    have hafter : r.after.Sound table := by
      have hsound : (r.event.perform (.script entryPoints) machine sink x).2.Sound table :=
        Event.sound_perform hdistinct h r.event
      rwa [hperform] at hsound
    exact List.forall_mem_cons.2 ⟨hafter, ih hafter hrest⟩

end

/-! ### What fails -/

/-- Every kernel of the list has a wrapper, or is a function of the shape of its signature. -/
def Module.Fits (m : Module) (kernels : List Kernel) : Prop :=
  ∀ k ∈ kernels, m.defines k.wrapperName ∨
    ∃ f, m.func? k.name = some f ∧ f.params = k.signature.params ∧ f.results = k.signature.results

theorem Folds.any_usesMemory {σ : Type} {code code' : List (Inst σ)} (h : Folds code code') :
    code'.any Inst.usesMemory = code.any Inst.usesMemory := by
  induction h with
  | binary code _ | eqz v code => rfl
  | cons inst _ ih => rw [List.any_cons, List.any_cons, ih]

namespace Module

variable {m : Module}

theorem exists_expand_iff (fixed : Bool) {kernels : List Kernel} :
    (∃ m', m.expand fixed kernels = .ok m') ↔ m.Fits kernels := by
  simp only [expand_eq_ok_iff, exists_and_left, exists_eq, and_true, Fits]
  refine forall_congr' fun k => ?_
  rw [mem_unexpanded, Kernel.fault?_eq_none_iff, and_imp, ← Bool.not_eq_true]
  exact imp_congr_right fun _ => or_iff_not_imp_left.symm

theorem usesMemory_fold (m : Module) : m.fold.usesMemory = m.usesMemory := by
  have hbody (f : Func) : f.fold.usesMemory = f.usesMemory :=
    foldBody_invariant Folds.any_usesMemory f.body
  simp only [usesMemory, fold, List.any_map, Function.comp_def, hbody]

end Module

namespace Script

variable {machine : Machine} {script : Script}

theorem generate_fst (hverify : script.module.verify = .ok ()) (hfile : machine.fileType = .object)
    (hemits : machine.arch.fileTypes.contains .object) :
    (script.generate machine).1.map (fun _ => ()) =
      if script.module.usesMemory ∧ memoryName ∈ script.module.externalNames then
        .error (.passes .codegen)
      else .ok () := by
  have hfinal : (script.final machine).verify = .ok () ∧
      (script.final machine).usesMemory = script.module.usesMemory ∧
        (script.final machine).externalNames = script.module.externalNames := by
    unfold final
    split_ifs
    · exact ⟨hverify, rfl, rfl⟩
    · exact ⟨Module.verify_fold hverify, Module.usesMemory_fold _, Module.externalNames_fold _⟩
  obtain ⟨hv, hmemory, hexternal⟩ := hfinal
  have hobject := Module.exists_object_iff hv
  rw [hmemory, hexternal] at hobject
  rw [generate, hfile, if_pos hemits, Machine.emit, hfile]
  split_ifs with htaken
  · rcases ho : (script.final machine).object with fault | bytes
    · rfl
    · exact absurd htaken (hobject.1 ⟨bytes, ho⟩)
  · obtain ⟨bytes, ho⟩ := hobject.2 htaken
    rw [ho]
    rfl

/-- Whole-program optimization fails where a kernel does not fit. -/
theorem optimize_fst (entryPoints : List String) {table : ExportTable}
    (hnative : machine.native = false) (htable : script.exports = some table)
    (hfits : ¬script.module.Fits table.kernels) :
    (script.optimize entryPoints machine).1 = .error (.hook ⟨.lto, .beforeExecute⟩) := by
  rw [← Module.exists_expand_iff true, not_exists] at hfits
  simp only [optimize, htable, Module.expandFor, hnative, Bool.false_eq_true, if_false]
  rcases he : script.module.expand true table.kernels with fault | module
  · rfl
  · exact absurd he (hfits module)

/-- Where all kernels fit it succeeds, and leaves a module that verifies. -/
theorem exists_optimize_eq (entryPoints : List String) {table : ExportTable}
    (hnative : machine.native = false) (htable : script.exports = some table)
    (hdistinct : (table.kernels.map Kernel.name).Nodup) (hverify : script.module.verify = .ok ())
    (hfits : script.module.Fits table.kernels) :
    ∃ script', script.optimize entryPoints machine = (.ok [], script') ∧
      script'.module.verify = .ok () := by
  obtain ⟨module, hexpand⟩ := (Module.exists_expand_iff true).2 hfits
  simp only [optimize, htable, Module.expandFor, hnative, Bool.false_eq_true, if_false, hexpand]
  exact ⟨_, rfl, Module.verify_eliminate (Module.verify_fold (Module.verify_internalize _
    (Module.verify_expand hdistinct hexpand hverify)))⟩

/-- Both stages fail where whole-program optimization does. -/
theorem build_fst_of_not_fits (entryPoints : List String) {table : ExportTable}
    (hnative : machine.native = false) (htable : script.exports = some table)
    (hfits : ¬script.module.Fits table.kernels) :
    (script.build entryPoints machine true).1.map (fun _ => ()) =
      .error (.hook ⟨.lto, .beforeExecute⟩) := by
  have hfailed := optimize_fst entryPoints hnative htable hfits
  rw [build, if_pos rfl]
  rcases ho : script.optimize entryPoints machine with ⟨e | bytes, script₁⟩ <;>
    rw [ho] at hfailed <;> cases hfailed
  rfl

/-- Where all kernels fit, they come to what the emission of the optimized module comes to. -/
theorem build_fst_of_fits (entryPoints : List String) {table : ExportTable}
    (hnative : machine.native = false) (hfile : machine.fileType = .object)
    (hemits : machine.arch.fileTypes.contains .object) (htable : script.exports = some table)
    (hdistinct : (table.kernels.map Kernel.name).Nodup) (hverify : script.module.verify = .ok ())
    (hfits : script.module.Fits table.kernels) :
    let module := (script.optimize entryPoints machine).2.module
    (script.build entryPoints machine true).1.map (fun _ => ()) =
      if module.usesMemory ∧ memoryName ∈ module.externalNames then .error (.passes .codegen)
      else .ok () := by
  obtain ⟨script₁, ho, hverify₁⟩ :=
    exists_optimize_eq entryPoints hnative htable hdistinct hverify hfits
  rw [build, if_pos rfl, ho]
  exact generate_fst hverify₁ hfile hemits

end Script

/-- The sink is open, can be prepared, and then takes whatever is written. -/
structure Sink.Accepts (sink : Sink (StateM ω)) (w : ω) : Prop where
  isOpen : (sink.state.run w).1.isOpen
  prepared : (sink.prepare.run.run (sink.state.run w).2).1 = .ok ()
  written : ∀ artifact, ((sink.write artifact).run.run
    (sink.prepare.run.run (sink.state.run w).2).2).1 = .ok ()

namespace Compiler

/-- With a sink that accepts it, a compilation of a module that verifies comes to what its stages
come to. -/
theorem fst_run_compile {c : Compiler} {machine : Machine} (entryPoints : List String)
    {sink : Sink (StateM ω)} {script : Script} {w : ω} (hmachine : c.machine = some machine)
    (hsink : sink.Accepts w) (hverify : script.module.verify = .ok ()) :
    (((c.compile (.script entryPoints) sink).run.run script).run w).1.1 =
      (script.build entryPoints machine c.lto).1.map fun _ => () := by
  have hbind {α β : Type} (act : StateM ω α) (f : α → StateM ω β) (w : ω) :
      (act >>= f).run w = (f (act.run w).1).run (act.run w).2 := rfl
  rw [run_compile, hmachine]
  simp only [hbind, hsink.isOpen, if_true, hsink.prepared, hverify]
  rcases script.build entryPoints machine c.lto with ⟨e | artifact, script'⟩
  · rfl
  · simp only [StateT.run_map]
    change ((sink.write artifact).run.run _).1.mapError _ = _
    rw [hsink.written]
    rfl

/-- The module that whole-program optimization of a script leaves. -/
def optimized (entryPoints : List String) (machine : Machine) (script : Script) : Module :=
  ((withoutPasses (runStage (m := Id) (.script entryPoints) machine .lto)).run.run script).2.module

theorem optimized_eq (entryPoints : List String) (machine : Machine) (script : Script) :
    optimized entryPoints machine script = (script.optimize entryPoints machine).2.module := by
  rw [optimized, run_runStage_lto]
  rfl

/-- A compilation of a script to an object, with whole-program optimization, into a sink that
accepts it, succeeds exactly if every kernel fits and the module that optimization leaves does not
both use memory and show something else under its name; and which of the two it lacks is told by the
error. All modules on the way verify. -/
theorem compile_succeeds_iff (c : Compiler) (config : Config) (machine : Machine)
    (entryPoints : List String) (sink : Sink (StateM ω)) (script script' : Script)
    (table : ExportTable) (w w' : ω) (result : Except CompileError Unit)
    (hcreate : Machine.create config = .ok machine) (harch : machine.arch = .wasm32)
    (hfile : config.fileType = .object) (hmachine : c.machine = some machine) (hlto : c.lto = true)
    (hsink : sink.Accepts w) (hverify : script.module.verify = .ok ())
    (htable : script.exports = some table) (hdistinct : (table.kernels.map Kernel.name).Nodup)
    (hrun : ((c.compile (.script entryPoints) sink).run.run script).run w =
      ((result, script'), w')) :
    let fits := script.module.Fits table.kernels
    let taken := (optimized entryPoints machine script).usesMemory ∧
      memoryName ∈ (optimized entryPoints machine script).externalNames
    (result = .ok () ↔ fits ∧ ¬taken) ∧
      (¬fits → result = .error (.hook ⟨.lto, .beforeExecute⟩)) ∧
      (fits → taken → result = .error (.passes .codegen)) ∧
      ∃ count artifact records, IsHistory (.script entryPoints) machine sink c.lto script w count
        artifact records result script' w' ∧
          ∀ r ∈ records, r.after.script.module.verify = .ok () := by
  have hnative : machine.native = false := by
    rw [Bool.eq_false_iff, ne_eq, Machine.native_iff_of_create hcreate, harch]
    decide
  have hobject : machine.fileType = .object := (Machine.of_create hcreate).2.2.trans hfile
  have hemits : machine.arch.fileTypes.contains .object := by
    rw [harch]
    rfl
  have hsound : Situation.Sound table { script, world := w } :=
    ⟨hverify, htable, fun p hp => absurd hp List.not_mem_nil⟩
  have hresult := fst_run_compile entryPoints hmachine hsink hverify
  have hhistory := @exists_isHistory _ (.script entryPoints) machine sink c hmachine script w
  rw [hrun] at hresult hhistory
  obtain ⟨count, artifact, records, hhistory⟩ := hhistory
  have hverified : ∀ r ∈ records, r.after.script.module.verify = .ok () := fun r hr =>
    (sound_of_recorded hdistinct hsound hhistory.recorded r hr).verified
  dsimp only at hresult ⊢
  rw [hlto] at hresult
  rw [optimized_eq]
  by_cases hfits : script.module.Fits table.kernels
  · rw [Script.build_fst_of_fits entryPoints hnative hobject hemits htable hdistinct hverify
      hfits] at hresult
    split_ifs at hresult with htaken <;> subst hresult
    · refine ⟨?_, fun h => absurd hfits h, fun _ _ => rfl, count, artifact, records, hhistory,
        hverified⟩
      exact iff_of_false (fun h => by cases h) fun h => h.2 htaken
    · exact ⟨iff_of_true rfl ⟨hfits, htaken⟩, fun h => absurd hfits h, fun _ h => absurd h htaken,
        count, artifact, records, hhistory, hverified⟩
  · rw [Script.build_fst_of_not_fits entryPoints hnative htable hfits] at hresult
    subst hresult
    refine ⟨?_, fun _ => rfl, fun h => absurd h hfits, count, artifact, records, hhistory,
      hverified⟩
    exact iff_of_false (fun h => by cases h) fun h => hfits h.1

/-- The kernel of the sample fits, and memory is used under a name that nothing else has. -/
theorem compile_succeeds_iff_doubling :
    ∃ machine script' w' count artifact records,
      Machine.create { triple := "wasm32", optLevel := .o2 } = .ok machine ∧
      ((sampleCompiler.compile (.script ExportTable.entryPoints)
        (Sink.stream (Sink.memory (m := Id)))).run.run doubling).run { writer := [] } =
          ((.ok (), script'), w') ∧
      IsHistory (.script ExportTable.entryPoints) machine (Sink.stream (Sink.memory (m := Id))) true
        doubling { writer := [] } count artifact records (.ok ()) script' w' ∧
      ∀ r ∈ records, r.after.script.module.verify = .ok () := by
  rcases hrun : ((sampleCompiler.compile (.script ExportTable.entryPoints)
    (Sink.stream (Sink.memory (m := Id)))).run.run doubling).run { writer := [] } with
    ⟨⟨result, script'⟩, w'⟩
  obtain ⟨hok, -, -, count, artifact, records, hhistory, hverified⟩ := compile_succeeds_iff
    sampleCompiler { triple := "wasm32", optLevel := .o2 } (sampleCompiler.machine.get rfl) _ _ _ _
    doublingExports _ _ _ (by decide +kernel) rfl rfl rfl rfl ⟨rfl, rfl, fun _ => rfl⟩
    (by decide +kernel) rfl (by decide) hrun
  have hfits : doubling.module.Fits doublingExports.kernels := by
    refine List.forall_mem_singleton.2 (.inr ⟨doubling.module.funcs[1], ?_, rfl, rfl⟩)
    decide +kernel
  obtain rfl : result = .ok () := hok.2 ⟨hfits, by decide +kernel⟩
  exact ⟨_, script', w', count, artifact, records, by decide +kernel, rfl, hhistory, hverified⟩

end Compiler

end ComputeScript
