import ComputeScript.Proofs.Compile.Settled

/-!
# Optimization levels

The optimization level decides whether code generation folds once more.  Elimination only drops
functions, and of a folded module it leaves nothing to fold (`Module.fold_eliminate`).  So after
whole-program optimization code is generated for the same module at every level
(`Script.exists_build_eq`), and `Compiler.compile_level_irrelevant` says what follows for a
compilation.
-/

namespace ComputeScript

namespace Module

/-- Folding does not look at which functions there are. -/
theorem fold_restrict (names : List String) (m : Module) :
    (m.restrict names).fold = m.fold.restrict names := by
  unfold fold restrict
  dsimp only
  rw [List.filter_map]
  rfl

/-- What elimination leaves of a folded module is folded. -/
theorem fold_eliminate (m : Module) : m.fold.eliminate.fold = m.fold.eliminate := by
  rw [eliminate, fold_restrict, fold_fold]

end Module

/-- The level is seen in listings only. -/
theorem Machine.emit_level {machine : Machine} (h : machine.fileType = .object) (level : OptLevel)
    (m : Module) : Machine.emit { machine with optLevel := level } m = machine.emit m := by
  simp only [emit, h]

namespace Script

variable {entryPoints : List String} {machine : Machine} {script script' : Script} {bytes : Bytes}

theorem folded_of_optimize (h : script.optimize entryPoints machine = (.ok bytes, script')) :
    script'.module.fold = script'.module := by
  obtain ⟨table, module, -, -, rfl⟩ := of_optimize h
  exact Module.fold_eliminate _

/-- Where nothing is left to fold, code generation emits code for the module as it is. -/
theorem generate_of_folded (h : script.module.fold = script.module) (machine : Machine) :
    script.generate machine =
      (if machine.arch.fileTypes.contains machine.fileType then
        (machine.emit script.module).mapError fun _ => .passes .codegen
      else .error .badFileType, script) := by
  unfold generate
  rw [final_eq_self h]
  split_ifs <;> rfl

/-- At every level a build with whole-program optimization leaves the same script, and either stops
with the same error or emits code for the module of that script. -/
theorem exists_build_eq (entryPoints : List String) (machine : Machine) (script : Script) :
    ∃ (error : Option CompileError) (script' : Script), ∀ level : OptLevel,
      script.build entryPoints { machine with optLevel := level } true =
        (match error with
          | some e => .error e
          | none => (Machine.emit { machine with optLevel := level } script'.module).mapError
              fun _ => .passes .codegen, script') := by
  have hoptimize (level : OptLevel) :
      script.optimize entryPoints { machine with optLevel := level } =
        script.optimize entryPoints machine := rfl
  simp only [build, if_true, hoptimize]
  rcases ho : script.optimize entryPoints machine with ⟨e | output, script'⟩
  · exact ⟨some e, script', fun _ => rfl⟩
  · simp only [generate_of_folded (folded_of_optimize ho)]
    by_cases hfile : machine.arch.fileTypes.contains machine.fileType
    · exact ⟨none, script', fun level => by simp only [hfile, if_true]⟩
    · exact ⟨some .badFileType, script', fun level => by simp only [hfile]; rfl⟩

end Script

namespace Compiler

/-- Two ways to finish a compilation leave the same script, and the same failures but that of the
sink to which the artifact was written. -/
def Alike {ω : Type} (x y : StateM ω (Except CompileError Unit × Script)) : Prop :=
  ∀ w, (x.run w).1.2 = (y.run w).1.2 ∧
    ∀ e, e ≠ .writeSink → ((x.run w).1.1 = .error e ↔ (y.run w).1.1 = .error e)

section

variable {ω α : Type}

theorem Alike.refl (x : StateM ω (Except CompileError Unit × Script)) : Alike x x :=
  fun _ => ⟨rfl, fun _ _ => Iff.rfl⟩

theorem Alike.bind (x : StateM ω α) {f g : α → StateM ω (Except CompileError Unit × Script)}
    (h : ∀ a, Alike (f a) (g a)) : Alike (x >>= f) (x >>= g) :=
  fun w => h (x.run w).1 (x.run w).2

/-- Artifacts that differ are written with no other difference than what the sink says. -/
theorem Alike.write (sink : Sink (StateM ω)) (script : Script) (bytes bytes' : Bytes) :
    Alike ((fun result => (result.mapError fun _ => .writeSink, script)) <$> (sink.write bytes).run)
      ((fun result => (result.mapError fun _ => .writeSink, script)) <$>
        (sink.write bytes').run) := by
  have hother {result : Except SinkFault Unit} {e : CompileError} (he : e ≠ .writeSink) :
      result.mapError (fun _ => CompileError.writeSink) ≠ .error e := by
    cases result with
    | ok _ => exact nofun
    | error _ => exact fun h => he (Except.error.inj h).symm
  exact fun w => ⟨rfl, fun e he => iff_of_false (hother he) (hother he)⟩

end

/-- With whole-program optimization, compilations of a script at two levels come to the same.  Where
an object is asked for, all is the same: the result, the script that is left and what the sink was
given.  A listing names the level; so where a listing is asked for, the script that is left is the
same, and so is each error but that of the sink to which the listing was written. -/
theorem compile_level_irrelevant {ω : Type} (machine : Machine) (level level' : OptLevel)
    (entryPoints : List String) (sink : Sink (StateM ω)) (script : Script) (w : ω) :
    let run (level : OptLevel) : (Except CompileError Unit × Script) × ω :=
      ((Compiler.mk (some { machine with optLevel := level }) true).compile (.script entryPoints)
        sink).run.run script |>.run w
    (machine.fileType = .object → run level = run level') ∧
      (run level).1.2 = (run level').1.2 ∧
      ∀ e, e ≠ .writeSink → ((run level).1.1 = .error e ↔ (run level').1.1 = .error e) := by
  obtain ⟨error, script', hbuild⟩ := script.exists_build_eq entryPoints machine
  intro run
  have hobject (hfile : machine.fileType = .object) : run level = run level' := by
    simp only [run, run_compile, hbuild, Machine.emit_level hfile]
  refine ⟨hobject, ?_⟩
  cases hfile : machine.fileType with
  | object =>
    rw [hobject hfile]
    exact ⟨rfl, fun _ _ => Iff.rfl⟩
  | assembly =>
    have hlisting (level : OptLevel) (m : Module) :
        Machine.emit { machine with optLevel := level } m =
          .ok (utf8 (m.listing machine.triple.text level)) := by
      simp only [Machine.emit, hfile]
    suffices halike : Alike _ _ from halike w
    simp only [run_compile, hbuild, hlisting]
    apply Alike.bind
    intro st
    by_cases hopen : st.isOpen
    · simp only [hopen, if_true]
      apply Alike.bind
      intro prepared
      rcases prepared with fault | ⟨⟩
      · exact .refl _
      · rcases script.module.verify with fault | ⟨⟩
        · exact .refl _
        · cases error with
          | some e => exact .refl _
          | none => exact .write sink script' _ _
    · simp only [hopen]
      exact .refl _

/-- A script with something to fold has the same object, whether code generation folds or not. -/
theorem compile_level_irrelevant_doubling :
    ∃ machine, sampleCompiler.machine = some machine ∧ machine.fileType = .object ∧
      let run (level : OptLevel) :=
        ((Compiler.mk (some { machine with optLevel := level }) true).compile
          (.script ExportTable.entryPoints) (Sink.stream (Sink.memory (m := Id)))).run.run doubling
            |>.run { writer := [] }
      doubling.module.fold ≠ doubling.module ∧ (run .o0).1.1 = .ok () ∧ run .o0 = run .o3 :=
  ⟨sampleCompiler.machine.get rfl, rfl, rfl, by decide +kernel, by decide +kernel,
    (compile_level_irrelevant _ .o0 .o3 _ _ _ _).1 rfl⟩

end Compiler

end ComputeScript
