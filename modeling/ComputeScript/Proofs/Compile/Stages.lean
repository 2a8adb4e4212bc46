import ComputeScript.Compiler
import Mathlib.Tactic.SplitIfs

/-!
# The stages of a script's compilation

Under the hooks for scripts, what a stage does depends on nothing but the script.  `Script.optimize`
and `Script.generate` describe the two stages as functions of the script, `run_runStage_lto` and
`run_runStage_codegen` say that the stages compute them, and `run_compile` that a whole compilation
does, between the calls that it makes of its sink.  All of it holds in every lawful monad.
`Script.of_optimize`, `Script.of_generate` and `Script.of_build` say what the stages did where they
succeed, and `Script.of_build_error` why they fail.
-/

namespace ComputeScript

namespace Machine

/-- What the machine emits for a module. -/
def emit (machine : Machine) (m : Module) : Except String Bytes :=
  match machine.fileType with
  | .object =>
    match m.object with
    | .error fault => .error (m.invalid fault.message)
    | .ok bytes => .ok bytes
  | .assembly => .ok (utf8 (m.listing machine.triple.text machine.optLevel))

end Machine

/-- The module with the wrappers that a machine needs. -/
def Module.expandFor (machine : Machine) (kernels : List Kernel) (m : Module) :
    Except ExpandFault Module :=
  if machine.native then .ok m else m.expand true kernels

theorem Module.expand_nil (fixed : Bool) (m : Module) : m.expand fixed [] = .ok m := by
  simp [Module.expand, Module.unexpanded]

namespace Script

/-- What whole-program optimization makes of a script, and its result. -/
def optimize (entryPoints : List String) (machine : Machine) (script : Script) :
    Except CompileError Bytes × Script :=
  match script.exports with
  | none => (.error (.hook ⟨.lto, .beforeAdd⟩), script)
  | some table =>
    match script.module.expandFor machine table.kernels with
    | .error _ => (.error (.hook ⟨.lto, .beforeExecute⟩), script)
    | .ok module =>
      let keep := table.preserved entryPoints machine.native
      (.ok [], { script with module := (module.internalize keep).fold.eliminate })

/-- The module for which code is emitted. -/
def final (machine : Machine) (script : Script) : Module :=
  if machine.optLevel = .o0 then script.module else script.module.fold

/-- What code generation makes of a script, and its result. -/
def generate (machine : Machine) (script : Script) : Except CompileError Bytes × Script :=
  if machine.arch.fileTypes.contains machine.fileType then
    ((machine.emit (script.final machine)).mapError fun _ => .passes .codegen,
      { script with module := script.final machine })
  else (.error .badFileType, script)

/-- What the stages of a compilation make of a script, and their result. -/
def build (entryPoints : List String) (machine : Machine) (lto : Bool) (script : Script) :
    Except CompileError Bytes × Script :=
  if lto then
    match script.optimize entryPoints machine with
    | (.error e, script) => (.error e, script)
    | (.ok _, script) => script.generate machine
  else script.generate machine

/-! ### Stages that succeed -/

variable {entryPoints : List String} {machine : Machine} {lto : Bool} {script script' : Script}
  {bytes : Bytes}

/-- An optimization that succeeds has made the wrappers and left what is reachable. -/
theorem of_optimize (h : script.optimize entryPoints machine = (.ok bytes, script')) :
    ∃ table module, script.exports = some table ∧
      script.module.expandFor machine table.kernels = .ok module ∧
      let keep := table.preserved entryPoints machine.native
      script' = { script with module := (module.internalize keep).fold.eliminate } := by
  unfold optimize at h
  split at h
  · cases h
  next table htable =>
    split at h
    · cases h
    next module hexpand =>
      obtain ⟨-, rfl⟩ := Prod.mk.inj h
      exact ⟨table, module, htable, hexpand, rfl⟩

/-- A code generation that succeeds has emitted code for the final module. -/
theorem of_generate (h : script.generate machine = (.ok bytes, script')) :
    machine.arch.fileTypes.contains machine.fileType ∧
      machine.emit (script.final machine) = .ok bytes ∧
      script' = { script with module := script.final machine } := by
  unfold generate at h
  split_ifs at h with htype
  · obtain ⟨hbytes, rfl⟩ := Prod.mk.inj h
    rcases he : machine.emit (script.final machine) with reason | emitted <;> rw [he] at hbytes
    · cases hbytes
    · cases hbytes
      exact ⟨htype, rfl, rfl⟩
  · cases h

/-- A build that succeeds has generated code, after an optimization if that is enabled. -/
theorem of_build (h : script.build entryPoints machine lto = (.ok bytes, script')) :
    ∃ script₁,
      (lto = true ∧ (∃ output, script.optimize entryPoints machine = (.ok output, script₁)) ∨
        lto = false ∧ script₁ = script) ∧
      script₁.generate machine = (.ok bytes, script') := by
  unfold build at h
  split_ifs at h with hlto
  · rcases ho : script.optimize entryPoints machine with ⟨e | output, script₁⟩ <;> rw [ho] at h
    · cases h
    · exact ⟨script₁, .inl ⟨hlto, output, rfl⟩, h⟩
  · exact ⟨script, .inr ⟨Bool.eq_false_iff.2 hlto, rfl⟩, h⟩

/-! ### Stages that fail -/

theorem of_generate_error {e : CompileError}
    (h : script.generate machine = (.error e, script')) :
    e = .badFileType ∨ e = .passes .codegen := by
  unfold generate at h
  split_ifs at h
  · obtain ⟨hresult, -⟩ := Prod.mk.inj h
    rcases he : machine.emit (script.final machine) with reason | bytes <;> rw [he] at hresult <;>
      cases hresult
    exact .inr rfl
  · cases h
    exact .inl rfl

/-- An optimization fails by one of its hooks, and leaves the script as it was. -/
theorem of_optimize_error {e : CompileError}
    (h : script.optimize entryPoints machine = (.error e, script')) :
    (e = .hook ⟨.lto, .beforeAdd⟩ ∨ e = .hook ⟨.lto, .beforeExecute⟩) ∧ script' = script := by
  unfold optimize at h
  split at h
  · cases h
    exact ⟨.inl rfl, rfl⟩
  · split at h <;> cases h
    exact ⟨.inr rfl, rfl⟩

theorem of_build_error {e : CompileError}
    (h : script.build entryPoints machine lto = (.error e, script')) :
    (e = .hook ⟨.lto, .beforeAdd⟩ ∨ e = .hook ⟨.lto, .beforeExecute⟩) ∧ script' = script ∨
      e = .badFileType ∨ e = .passes .codegen := by
  unfold build at h
  split_ifs at h
  · rcases ho : script.optimize entryPoints machine with ⟨e₁ | bytes, script₁⟩ <;> rw [ho] at h
    · cases h
      exact .inl (of_optimize_error ho)
    · exact .inr (of_generate_error h)
  · exact .inr (of_generate_error h)

end Script

variable {m : Type → Type} [Monad m] [LawfulMonad m]

/-! ### Computations that may fail and keep their state -/

section

variable {ε σ α β : Type}

theorem run_run_get (s : σ) : (get : ExceptT ε (StateT σ m) σ).run.run s = pure (.ok s, s) := by
  change (Except.ok <$> (get : StateT σ m σ)).run s = _
  simp

theorem run_run_set (s s' : σ) :
    (set s' : ExceptT ε (StateT σ m) PUnit).run.run s = pure (.ok ⟨⟩, s') := by
  change (Except.ok <$> (set s' : StateT σ m PUnit)).run s = _
  simp

theorem run_run_modify (s : σ) (f : σ → σ) :
    (modify f : ExceptT ε (StateT σ m) PUnit).run.run s = pure (.ok ⟨⟩, f s) := by
  change (Except.ok <$> (modify f : StateT σ m PUnit)).run s = _
  simp

theorem run_run_liftM (act : m α) (s : σ) :
    (liftM act : ExceptT ε (StateT σ m) α).run.run s = act >>= fun a => pure (.ok a, s) := by
  change (Except.ok <$> (monadLift act : StateT σ m α)).run s = _
  simp

theorem run_run_adapt {ε' : Type} (f : ε → ε') (x : ExceptT ε (StateT σ m) α) (s : σ) :
    (ExceptT.adapt f x).run.run s = x.run.run s >>= fun p => pure (p.1.mapError f, p.2) := by
  change (Except.mapError f <$> x.run).run s = _
  rw [StateT.run_map, map_eq_pure_bind]

/-- A computation that does not see the state, under another kind of error. -/
theorem run_run_adapt_lift {ε' : Type} (f : ε' → ε) (act : m (Except ε' α)) (s : σ) :
    (ExceptT.adapt (m := StateT σ m) f (liftM act : StateT σ m (Except ε' α))).run.run s =
      (fun r => (r.mapError f, s)) <$> act := by
  change (Except.mapError f <$> (monadLift act : StateT σ m (Except ε' α))).run s = _
  simp

theorem run_run_bind_adapt_lift {ε' : Type} (f : ε' → ε) (act : m (Except ε' α))
    (g : α → ExceptT ε (StateT σ m) β) (s : σ) :
    (ExceptT.adapt (m := StateT σ m) f (liftM act : StateT σ m (Except ε' α)) >>= g).run.run s =
      act >>= fun
        | .ok a => (g a).run.run s
        | .error e => pure (.error (f e), s) := by
  rw [ExceptT.run_bind, StateT.run_bind, run_run_adapt_lift, bind_map_left]
  refine bind_congr fun r => ?_
  cases r <;> rfl

variable {x : ExceptT ε (StateT σ m) α} {s s' : σ}

theorem run_run_bind_liftM (act : m α) (f : α → ExceptT ε (StateT σ m) β) (s : σ) :
    (liftM act >>= f).run.run s = act >>= fun a => (f a).run.run s := by
  rw [ExceptT.run_bind, StateT.run_bind, run_run_liftM, bind_assoc]
  simp only [pure_bind]

theorem run_run_bind_of_ok {a : α} (h : x.run.run s = pure (.ok a, s'))
    (f : α → ExceptT ε (StateT σ m) β) : (x >>= f).run.run s = (f a).run.run s' := by
  rw [ExceptT.run_bind, StateT.run_bind, h, pure_bind]

theorem run_run_bind_of_error {e : ε} (h : x.run.run s = pure (.error e, s'))
    (f : α → ExceptT ε (StateT σ m) β) : (x >>= f).run.run s = pure (.error e, s') := by
  rw [ExceptT.run_bind, StateT.run_bind, h, pure_bind, StateT.run_pure]

end

/-! ### Passes -/

namespace Pass

section

variable (name : String) (module : Module)

theorem run_ofFunction (f : Module → Except String (Module × Bool)) :
    (ofFunction (m := m) name f).run.run.run module =
      pure (match f module with
        | .error reason => (.error ⟨name, reason⟩, module)
        | .ok (module', differs) => (.ok (if differs then .changed else .unchanged), module')) := by
  rw [ofFunction, run_run_bind_of_ok (run_run_get module)]
  rcases f module with reason | ⟨module', differs⟩
  · rfl
  · exact run_run_bind_of_ok (run_run_set module module') _

theorem run_ofEmitter (f : Module → Except String Bytes) :
    (ofEmitter (m := m) name f).run.run.run module =
      pure (match f module with
        | .error reason => (.error ⟨name, reason⟩, module)
        | .ok bytes => (.ok (.emitted bytes), module)) := by
  rw [ofEmitter, run_run_bind_of_ok (run_run_get module)]
  rcases f module with reason | bytes <;> rfl

end

theorem run_internalize (keep : List String) (module : Module) :
    (Pass.internalize (m := m) keep).run.run.run module =
      pure (.ok (if 0 < module.hiddenCount keep then .changed else .unchanged),
        module.internalize keep) := by
  rw [Pass.internalize, run_ofFunction]
  simp only [decide_eq_true_eq]

theorem run_fold (module : Module) :
    (Pass.fold (m := m)).run.run.run module =
      pure (.ok (if 0 < module.foldCount then .changed else .unchanged), module.fold) := by
  rw [Pass.fold, run_ofFunction]
  simp only [decide_eq_true_eq]

theorem run_eliminate (module : Module) :
    (Pass.eliminate (m := m)).run.run.run module =
      pure (.ok (if module.eliminate.size < module.size then .changed else .unchanged),
        module.eliminate) := by
  rw [Pass.eliminate, run_ofFunction]
  simp only [decide_eq_true_eq]

theorem run_expand (fixed : Bool) (kernels : List Kernel) (module : Module) :
    (Pass.expand (m := m) fixed kernels).run.run.run module =
      pure (match module.expand fixed kernels with
        | .error fault => (.error ⟨"foreach-expand", fault.message⟩, module)
        | .ok expanded =>
          (.ok (if (module.unexpanded kernels).isEmpty then .unchanged else .changed),
            expanded)) := by
  rw [Pass.expand, run_ofFunction]
  rcases module.expand fixed kernels with fault | expanded
  · rfl
  · cases (module.unexpanded kernels).isEmpty <;> rfl

theorem run_emitter (machine : Machine) (module : Module) :
    (machine.emitter (m := m)).run.run.run module =
      pure (match machine.emit module with
        | .error reason => (.error ⟨(machine.emitter (m := m)).name, reason⟩, module)
        | .ok bytes => (.ok (.emitted bytes), module)) := by
  unfold Machine.emitter Machine.emit
  cases machine.fileType with
  | object => exact run_ofEmitter _ _ _
  | assembly => exact run_ofEmitter _ _ _

variable {p : Pass m} {module module' : Module}

theorem run_runFrom_cons_of_ok {outcome : Outcome}
    (h : p.run.run.run module = pure (.ok outcome, module')) (s : Summary) (ps : List (Pass m)) :
    (runFrom s (p :: ps)).run.run module = (runFrom (s.add outcome) ps).run.run module' := by
  rw [runFrom, run_run_bind_of_ok h]

theorem run_runFrom_cons_of_error {e : PassError}
    (h : p.run.run.run module = pure (.error e, module')) (s : Summary) (ps : List (Pass m)) :
    (runFrom s (p :: ps)).run.run module = pure (.error e, module') := by
  rw [runFrom, run_run_bind_of_error h]

end Pass

omit [LawfulMonad m] in
/-- A stage adds foldings, eliminations and the emitter, and nothing else. -/
theorem Machine.forall_mem_stagePasses {P : Pass m → Prop} {machine : Machine} {st : Stage}
    {passes : List (Pass m)} (h : machine.stagePasses st = .ok passes) (hfold : P .fold)
    (heliminate : P .eliminate) (hemitter : P machine.emitter) : ∀ p ∈ passes, P p := by
  cases st with
  | lto =>
    cases h
    exact List.forall_mem_cons.2 ⟨hfold, List.forall_mem_singleton.2 heliminate⟩
  | codegen =>
    simp only [stagePasses, codegenPasses] at h
    split_ifs at h <;> cases h
    · exact List.forall_mem_singleton.2 hemitter
    · exact List.forall_mem_cons.2 ⟨hfold, List.forall_mem_singleton.2 hemitter⟩

/-! ### Hooks -/

namespace Hooks

variable {w : Workpiece m}

theorem run_requireExports_of_none (purpose : String) (h : w.script.exports = Option.none) :
    (requireExports purpose).run.run w =
      pure (.error (.noExports w.script.module.id purpose), w) := by
  rw [requireExports, run_run_bind_of_ok (run_run_get w)]
  simp only [h]
  rfl

theorem run_requireExports_of_some (purpose : String) {table : ExportTable}
    (h : w.script.exports = some table) :
    (requireExports purpose).run.run w = pure (.ok table, w) := by
  rw [requireExports, run_run_bind_of_ok (run_run_get w)]
  simp only [h]
  rfl

theorem run_hide_of_none (entryPoints : List String) (machine : Machine)
    (h : w.script.exports = Option.none) :
    (hide entryPoints machine).run.run w =
      pure (.error (.noExports w.script.module.id "compute preserved symbols"), w) := by
  rw [hide, run_run_bind_of_error (run_requireExports_of_none _ h)]

theorem run_hide_of_some (entryPoints : List String) (machine : Machine) {table : ExportTable}
    (h : w.script.exports = some table) :
    (hide entryPoints machine).run.run w =
      pure (.ok (),
        { w with
          passes := w.passes ++ [.internalize (table.preserved entryPoints machine.native)] }) := by
  rw [hide, run_run_bind_of_ok (run_requireExports_of_some _ h), run_run_modify]

theorem run_expand_of_some (machine : Machine) {table : ExportTable}
    (h : w.script.exports = some table) :
    (expand machine).run.run w =
      pure (match w.script.module.expandFor machine table.kernels with
        | .error fault => (.error (.pass ⟨"foreach-expand", fault.message⟩), w)
        | .ok module => (.ok (), { w with script := { w.script with module } })) := by
  rw [expand, run_run_bind_of_ok (run_requireExports_of_some _ h)]
  unfold Module.expandFor
  by_cases hn : machine.native = true
  · simp only [hn, Bool.true_or, if_true]
    rfl
  rw [if_neg hn]
  by_cases hk : table.kernels.isEmpty = true
  · have hm : w.script.module.expand true table.kernels = .ok w.script.module := by
      rw [List.isEmpty_iff.1 hk, Module.expand_nil]
    simp only [hm, hk, Bool.or_true, if_true]
    rfl
  simp only [hn, hk, Bool.or_self, Bool.false_eq_true, if_false]
  rw [run_run_bind_of_ok (run_run_get w)]
  have hlift := run_run_liftM (ε := HookError) (σ := Workpiece m)
    ((Pass.runAll [Pass.expand (m := m) true table.kernels]).run.run w.script.module) w
  have hpass := Pass.run_expand (m := m) true table.kernels w.script.module
  rcases he : w.script.module.expand true table.kernels with fault | module <;> rw [he] at hpass
  · have hrun := Pass.run_runFrom_cons_of_error hpass {} []
    rw [Pass.runAll, hrun, pure_bind] at hlift
    rw [Pass.runAll, hrun, run_run_bind_of_ok hlift, run_run_bind_of_ok (run_run_set _ _)]
    rfl
  · have hrun := Pass.run_runFrom_cons_of_ok hpass {} []
    rw [Pass.runAll, hrun, Pass.runFrom, ExceptT.run_pure, StateT.run_pure, pure_bind] at hlift
    rw [Pass.runAll, hrun, Pass.runFrom, ExceptT.run_pure, StateT.run_pure,
      run_run_bind_of_ok hlift, run_run_bind_of_ok (run_run_set _ _)]
    rfl

end Hooks

/-! ### Stages -/

namespace Compiler

variable {w : Workpiece m}

theorem run_callHook_of_ok (hooks : Hooks m) (machine : Machine) (point : HookPoint)
    {w' : Workpiece m} (h : (hooks.call point machine).run.run w = pure (.ok (), w')) :
    (callHook hooks machine point).run.run w = pure (.ok (), w') := by
  rw [callHook, run_run_adapt, h, pure_bind]
  rfl

theorem run_callHook_of_error (hooks : Hooks m) (machine : Machine) (point : HookPoint)
    {e : HookError} {w' : Workpiece m}
    (h : (hooks.call point machine).run.run w = pure (.error e, w')) :
    (callHook hooks machine point).run.run w = pure (.error (.hook point), w') := by
  rw [callHook, run_run_adapt, h, pure_bind]
  rfl

theorem run_addPasses_of_ok {machine : Machine} {st : Stage} {passes : List (Pass m)}
    (h : machine.stagePasses st = .ok passes) :
    (addPasses machine st).run.run w = pure (.ok (), { w with passes := w.passes ++ passes }) := by
  rw [addPasses, h]
  exact run_run_modify _ _

theorem run_execute (st : Stage) {result : Except PassError Summary} {module : Module}
    (h : (Pass.runAll w.passes).run.run w.script.module = pure (result, module)) :
    (execute st).run.run w =
      pure (result.mapError fun _ => .passes st,
        { w with script := { w.script with module } }) := by
  rw [execute, run_run_bind_of_ok (run_run_get w)]
  have hlift := run_run_liftM (ε := CompileError) (σ := Workpiece m)
    ((Pass.runAll w.passes).run.run w.script.module) w
  rw [h, pure_bind] at hlift
  rw [h, run_run_bind_of_ok hlift, run_run_bind_of_ok (run_run_set _ _)]
  cases result <;> rfl

theorem run_withoutPasses {α : Type} {act : Compiling (Workpiece m) m α} {script : Script}
    {result : Except CompileError α} (h : act.run.run { script } = pure (result, w)) :
    (withoutPasses act).run.run script = pure (result, w.script) := by
  change (do let p ← act.run.run { script }; pure (p.1, p.2.script)) = _
  rw [h, pure_bind]

theorem run_ltoPasses (keep : List String) (module : Module) :
    ∃ summary : Summary,
      (Pass.runAll (m := m) [.internalize keep, .fold, .eliminate]).run.run module =
        pure (.ok summary, (module.internalize keep).fold.eliminate) ∧ summary.output = [] := by
  rw [Pass.runAll, Pass.run_runFrom_cons_of_ok (Pass.run_internalize keep module),
    Pass.run_runFrom_cons_of_ok (Pass.run_fold _),
    Pass.run_runFrom_cons_of_ok (Pass.run_eliminate _)]
  refine ⟨_, rfl, ?_⟩
  split_ifs <;> rfl

theorem run_runStage_lto (entryPoints : List String) (machine : Machine) (script : Script) :
    (withoutPasses (runStage (m := m) (.script entryPoints) machine .lto)).run.run script =
      pure (script.optimize entryPoints machine) := by
  rcases ht : script.exports with _ | table
  · have hhide := run_callHook_of_error (.script (m := m) entryPoints) machine
      ⟨.lto, .beforeAdd⟩ (Hooks.run_hide_of_none (w := { script }) entryPoints machine ht)
    simp only [Script.optimize, ht]
    exact run_withoutPasses (run_run_bind_of_error hhide _)
  let keep := table.preserved entryPoints machine.native
  let passes : List (Pass m) := [.internalize keep, .fold, .eliminate]
  have hhide : (callHook (.script entryPoints) machine ⟨.lto, .beforeAdd⟩).run.run { script } =
      pure (.ok (), (⟨script, [.internalize keep]⟩ : Workpiece m)) :=
    run_callHook_of_ok _ _ _ (Hooks.run_hide_of_some (w := { script }) entryPoints machine ht)
  have hadd : (addPasses machine .lto).run.run ⟨script, [.internalize keep]⟩ =
      pure (.ok (), (⟨script, passes⟩ : Workpiece m)) :=
    run_addPasses_of_ok rfl
  have hquiet (moment : Moment) (hm : moment = .afterAdd ∨ moment = .afterExecute)
      (w : Workpiece m) : (callHook (.script entryPoints) machine ⟨.lto, moment⟩).run.run w =
        pure (.ok (), w) := by
    rcases hm with rfl | rfl <;> exact run_callHook_of_ok _ _ _ rfl
  have hexpand := Hooks.run_expand_of_some (w := (⟨script, passes⟩ : Workpiece m)) machine ht
  rcases he : script.module.expandFor machine table.kernels with fault | module <;>
    rw [he] at hexpand
  · have hopt : script.optimize entryPoints machine =
        (.error (.hook ⟨.lto, .beforeExecute⟩), script) := by
      simp only [Script.optimize, ht, he]
    have hfail := run_callHook_of_error (.script (m := m) entryPoints) machine
      ⟨.lto, .beforeExecute⟩ hexpand
    rw [hopt]
    refine run_withoutPasses (w := ⟨script, passes⟩) ?_
    rw [runStage, run_run_bind_of_ok hhide, run_run_bind_of_ok hadd,
      run_run_bind_of_ok (hquiet .afterAdd (.inl rfl) _), run_run_bind_of_error hfail]
  · obtain ⟨summary, hrun, houtput⟩ := run_ltoPasses (m := m) keep module
    let script' : Script := { script with module := (module.internalize keep).fold.eliminate }
    have hopt : script.optimize entryPoints machine = (.ok [], script') := by
      simp only [Script.optimize, ht, he, script', keep]
    have hmake := run_callHook_of_ok (.script (m := m) entryPoints) machine
      ⟨.lto, .beforeExecute⟩ hexpand
    have hexecute : (execute .lto).run.run ⟨{ script with module }, passes⟩ =
        pure (.ok summary, (⟨script', passes⟩ : Workpiece m)) :=
      run_execute (w := ⟨{ script with module }, passes⟩) .lto hrun
    rw [hopt]
    refine run_withoutPasses (w := ⟨script', passes⟩) ?_
    rw [runStage, run_run_bind_of_ok hhide, run_run_bind_of_ok hadd,
      run_run_bind_of_ok (hquiet .afterAdd (.inl rfl) _), run_run_bind_of_ok hmake,
      run_run_bind_of_ok hexecute, run_run_bind_of_ok (hquiet .afterExecute (.inr rfl) _), houtput]
    rfl

theorem run_codegenPasses (machine : Machine) (script : Script) :
    ∃ result : Except PassError Summary,
      (Pass.runAll (m := m) ((if machine.optLevel = .o0 then [] else [.fold]) ++
        [machine.emitter])).run.run script.module = pure (result, script.final machine) ∧
      (result.mapError fun _ => CompileError.passes .codegen).map Summary.output =
        (machine.emit (script.final machine)).mapError fun _ => .passes .codegen := by
  have hlast (s : Summary) (hs : s.output = []) (module : Module) :
      ∃ result : Except PassError Summary,
        (Pass.runFrom s [machine.emitter (m := m)]).run.run module = pure (result, module) ∧
        (result.mapError fun _ => CompileError.passes .codegen).map Summary.output =
          (machine.emit module).mapError fun _ => .passes .codegen := by
    have hemit := Pass.run_emitter (m := m) machine module
    rcases he : machine.emit module with reason | bytes <;> rw [he] at hemit
    · exact ⟨_, Pass.run_runFrom_cons_of_error hemit s [], rfl⟩
    · refine ⟨_, Pass.run_runFrom_cons_of_ok hemit s [], ?_⟩
      simp [Except.mapError, Except.map, Summary.add, hs]
  unfold Script.final Pass.runAll
  split_ifs
  · exact hlast _ rfl _
  · rw [List.singleton_append, Pass.run_runFrom_cons_of_ok (Pass.run_fold script.module)]
    refine hlast _ ?_ _
    split_ifs <;> rfl

theorem run_runStage_codegen (entryPoints : List String) (machine : Machine) (script : Script) :
    (withoutPasses (runStage (m := m) (.script entryPoints) machine .codegen)).run.run script =
      pure (script.generate machine) := by
  have hquiet (moment : Moment) (w : Workpiece m) :
      (callHook (.script entryPoints) machine ⟨.codegen, moment⟩).run.run w = pure (.ok (), w) := by
    cases moment <;> exact run_callHook_of_ok _ _ _ rfl
  unfold Script.generate
  split_ifs with hfile
  · let passes : List (Pass m) :=
      (if machine.optLevel = .o0 then [] else [.fold]) ++ [machine.emitter]
    let script' : Script := { script with module := script.final machine }
    have hadd : (addPasses machine .codegen).run.run { script } =
        pure (.ok (), (⟨script, passes⟩ : Workpiece m)) :=
      run_addPasses_of_ok (if_pos hfile)
    obtain ⟨result, hrun, houtput⟩ := run_codegenPasses (m := m) machine script
    have hexecute := run_execute (w := ⟨script, passes⟩) .codegen hrun
    refine run_withoutPasses (w := ⟨script', passes⟩) ?_
    rw [runStage, run_run_bind_of_ok (hquiet .beforeAdd _), run_run_bind_of_ok hadd,
      run_run_bind_of_ok (hquiet .afterAdd _), run_run_bind_of_ok (hquiet .beforeExecute _),
      ← houtput]
    rcases result with e | summary
    · rw [run_run_bind_of_error hexecute]
      rfl
    · rw [run_run_bind_of_ok hexecute, run_run_bind_of_ok (hquiet .afterExecute _)]
      rfl
  · have hfail : (addPasses machine .codegen).run.run { script } =
        pure (.error .badFileType, ({ script } : Workpiece m)) := by
      simp only [addPasses, Machine.stagePasses, Machine.codegenPasses, if_neg hfile]
      rfl
    refine run_withoutPasses (w := { script }) ?_
    rw [runStage, run_run_bind_of_ok (hquiet .beforeAdd _), run_run_bind_of_error hfail]

/-! ### A whole compilation -/

/-- After its checks, a compilation builds the module and hands the artifact to the sink. -/
theorem run_build (c : Compiler) (entryPoints : List String) (machine : Machine) (sink : Sink m)
    (script : Script) :
    (do
      if c.lto then
        let _ ← withoutPasses (runStage (.script entryPoints) machine .lto)
      let artifact ← withoutPasses (runStage (.script entryPoints) machine .codegen)
      ExceptT.adapt (fun _ => .writeSink) ((sink.write artifact).run : StateT Script m _) :
        Compiling Script m Unit).run.run script =
      match script.build entryPoints machine c.lto with
      | (.error e, script) => pure (.error e, script)
      | (.ok artifact, script) =>
        (fun result => (result.mapError fun _ => .writeSink, script)) <$>
          (sink.write artifact).run := by
  have hcodegen (script : Script) : (do
      let artifact ← withoutPasses (runStage (.script entryPoints) machine .codegen)
      ExceptT.adapt (fun _ => .writeSink) ((sink.write artifact).run : StateT Script m _) :
        Compiling Script m Unit).run.run script =
      match script.generate machine with
      | (.error e, script) => pure (.error e, script)
      | (.ok artifact, script) =>
        (fun result => (result.mapError fun _ => .writeSink, script)) <$>
          (sink.write artifact).run := by
    have hrun := run_runStage_codegen (m := m) entryPoints machine script
    rcases hg : script.generate machine with ⟨e | artifact, script'⟩ <;> rw [hg] at hrun
    · rw [run_run_bind_of_error hrun]
    · rw [run_run_bind_of_ok hrun, run_run_adapt_lift]
  unfold Script.build
  split_ifs with hlto
  · have hrun := run_runStage_lto (m := m) entryPoints machine script
    rcases ho : script.optimize entryPoints machine with ⟨e | artifact, script'⟩ <;> rw [ho] at hrun
    · rw [run_run_bind_of_error hrun]
    · rw [run_run_bind_of_ok hrun]
      exact hcodegen script'
  · exact hcodegen script

/-- Between the calls of its sink, a compilation under the hooks for scripts checks the module and
builds it. -/
theorem run_compile (c : Compiler) (entryPoints : List String) (sink : Sink m) (script : Script) :
    (c.compile (.script entryPoints) sink).run.run script =
      match c.machine with
      | none => pure (.error .noMachine, script)
      | some machine => (do
        if (← sink.state).isOpen then
          match ← sink.prepare.run with
          | .error _ => pure (.error .prepareSink, script)
          | .ok () =>
            match script.module.verify with
            | .error _ => pure (.error .badModule, script)
            | .ok () =>
              match script.build entryPoints machine c.lto with
              | (.error e, script) => pure (.error e, script)
              | (.ok artifact, script) =>
                (fun result => (result.mapError fun _ => .writeSink, script)) <$>
                  (sink.write artifact).run
        else pure (.error .usedSink, script)) := by
  rw [compile, prepare]
  rcases c.machine with _ | machine
  · exact run_run_bind_of_error rfl _
  · simp only [bind_assoc, run_run_bind_liftM]
    refine bind_congr fun st => ?_
    by_cases hopen : st.isOpen = true
    · simp only [hopen, if_true]
      rw [bind_assoc, run_run_bind_adapt_lift]
      refine bind_congr fun r => ?_
      rcases r with e | ⟨⟩
      · rfl
      · simp only
        rw [bind_assoc, run_run_bind_of_ok (run_run_get script)]
        rcases script.module.verify with e | ⟨⟩
        · exact run_run_bind_of_error rfl _
        · exact (run_run_bind_of_ok (a := machine) rfl _).trans
            (run_build c entryPoints machine sink script)
    · simp only [hopen]
      exact run_run_bind_of_error rfl _

end Compiler

end ComputeScript
