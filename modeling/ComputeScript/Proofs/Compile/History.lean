import ComputeScript.Proofs.Compile.Events
import ComputeScript.Proofs.Compile.Stages

/-!
# The history of a compilation

Whatever its hooks, the passes that they add and its sink do, a compilation comes to what its events
come to (`run_compile_eq_outcome`).  So it has a history: `IsHistory` says of records that they tell
what happened, in the one order of events, up to the first failure, whose error is the result; and
`compile_follows_order` says that every compilation has such records, unless it has no machine, and
then nothing happens at all.  A history also tells where a type of file is refused, which is between
the first two hooks of code generation (`IsHistory.events_of_badFileType`,
`IsHistory.result_eq_badFileType_iff`).
-/

namespace ComputeScript

open Event

/-! ### What the events compute -/

section

variable {ω σ ε α β : Type}

theorem run_run_run_bind (act : ExceptT ε (StateT σ (StateM ω)) α)
    (f : α → ExceptT ε (StateT σ (StateM ω)) β) (s : σ) (w : ω) :
    ((act >>= f).run.run s).run w =
      match (act.run.run s).run w with
      | ((.ok a, s), w) => ((f a).run.run s).run w
      | ((.error e, s), w) => ((.error e, s), w) := by
  rw [ExceptT.run_bind, StateT.run_bind, StateT.run_bind]
  change (match (act.run.run s).run w with | (p, w) => _) = _
  rcases (act.run.run s).run w with ⟨⟨error | a, s⟩, w⟩ <;> rfl

theorem run_run_run_liftM (act : StateM ω α) (s : σ) (w : ω) :
    ((liftM act : ExceptT ε (StateT σ (StateM ω)) α).run.run s).run w =
      ((.ok (act.run w).1, s), (act.run w).2) :=
  rfl

theorem run_run_run_adapt_lift {ε' : Type} (f : ε' → ε) (act : StateM ω (Except ε' α)) (s : σ)
    (w : ω) :
    ((ExceptT.adapt (m := StateT σ (StateM ω)) f
      (liftM act : StateT σ (StateM ω) (Except ε' α))).run.run s).run w =
        (((act.run w).1.mapError f, s), (act.run w).2) :=
  rfl

/-- What a step of a stage comes to in a situation, and the situation after it. -/
def Situation.run (x : Situation ω) (act : Compiling (Workpiece (StateM ω)) (StateM ω) α) :
    Except CompileError α × Situation ω :=
  let ((result, w), world) :=
    (act.run.run { script := x.script, passes := x.passes }).run x.world
  (result, ⟨w.script, w.passes, world⟩)

theorem Situation.run_get (x : Situation ω) :
    x.run get = (.ok { script := x.script, passes := x.passes }, x) :=
  rfl

theorem Situation.run_liftM (x : Situation ω) (act : StateM ω α) :
    x.run (liftM act) = (.ok (act.run x.world).1, { x with world := (act.run x.world).2 }) :=
  rfl

theorem Situation.run_bind (x : Situation ω)
    (act : Compiling (Workpiece (StateM ω)) (StateM ω) α)
    (f : α → Compiling (Workpiece (StateM ω)) (StateM ω) β) :
    x.run (act >>= f) =
      match x.run act with
      | (.ok a, y) => y.run (f a)
      | (.error e, y) => (.error e, y) := by
  unfold Situation.run
  rw [run_run_run_bind]
  rcases (act.run.run { script := x.script, passes := x.passes }).run x.world with
    ⟨⟨error | a, w⟩, world⟩ <;> rfl

end

section

variable {ω : Type} (hooks : Hooks (StateM ω)) (machine : Machine) (sink : Sink (StateM ω))
  (x : Situation ω)

theorem run_callHook_bind (point : HookPoint) (h : point.moment = .beforeAdd → x.passes = [])
    (rest : Unit → Compiling (Workpiece (StateM ω)) (StateM ω) Bytes) :
    x.run (Compiler.callHook hooks machine point >>= rest) =
      andThen ((Event.hook point).perform hooks machine sink x) fun y => y.run (rest ()) := by
  have hpasses : (if point.moment = .beforeAdd then [] else x.passes) = x.passes := by
    split_ifs with hmoment
    · exact (h hmoment).symm
    · rfl
  have hrun : x.run (Compiler.callHook hooks machine point) =
      let p := ((hooks.call point machine).run.run
        { script := x.script, passes := x.passes }).run x.world
      (p.1.1.mapError fun _ => .hook point, ⟨p.1.2.script, p.1.2.passes, p.2⟩) := rfl
  rw [Situation.run_bind, hrun]
  simp only [Event.perform, hpasses]
  rcases ((hooks.call point machine).run.run { script := x.script, passes := x.passes }).run x.world
    with ⟨⟨error | ⟨⟩, w⟩, world⟩
  · rfl
  · exact (andThen_ok_nil _ _).symm

theorem run_addPasses_bind (stage : Stage)
    (rest : Unit → Compiling (Workpiece (StateM ω)) (StateM ω) Bytes) :
    x.run (Compiler.addPasses machine stage >>= rest) =
      andThen ((Event.add stage).perform hooks machine sink x) fun y => y.run (rest ()) := by
  rw [Situation.run_bind, Compiler.addPasses, Event.perform]
  rcases machine.stagePasses (m := StateM ω) stage with error | passes
  · rfl
  · exact (andThen_ok_nil _ _).symm

/-- Passes run in the order in which they were collected. -/
theorem outcome_passes (stage : Stage) (summary : Summary) {before after : List (Pass (StateM ω))}
    (h : x.passes = before ++ after) :
    let ((result, module), world) :=
      ((Pass.runFrom summary after).run.run x.script.module).run x.world
    let p := outcome hooks machine sink
      ((List.range' before.length after.length).map (Event.pass stage)) x
    p.1.map (summary.output ++ ·) =
        (result.mapError fun _ => .passes stage).map Summary.output ∧
      p.2 = { x with script := { x.script with module }, world } := by
  induction after generalizing before summary x with
  | nil =>
    refine ⟨?_, rfl⟩
    exact congrArg Except.ok (List.append_nil summary.output)
  | cons pass after ih =>
    have hget : x.passes[before.length]? = some pass := by
      rw [h, List.getElem?_append_right (Nat.le_refl _), Nat.sub_self, List.getElem?_cons_zero]
    rw [Pass.runFrom, run_run_run_bind, List.length_cons, List.range'_succ, List.map_cons, outcome,
      Event.perform_pass hooks machine sink hget]
    rcases (pass.run.run.run x.script.module).run x.world with ⟨⟨error | o, module⟩, world⟩
    · exact ⟨rfl, rfl⟩
    have hpasses : x.passes = (before ++ [pass]) ++ after := by
      rw [h, List.append_assoc, List.singleton_append]
    have hrest := ih { x with script := { x.script with module }, world } (summary.add o) hpasses
    rw [List.length_append, List.length_singleton] at hrest
    have hadd : (summary.add o).output = summary.output ++ o.output := by
      cases o with
      | emitted bytes => rfl
      | _ => exact (List.append_nil _).symm
    rw [hadd] at hrest
    obtain ⟨hresult, hafter⟩ := hrest
    refine ⟨?_, hafter⟩
    rw [← hresult]
    simp only [andThen, Except.mapError, Except.map]
    rcases (outcome hooks machine sink _ _).1 with error | bytes
    · rfl
    · exact congrArg Except.ok (List.append_assoc summary.output o.output bytes).symm

theorem outcome_passes_eq_run_execute (stage : Stage) :
    outcome hooks machine sink ((List.range x.passes.length).map (Event.pass stage)) x =
      ((x.run (Compiler.execute stage)).1.map Summary.output,
        (x.run (Compiler.execute stage)).2) := by
  have hpasses := outcome_passes hooks machine sink x stage {} (List.nil_append x.passes).symm
  have hrun : x.run (Compiler.execute stage) =
      let ((result, module), world) :=
        ((Pass.runFrom {} x.passes).run.run x.script.module).run x.world
      (result.mapError fun _ => .passes stage,
        { x with script := { x.script with module }, world }) := by
    rw [Compiler.execute, Situation.run_bind, Situation.run_get]
    simp only []
    rw [Situation.run_bind, Situation.run_liftM, Pass.runAll]
    rcases ((Pass.runFrom {} x.passes).run.run x.script.module).run x.world with
      ⟨⟨error | summary, module⟩, world⟩ <;> rfl
  rw [hrun, List.range_eq_range']
  revert hpasses
  rcases ((Pass.runFrom {} x.passes).run.run x.script.module).run x.world with
    ⟨⟨result, module⟩, world⟩
  rintro ⟨hresult, hafter⟩
  refine Prod.ext ((Eq.trans ?_ hresult)) hafter
  rcases (outcome hooks machine sink _ x).1 with error | bytes <;> rfl

/-- A stage is a series of events, as many passes being executed as it has collected. -/
theorem run_runStage_eq_outcome (stage : Stage) (h : x.passes = []) :
    x.run (Compiler.runStage hooks machine stage) =
      outcome hooks machine sink (Event.ofStage stage
        (outcome hooks machine sink (Event.collecting stage) x).2.passes.length) x := by
  have hexecuting (y : Situation ω) : y.run (do
      let summary ← Compiler.execute stage
      Compiler.callHook hooks machine ⟨stage, .afterExecute⟩
      return summary.output) =
        outcome hooks machine sink (Event.executing stage y.passes.length) y := by
    rw [Situation.run_bind, Event.executing, outcome_append, outcome_passes_eq_run_execute]
    rcases y.run (Compiler.execute stage) with ⟨error | summary, z⟩
    · rfl
    · simp only []
      rw [run_callHook_bind hooks machine sink z ⟨stage, .afterExecute⟩ (fun h => by cases h)]
      rcases hhook : (Event.hook ⟨stage, .afterExecute⟩).perform hooks machine sink z with
        ⟨error | bytes, z'⟩
      · simp only [andThen, Except.map, outcome, hhook]
      · cases Event.perform_hook_of_ok hooks machine sink hhook
        simp only [andThen, Except.map, outcome, hhook]
        exact Prod.ext (congrArg Except.ok (List.append_nil _).symm) rfl
  have hadd : x.run (Compiler.runStage hooks machine stage) =
      andThen (outcome hooks machine sink (Event.collecting stage) x) fun y =>
        outcome hooks machine sink (Event.executing stage y.passes.length) y := by
    simp only [← hexecuting]
    rw [Compiler.runStage, run_callHook_bind hooks machine sink x _ fun _ => h]
    simp only [run_addPasses_bind hooks machine sink, run_callHook_bind hooks machine sink,
      reduceCtorEq, false_implies, Event.collecting, outcome, andThen_assoc, andThen_ok_nil]
  rw [hadd, Event.ofStage, outcome_append]
  rcases outcome hooks machine sink (Event.collecting stage) x with ⟨error | bytes, y⟩ <;> rfl

theorem run_withoutPasses_eq_outcome (stage : Stage) :
    ((Compiler.withoutPasses (Compiler.runStage hooks machine stage)).run.run
      x.script).run x.world =
      let p := outcome hooks machine sink (Event.ofStage stage
        (outcome hooks machine sink (Event.collecting stage) x).2.passes.length) x
      ((p.1, p.2.script), p.2.world) := by
  -- the first event of a stage forgets the passes of the one before
  have hfresh := run_runStage_eq_outcome hooks machine sink { x with passes := [] } stage rfl
  have hrun : ((Compiler.withoutPasses (Compiler.runStage hooks machine stage)).run.run
      x.script).run x.world =
        let p := Situation.run { x with passes := [] } (Compiler.runStage hooks machine stage)
        ((p.1, p.2.script), p.2.world) :=
    rfl
  rw [hrun, hfresh]
  rfl

/-- What events come to, without what they emit. -/
def settle (p : Except CompileError Bytes × Situation ω) :
    (Except CompileError Unit × Script) × ω :=
  ((p.1.map fun _ => (), p.2.script), p.2.world)

theorem settle_andThen (p : Except CompileError Bytes × Situation ω)
    (f : Situation ω → Except CompileError Bytes × Situation ω) :
    settle (andThen p f) =
      match p with
      | (.ok _, y) => settle (f y)
      | (.error e, y) => settle (.error e, y) := by
  rcases p with ⟨error | bytes, y⟩
  · rfl
  · rcases hf : f y with ⟨error | more, z⟩ <;> simp only [settle, andThen, hf, Except.map]

theorem run_codegen_and_write (stage : Stage) (count : Nat) (artifact : Bytes)
    (hcount : count = (outcome hooks machine sink (Event.collecting stage) x).2.passes.length)
    (hartifact : ∀ bytes y, outcome hooks machine sink (Event.ofStage stage count) x =
      (.ok bytes, y) → artifact = bytes) :
    ((do
      let artifact ← Compiler.withoutPasses (Compiler.runStage hooks machine stage)
      ExceptT.adapt (fun _ => .writeSink) ((sink.write artifact).run : StateT Script (StateM ω) _) :
        Compiling Script (StateM ω) Unit).run.run x.script).run x.world =
      settle (outcome hooks machine sink (Event.ofStage stage count ++ [.write artifact]) x) := by
  rw [run_run_run_bind, run_withoutPasses_eq_outcome hooks machine sink x stage, ← hcount,
    outcome_append, settle_andThen]
  rcases hp : outcome hooks machine sink (Event.ofStage stage count) x with ⟨error | bytes, y⟩
  · rfl
  · rw [hartifact bytes y hp]
    simp only [outcome, Event.perform, run_run_adapt_lift, StateT.run_map]
    rcases (sink.write bytes).run.run y.world with ⟨error | ⟨⟩, world⟩ <;> rfl

/-- Before the stages, a compilation asks for the state of the sink, prepares it and verifies the
module. -/
theorem run_prepare {c : Compiler} (hmachine : c.machine = some machine) :
    ((c.prepare sink).run.run x.script).run x.world =
      let p := outcome hooks machine sink Event.opening x
      ((p.1.map fun _ => machine, p.2.script), p.2.world) := by
  rw [Compiler.prepare, hmachine]
  simp only [Event.opening, outcome, Event.perform]
  rw [run_run_run_bind, run_run_run_liftM]
  rcases sink.state.run x.world with ⟨st, w₁⟩
  by_cases hopen : st.isOpen = true
  · simp only [hopen, if_true, run_run_run_bind, run_run_run_adapt_lift, andThen_ok_nil]
    rcases sink.prepare.run.run w₁ with ⟨error | ⟨⟩, w₂⟩
    · rfl
    · have hget : ((get : Compiling Script (StateM ω) Script).run.run x.script).run w₂ =
          ((.ok x.script, x.script), w₂) := rfl
      simp only [Except.mapError, Except.map, andThen, hget]
      rcases x.script.module.verify with defect | ⟨⟩ <;> rfl
  · simp only [hopen]
    rfl

/-- A compilation comes to what its events come to. -/
theorem run_compile_eq_outcome (c : Compiler) (hmachine : c.machine = some machine)
    {count : Stage → Nat} {artifact : Bytes}
    (hcount : ∀ stage, count stage = (outcome hooks machine sink
      (Event.beforeExecution c.lto count stage) x).2.passes.length)
    (hartifact : ∀ bytes y bytes' z, outcome hooks machine sink
      (Event.beforeCodegen c.lto count) x = (.ok bytes, y) →
        outcome hooks machine sink (Event.ofStage .codegen (count .codegen)) y = (.ok bytes', z) →
          artifact = bytes') :
    ((c.compile hooks sink).run.run x.script).run x.world =
      settle (outcome hooks machine sink (Event.order c.lto count artifact) x) := by
  -- once the events before code generation are done, the rest goes on from where they led
  have htail {bytes : Bytes} {y : Situation ω} (hy : outcome hooks machine sink
      (Event.beforeCodegen c.lto count) x = (.ok bytes, y)) :=
    run_codegen_and_write hooks machine sink y .codegen (count .codegen) artifact
      (by rw [hcount .codegen, Event.beforeExecution, outcome_append, hy]; rfl)
      (fun bytes' z hz => hartifact bytes y bytes' z hy hz)
  rw [Event.order, outcome_append, settle_andThen, Compiler.compile, run_run_run_bind,
    run_prepare hooks machine sink x hmachine]
  rcases ho : outcome hooks machine sink Event.opening x with ⟨error | bytes, y⟩
  · have hbefore : outcome hooks machine sink (Event.beforeCodegen c.lto count) x =
        (.error error, y) := by
      rw [Event.beforeCodegen, outcome_append, ho]
      rfl
    rw [hbefore]
    rfl
  by_cases hlto : c.lto = true
  · have hbefore : outcome hooks machine sink (Event.beforeCodegen c.lto count) x =
        andThen (.ok bytes, y) (outcome hooks machine sink (Event.ofStage .lto (count .lto))) := by
      rw [Event.beforeCodegen, if_pos hlto, outcome_append, ho]
    have hcollected : (outcome hooks machine sink (Event.collecting .lto) y).2.passes.length =
        count .lto := by
      rw [hcount .lto, Event.beforeExecution, outcome_append, ho]
      rfl
    simp only [Except.map, hlto, if_true]
    rw [run_run_run_bind, run_withoutPasses_eq_outcome hooks machine sink y, hcollected, ← hlto]
    rcases hs : outcome hooks machine sink (Event.ofStage .lto (count .lto)) y with
      ⟨error | more, z⟩ <;> simp only [andThen, hs, Except.map] at hbefore <;> rw [hbefore]
    · rfl
    · exact htail hbefore
  · have hbefore : outcome hooks machine sink (Event.beforeCodegen c.lto count) x =
        (.ok bytes, y) := by
      rw [Event.beforeCodegen, if_neg hlto, List.append_nil, ho]
    rw [hbefore]
    simp only [Except.map, hlto]
    exact htail hbefore

end

/-! ### The history of a compilation -/

section

variable {ω : Type} (hooks : Hooks (StateM ω)) (machine : Machine) (sink : Sink (StateM ω))

/-- `records` tell what happened in a compilation that began with `script` in the world `w`, came to
`result`, and left `script'` in the world `w'`. -/
structure IsHistory (lto : Bool) (script : Script) (w : ω) (count : Stage → Nat) (artifact : Bytes)
    (records : List (Record ω)) (result : Except CompileError Unit) (script' : Script) (w' : ω) :
    Prop where
  recorded : Recorded hooks machine sink { script, world := w } records
  ordered : records.map Record.event <+: Event.order lto count artifact
  /-- a stage executes the passes that it has collected when its last hook before that is done -/
  collected : ∀ r ∈ records, ∀ stage, r.event = .hook ⟨stage, .beforeExecute⟩ → r.result.isOk →
    count stage = r.after.passes.length
  /-- nothing but the last event fails or writes -/
  unbroken : ∀ r ∈ records.dropLast, r.result.isOk ∧ ∀ bytes, r.event ≠ .write bytes
  written : ∀ r ∈ records, ∀ bytes, r.event = .write bytes → bytes = emitted .codegen records
  last : ∃ r, records.getLast? = some r ∧ r.result.map (fun _ => ()) = result ∧
    r.after.script = script' ∧ r.after.world = w'
  complete : result = .ok () ↔
    records.map Record.event = Event.order lto count artifact ∧ ∀ r ∈ records, r.result.isOk
  skipped : lto = false → ∀ r ∈ records, r.event.stage? ≠ some .lto

end

section

variable {ω : Type} {hooks : Hooks (StateM ω)} {machine : Machine} {sink : Sink (StateM ω)}

/-- What code generation emitted, if it succeeded. -/
theorem emitted_history_order {lto : Bool} {count : Stage → Nat} {artifact first second : Bytes}
    {x y z : Situation ω}
    (hbefore : outcome hooks machine sink (Event.beforeCodegen lto count) x = (.ok first, y))
    (hstage : outcome hooks machine sink (Event.ofStage .codegen (count .codegen)) y =
      (.ok second, z)) :
    emitted .codegen (history hooks machine sink (Event.order lto count artifact) x) = second := by
  have hwrite : ∀ r ∈ history hooks machine sink [.write artifact] z,
      r.event.stage? ≠ some .codegen := by
    intro r hr
    rw [List.mem_singleton.1 (event_mem_of_mem_history hr)]
    exact (Option.some_ne_none _).symm
  simp only [Event.order, history_append, hbefore, hstage, emitted_append]
  rw [emitted_of_forall_ne fun r hr =>
      (Event.stage?_of_mem_beforeCodegen (event_mem_of_mem_history hr)).1,
    emitted_of_forall_eq fun r hr => Event.stage?_of_mem_ofStage (event_mem_of_mem_history hr),
    emitted_of_forall_ne hwrite, (history_of_outcome hstage).2.2, List.nil_append, List.append_nil]

/-- The records of the events of a compilation are its history. -/
theorem isHistory_history {lto : Bool} {script : Script} {w : ω} {count : Stage → Nat}
    {artifact : Bytes}
    (hcount : ∀ stage, count stage = (outcome hooks machine sink
      (Event.beforeExecution lto count stage) { script, world := w }).2.passes.length)
    (hartifact : ∀ bytes y bytes' z, outcome hooks machine sink
      (Event.beforeCodegen lto count) { script, world := w } = (.ok bytes, y) →
        outcome hooks machine sink (Event.ofStage .codegen (count .codegen)) y = (.ok bytes', z) →
          artifact = bytes') :
    let p := outcome hooks machine sink (Event.order lto count artifact) { script, world := w }
    IsHistory hooks machine sink lto script w count artifact
      (history hooks machine sink (Event.order lto count artifact) { script, world := w })
      (p.1.map fun _ => ()) p.2.script p.2.world := by
  have horder : (history hooks machine sink (Event.order lto count artifact)
      { script, world := w }).map Record.event <+: Event.order lto count artifact :=
    isPrefix_history _ _
  refine ⟨recorded_history _ _, horder, ?collected, ?unbroken, ?written, ?last, ?complete, ?skipped⟩
  case collected =>
    intro r hr stage he hok
    obtain ⟨es, fs, heq, hes, hfs, hbefore⟩ :=
      Event.exists_order_eq (he ▸ event_mem_of_mem_history hr)
    rw [heq] at hr
    rw [after_of_mem_history hes hfs hr he hok, hbefore]
    exact hcount stage
  case unbroken =>
    intro r hr
    refine ⟨isOk_of_mem_dropLast_history _ _ r hr, fun bytes he => ?_⟩
    have hmem := List.mem_map_of_mem (f := Record.event) hr
    rw [List.map_dropLast, he] at hmem
    exact Event.write_notMem_dropLast horder bytes hmem
  case written =>
    intro r hr bytes he
    obtain ⟨first, y, hbefore, hrest⟩ :=
      exists_outcome_of_mem_history hr (he ▸ Event.write_notMem_beforeCodegen bytes)
    obtain ⟨second, z, hstage, -⟩ :=
      exists_outcome_of_mem_history hrest (he ▸ Event.write_notMem_ofStage bytes)
    rw [emitted_history_order hbefore hstage, ← hartifact first y second z hbefore hstage]
    exact Event.eq_of_write_mem_order (he ▸ event_mem_of_mem_history hr)
  case last =>
    have hne : Event.order lto count artifact ≠ [] := by simp [Event.order]
    obtain ⟨r, hr, hresult, hafter⟩ :=
      @exists_getLast?_history _ hooks machine sink _ hne { script, world := w }
    exact ⟨r, hr, hresult.symm, congrArg Situation.script hafter.symm,
      congrArg Situation.world hafter.symm⟩
  case complete =>
    constructor
    · intro hresult
      rcases ho : outcome hooks machine sink (Event.order lto count artifact)
        { script, world := w } with ⟨error | bytes, y⟩
      · rw [ho] at hresult
        cases hresult
      · obtain ⟨hevents, hok, -⟩ := history_of_outcome ho
        exact ⟨hevents, hok⟩
    · rintro ⟨-, hok⟩
      have hall := isOk_outcome_of_history hok
      revert hall
      rcases (outcome hooks machine sink _ _).1 with error | bytes
      · exact fun hall => absurd hall Bool.false_ne_true
      · exact fun _ => rfl
  case skipped =>
    rintro rfl r hr
    exact Event.stage?_ne_lto_of_mem_order (event_mem_of_mem_history hr)

/-- A compilation with a machine has a history. -/
theorem exists_isHistory (c : Compiler) (hmachine : c.machine = some machine) (script : Script)
    (w : ω) :
    let ((result, script'), w') := ((c.compile hooks sink).run.run script).run w
    ∃ count artifact records,
      IsHistory hooks machine sink c.lto script w count artifact records result script' w' := by
  let start : Situation ω := { script, world := w }
  let collected (es : List Event) : Nat := (outcome hooks machine sink es start).2.passes.length
  let ltoCount := collected (opening ++ collecting .lto)
  let count (stage : Stage) : Nat := if stage = .lto then ltoCount else
    collected (beforeCodegen c.lto (fun _ => ltoCount) ++ collecting .codegen)
  have hcount (stage : Stage) : count stage = collected (beforeExecution c.lto count stage) := by
    cases stage <;> rfl
  obtain ⟨artifact, hartifact⟩ : ∃ artifact, ∀ bytes y bytes' z,
      outcome hooks machine sink (beforeCodegen c.lto count) start = (.ok bytes, y) →
        outcome hooks machine sink (ofStage .codegen (count .codegen)) y = (.ok bytes', z) →
          artifact = bytes' := by
    rcases hb : outcome hooks machine sink (beforeCodegen c.lto count) start with ⟨error | bytes, y⟩
    · exact ⟨[], fun _ _ _ _ h => by cases h⟩
    rcases hs : outcome hooks machine sink (ofStage .codegen (count .codegen)) y with
      ⟨error | bytes', z⟩
    · refine ⟨[], ?_⟩
      rintro _ _ _ _ ⟨rfl, rfl⟩ h
      rw [hs] at h
      cases h
    · refine ⟨bytes', ?_⟩
      rintro _ _ _ _ ⟨rfl, rfl⟩ h
      rw [hs] at h
      cases h
      rfl
  rw [run_compile_eq_outcome hooks machine sink start c hmachine hcount hartifact]
  exact ⟨count, artifact, _, isHistory_history hcount hartifact⟩

end

namespace IsHistory

variable {ω : Type} {hooks : Hooks (StateM ω)} {machine : Machine} {sink : Sink (StateM ω)}
  {lto : Bool} {script script' : Script} {w w' : ω} {count : Stage → Nat} {artifact : Bytes}
  {records : List (Record ω)} {result : Except CompileError Unit}

/-- Where a compilation succeeds, the last thing that happens is the write of its artifact. -/
theorem event_of_ok
    (h : IsHistory hooks machine sink lto script w count artifact records result script' w')
    (hresult : result = .ok ()) {r : Record ω} (hlast : records.getLast? = some r) :
    r.event = .write artifact := by
  obtain ⟨hevents, -⟩ := h.complete.1 hresult
  have hmap := congrArg List.getLast? hevents
  rw [List.getLast?_map, hlast, Event.order, ← List.append_assoc, List.getLast?_concat] at hmap
  exact Option.some.inj hmap

/-- Where a compilation fails, the last thing that happens is an event that fails, with its own
error. -/
theorem exists_concat_of_error
    (h : IsHistory hooks machine sink lto script w count artifact records result script' w')
    {error : CompileError} (hresult : result = .error error) :
    ∃ init r x, records = init ++ [r] ∧ (r.event.perform hooks machine sink x).1 = .error error ∧
      r.event.fault = error := by
  obtain ⟨r, hlast, hr, -⟩ := h.last
  obtain ⟨init, rfl⟩ := List.getLast?_eq_some_iff.1 hlast
  obtain ⟨x, hperform⟩ := h.recorded.exists_perform (List.mem_append_right _ List.mem_cons_self)
  have herror : (r.event.perform hooks machine sink x).1 = .error error := by
    rw [hperform]
    rw [hresult] at hr
    revert hr
    cases r.result with
    | error e => exact fun hr => congrArg _ (Except.error.inj hr)
    | ok bytes => exact nofun
  exact ⟨init, r, x, rfl, herror, (error_eq_fault _ _ _ herror).symm⟩

/-- An event that fails is the last one, and its error is the result. -/
theorem result_of_error
    (h : IsHistory hooks machine sink lto script w count artifact records result script' w')
    {r : Record ω} (hr : r ∈ records) {error : CompileError} (herror : r.result = .error error) :
    result = .error error := by
  obtain ⟨last, hlast, hresult, -⟩ := h.last
  obtain ⟨init, rfl⟩ := List.getLast?_eq_some_iff.1 hlast
  rcases List.mem_append.1 hr with hr | hr
  · have hok := (h.unbroken r (by rwa [List.dropLast_concat])).1
    rw [herror] at hok
    cases hok
  · obtain rfl := List.mem_singleton.1 hr
    rw [← hresult, herror]
    rfl

/-- An event that succeeds is followed by the next one. -/
theorem exists_next
    (h : IsHistory hooks machine sink lto script w count artifact records result script' w')
    {e next : Event} {es fs : List Event}
    (horder : order lto count artifact = es ++ e :: next :: fs) (hes : e ∉ es)
    (hfs : e ∉ next :: fs) {r : Record ω} (hr : r ∈ records) (he : r.event = e)
    (hok : r.result.isOk) : ∃ r' ∈ records, r'.event = next := by
  obtain ⟨init, rest, rfl⟩ := List.append_of_mem hr
  rcases rest with _ | ⟨r', rest⟩
  · -- then this was the last event, all succeeded, and the next one was to come
    obtain ⟨last, hlast, hresult, -⟩ := h.last
    obtain rfl : r = last := Option.some.inj ((List.getLast?_concat ..).symm.trans hlast)
    have hresult' : result = .ok () := by
      rw [← hresult]
      revert hok
      cases r.result with
      | error e => exact nofun
      | ok bytes => exact fun _ => rfl
    obtain ⟨hevents, -⟩ := h.complete.1 hresult'
    rw [horder, List.map_append, List.map_cons, he] at hevents
    obtain ⟨-, -, hnil⟩ := (List.append_cons_inj_of_notMem hes hfs).1 hevents.symm
    cases hnil
  · have hordered := h.ordered
    rw [horder, List.map_append, List.map_cons, he] at hordered
    obtain ⟨-, hrest⟩ := eq_and_prefix_of_prefix hordered hes hfs
    exact ⟨r', by simp, (List.cons_prefix_cons.1 hrest).1⟩

/-- When a type of file is refused, the passes of code generation were just to be added.  The hook
before that was called, and the hook after it never is. -/
theorem events_of_badFileType
    (h : IsHistory hooks machine sink lto script w count artifact records result script' w')
    (hresult : result = .error .badFileType) :
    machine.arch.fileTypes.contains machine.fileType = false ∧
      records.map Record.event =
        beforeCodegen lto count ++ [hook ⟨.codegen, .beforeAdd⟩, add .codegen] := by
  obtain ⟨init, r, x, rfl, herror, hfault⟩ := h.exists_concat_of_error hresult
  obtain ⟨stage, he⟩ : ∃ stage, r.event = add stage := by
    cases he : r.event with
    | add stage => exact ⟨stage, rfl⟩
    | _ => rw [he] at hfault; cases hfault
  rw [he] at herror
  obtain ⟨rfl, htype, -⟩ := (perform_add_eq_error_iff ..).1 herror
  obtain ⟨fs, horder, -, hadd⟩ := exists_order_eq_codegen lto count artifact
  rw [List.mem_append, not_or] at hadd
  have hordered := h.ordered
  rw [List.map_append, List.map_singleton, he] at hordered
  rw [horder, List.append_cons (beforeCodegen lto count)] at hordered
  obtain ⟨hinit, -⟩ := eq_and_prefix_of_prefix hordered (by simp [hadd.1]) hadd.2
  refine ⟨htype, ?_⟩
  rw [List.map_append, List.map_singleton, he, hinit, List.append_assoc]
  rfl

/-- A type of file is refused just if the target cannot emit it and the first hook of code
generation succeeds. -/
theorem result_eq_badFileType_iff
    (h : IsHistory hooks machine sink lto script w count artifact records result script' w') :
    result = .error .badFileType ↔
      machine.arch.fileTypes.contains machine.fileType = false ∧
        ∃ r ∈ records, r.event = hook ⟨.codegen, .beforeAdd⟩ ∧ r.result.isOk := by
  constructor
  · intro hresult
    obtain ⟨htype, hevents⟩ := h.events_of_badFileType hresult
    have hmem : hook ⟨.codegen, .beforeAdd⟩ ∈ records.dropLast.map Record.event := by
      rw [List.map_dropLast, hevents, List.append_cons, List.dropLast_concat]
      simp
    obtain ⟨r, hr, he⟩ := List.mem_map.1 hmem
    exact ⟨htype, r, List.dropLast_subset _ hr, he, (h.unbroken r hr).1⟩
  · rintro ⟨htype, r, hr, he, hok⟩
    obtain ⟨fs, horder, hhook, -⟩ := exists_order_eq_codegen lto count artifact
    rw [List.mem_append, not_or] at hhook
    obtain ⟨r', hr', he'⟩ := h.exists_next horder hhook.1 (by simp [hhook.2]) hr he hok
    obtain ⟨x, hperform⟩ := h.recorded.exists_perform hr'
    refine h.result_of_error hr' ?_
    have hadd := (perform_add_eq_error_iff hooks machine sink (x := x)).2 ⟨rfl, htype, rfl⟩
    rwa [← he', hperform] at hadd

end IsHistory

namespace Compiler

/-- Compilations follow one order of events, whatever their hooks, passes and sinks do: they have a
history, which stops at the first failure, and without a machine nothing happens. -/
theorem compile_follows_order {ω : Type} (c : Compiler) (hooks : Hooks (StateM ω))
    (sink : Sink (StateM ω)) (script : Script) (w : ω) :
    let ((result, script'), w') := ((c.compile hooks sink).run.run script).run w
    match c.machine with
    | none => result = .error .noMachine ∧ script' = script ∧ w' = w
    | some machine => ∃ count artifact records,
        IsHistory hooks machine sink c.lto script w count artifact records result script' w' := by
  rcases hmachine : c.machine with _ | machine
  · rw [compile, prepare, hmachine]
    exact ⟨rfl, rfl, rfl⟩
  · exact exists_isHistory c hmachine script w

end Compiler

end ComputeScript
