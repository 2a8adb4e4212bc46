import ComputeScript.Compiler
import Mathlib.Data.List.Basic
import Mathlib.Tactic.SplitIfs

/-!
# The events of a compilation

A compilation is a sequence of events, which come in one order (`Event.order`).  `Event.perform`
says what a single event comes to and what it does to the `Situation`, which holds the script, the
passes that the stage has collected, and the world that hooks, passes and sink share; an event that
fails has an error of its own (`Event.error_eq_fault`).  Events that happen in order up to the first
failure have an outcome and leave a history, which is a list of records; the two tell the same story
(`Event.exists_getLast?_history`, `Event.history_of_outcome`).
-/

namespace ComputeScript

/-- What happens in a compilation. -/
inductive Event where
  /-- the sink is asked for its state -/
  | query
  /-- the sink is prepared -/
  | prepare
  /-- the module is verified -/
  | verify
  | hook (point : HookPoint)
  /-- the machine adds its passes to those of a stage -/
  | add (stage : Stage)
  /-- the pass that stands at an index among those of a stage runs -/
  | pass (stage : Stage) (index : Nat)
  | write (artifact : Bytes)
  deriving DecidableEq, Repr

/-- How things stand between two events. -/
structure Situation (ω : Type) where
  script : Script
  /-- the passes that the current stage has collected -/
  passes : List (Pass (StateM ω)) := []
  /-- what hooks, passes and the sink see and change -/
  world : ω

/-- The bytes that an outcome adds to the output. -/
def Outcome.output : Outcome → Bytes
  | emitted bytes => bytes
  | _ => []

namespace Event

/-- The stage to which an event belongs. -/
def stage? : Event → Option Stage
  | hook point => some point.stage
  | add stage => some stage
  | pass stage _ => some stage
  | _ => none

/-! ### Their order -/

/-- What comes before the stages. -/
def opening : List Event := [query, prepare, verify]

/-- The events of a stage up to the execution of its passes. -/
def collecting (stage : Stage) : List Event :=
  [hook ⟨stage, .beforeAdd⟩, add stage, hook ⟨stage, .afterAdd⟩, hook ⟨stage, .beforeExecute⟩]

/-- The events of a stage from the execution of its passes on, in the order in which they were
collected. -/
def executing (stage : Stage) (count : Nat) : List Event :=
  (List.range count).map (pass stage) ++ [hook ⟨stage, .afterExecute⟩]

/-- The events of a stage that executes so many passes. -/
def ofStage (stage : Stage) (count : Nat) : List Event :=
  collecting stage ++ executing stage count

/-- The events before code generation. -/
def beforeCodegen (lto : Bool) (count : Stage → Nat) : List Event :=
  opening ++ if lto then ofStage .lto (count .lto) else []

/-- The events before the passes of a stage are executed. -/
def beforeExecution (lto : Bool) (count : Stage → Nat) : Stage → List Event
  | .lto => opening ++ collecting .lto
  | .codegen => beforeCodegen lto count ++ collecting .codegen

/-- All events of a compilation, given the number of passes that each stage executes and the
artifact. -/
def order (lto : Bool) (count : Stage → Nat) (artifact : Bytes) : List Event :=
  beforeCodegen lto count ++ (ofStage .codegen (count .codegen) ++ [write artifact])

example : order false (fun _ => 2) [7] =
    [query, prepare, verify, hook ⟨.codegen, .beforeAdd⟩, add .codegen, hook ⟨.codegen, .afterAdd⟩,
      hook ⟨.codegen, .beforeExecute⟩, pass .codegen 0, pass .codegen 1,
      hook ⟨.codegen, .afterExecute⟩, write [7]] := rfl

/-! ### Single events -/

variable {ω : Type} (hooks : Hooks (StateM ω)) (machine : Machine) (sink : Sink (StateM ω))

/-- What an event comes to, with the bytes that a pass emits, and the situation after it.  A stage
begins without passes. -/
def perform (x : Situation ω) : Event → Except CompileError Bytes × Situation ω
  | query =>
    let (state, world) := sink.state.run x.world
    (if state.isOpen then .ok [] else .error .usedSink, { x with world })
  | prepare =>
    let (result, world) := sink.prepare.run.run x.world
    ((result.mapError fun _ => .prepareSink).map fun _ => [], { x with world })
  | verify => ((x.script.module.verify.mapError fun _ => .badModule).map fun _ => [], x)
  | hook point =>
    let passes := if point.moment = .beforeAdd then [] else x.passes
    let ((result, w), world) :=
      ((hooks.call point machine).run.run { script := x.script, passes }).run x.world
    ((result.mapError fun _ => .hook point).map fun _ => [], ⟨w.script, w.passes, world⟩)
  | add stage =>
    match machine.stagePasses stage with
    | .error e => (.error e, x)
    | .ok passes => (.ok [], { x with passes := x.passes ++ passes })
  | pass stage index =>
    match x.passes[index]? with
    | none => (.ok [], x)
    | some p =>
      let ((result, module), world) := (p.run.run.run x.script.module).run x.world
      ((result.mapError fun _ => .passes stage).map Outcome.output,
        { x with script := { x.script with module }, world })
  | write artifact =>
    let (result, world) := (sink.write artifact).run.run x.world
    ((result.mapError fun _ => .writeSink).map fun _ => [], { x with world })

theorem perform_pass {x : Situation ω} {index : Nat} {p : Pass (StateM ω)}
    (h : x.passes[index]? = some p) (stage : Stage) :
    (pass stage index).perform hooks machine sink x =
      let ((result, module), world) := (p.run.run.run x.script.module).run x.world
      ((result.mapError fun _ => .passes stage).map Outcome.output,
        { x with script := { x.script with module }, world }) := by
  simp only [perform, h]

/-- What happens at a hook point whose hook sees nothing of the world. -/
theorem perform_hook_of_pure {x : Situation ω} {point : HookPoint} {result : Except HookError Unit}
    {w : Workpiece (StateM ω)}
    (h : (hooks.call point machine).run.run
      ⟨x.script, if point.moment = .beforeAdd then [] else x.passes⟩ = pure (result, w)) :
    (hook point).perform hooks machine sink x =
      ((result.mapError fun _ => .hook point).map fun _ => [], ⟨w.script, w.passes, x.world⟩) := by
  simp only [perform, h]
  rfl

/-- A hook emits nothing. -/
theorem perform_hook_of_ok {x y : Situation ω} {point : HookPoint} {bytes : Bytes}
    (h : (hook point).perform hooks machine sink x = (.ok bytes, y)) : bytes = [] := by
  have hresult := congrArg Prod.fst h
  simp only [perform] at hresult
  revert hresult
  rcases ((hooks.call point machine).run.run _).run x.world with ⟨⟨error | ⟨⟩, w⟩, world⟩
  · exact nofun
  · rintro ⟨⟩
    rfl

/-- Adding passes fails in code generation only, where the target cannot emit the machine's type of
file. -/
theorem perform_add_eq_error_iff {x : Situation ω} {stage : Stage} {error : CompileError} :
    ((add stage).perform hooks machine sink x).1 = .error error ↔
      stage = .codegen ∧ machine.arch.fileTypes.contains machine.fileType = false ∧
        error = .badFileType := by
  cases stage with
  | lto => exact ⟨nofun, fun h => nomatch h.1⟩
  | codegen =>
    rw [perform, Machine.stagePasses, Machine.codegenPasses]
    cases machine.arch.fileTypes.contains machine.fileType with
    | true => exact ⟨nofun, fun h => nomatch h.2.1⟩
    | false =>
      constructor
      · rintro ⟨⟩
        exact ⟨rfl, rfl, rfl⟩
      · rintro ⟨-, -, rfl⟩
        rfl

/-- The error of an event that fails. -/
def fault : Event → CompileError
  | query => .usedSink
  | prepare => .prepareSink
  | verify => .badModule
  | hook point => .hook point
  | add _ => .badFileType
  | pass stage _ => .passes stage
  | write _ => .writeSink

theorem eq_of_map_mapError {ε α β : Type} {result : Except ε α} {fault error : CompileError}
    {f : α → β} (h : (result.mapError fun _ => fault).map f = .error error) : error = fault := by
  cases result <;> cases h
  rfl

/-- Every event fails with its own error. -/
theorem error_eq_fault {x : Situation ω} {e : Event} {error : CompileError}
    (h : (e.perform hooks machine sink x).1 = .error error) : error = e.fault := by
  cases e with
  | query =>
    change (if (sink.state.run x.world).1.isOpen then Except.ok [] else
      .error CompileError.usedSink) = _ at h
    split_ifs at h
    cases h
    rfl
  | add stage => exact ((perform_add_eq_error_iff ..).1 h).2.2
  | pass stage index =>
    rw [perform] at h
    split at h
    · cases h
    · exact eq_of_map_mapError h
  | prepare | verify | hook | write => exact eq_of_map_mapError h

end Event

/-- What is on record about an event: what it came to, and how things stood after it. -/
structure Record (ω : Type) where
  event : Event
  result : Except CompileError Bytes
  after : Situation ω

/-- The bytes that an event emitted. -/
def Record.output {ω : Type} (r : Record ω) : Bytes :=
  match r.result with
  | .ok bytes => bytes
  | .error _ => []

namespace Event

/-! ### Histories -/

/-- The bytes that the events of a stage emitted, one after the other. -/
def emitted {ω : Type} (stage : Stage) (records : List (Record ω)) : Bytes :=
  (records.filter fun r => r.event.stage? = some stage).flatMap Record.output

section

variable {ω : Type} (hooks : Hooks (StateM ω)) (machine : Machine) (sink : Sink (StateM ω))

/-- One thing and then another, which does not begin if the first one fails. -/
def andThen {ω : Type} (p : Except CompileError Bytes × Situation ω)
    (f : Situation ω → Except CompileError Bytes × Situation ω) :
    Except CompileError Bytes × Situation ω :=
  match p with
  | (.ok bytes, x) => ((f x).1.map (bytes ++ ·), (f x).2)
  | (.error e, x) => (.error e, x)

theorem andThen_ok_nil {ω : Type} (x : Situation ω)
    (f : Situation ω → Except CompileError Bytes × Situation ω) : andThen (.ok [], x) f = f x := by
  rcases h : f x with ⟨error | bytes, y⟩ <;>
    simp only [andThen, h, Except.map, List.nil_append]

theorem andThen_assoc {ω : Type} (p : Except CompileError Bytes × Situation ω)
    (f g : Situation ω → Except CompileError Bytes × Situation ω) :
    andThen (andThen p f) g = andThen p fun x => andThen (f x) g := by
  rcases p with ⟨error | first, x⟩
  · rfl
  rcases hf : f x with ⟨error | second, y⟩
  · simp only [andThen, hf, Except.map]
  · rcases hg : g y with ⟨error | third, z⟩ <;>
      simp only [andThen, hf, hg, Except.map, List.append_assoc]

/-- Every record says what its event came to after the one before. -/
def Recorded : Situation ω → List (Record ω) → Prop
  | _, [] => True
  | x, r :: records =>
    r.event.perform hooks machine sink x = (r.result, r.after) ∧ Recorded r.after records

/-- What events come to that happen in order up to the first failure, with all that they emit. -/
def outcome : List Event → Situation ω → Except CompileError Bytes × Situation ω
  | [], x => (.ok [], x)
  | e :: es, x => andThen (e.perform hooks machine sink x) (outcome es)

/-- The records of events that happen in order up to the first failure. -/
def history : List Event → Situation ω → List (Record ω)
  | [], _ => []
  | e :: es, x =>
    match e.perform hooks machine sink x with
    | (.ok bytes, y) => ⟨e, .ok bytes, y⟩ :: history es y
    | (.error error, y) => [⟨e, .error error, y⟩]

end

section

variable {ω : Type} {hooks : Hooks (StateM ω)} {machine : Machine} {sink : Sink (StateM ω)}
  {e : Event} {es : List Event} {x y : Situation ω} {bytes : Bytes} {error : CompileError}

theorem outcome_cons_of_ok (h : e.perform hooks machine sink x = (.ok bytes, y)) :
    outcome hooks machine sink (e :: es) x =
      andThen (.ok bytes, y) (outcome hooks machine sink es) := by
  rw [outcome, h]

theorem outcome_cons_of_error (h : e.perform hooks machine sink x = (.error error, y)) :
    outcome hooks machine sink (e :: es) x = (.error error, y) := by
  rw [outcome, h]
  rfl

theorem history_cons_of_ok (h : e.perform hooks machine sink x = (.ok bytes, y)) :
    history hooks machine sink (e :: es) x =
      ⟨e, .ok bytes, y⟩ :: history hooks machine sink es y := by
  rw [history, h]

theorem history_cons_of_error (h : e.perform hooks machine sink x = (.error error, y)) :
    history hooks machine sink (e :: es) x = [⟨e, .error error, y⟩] := by
  rw [history, h]

theorem recorded_history (es : List Event) (x : Situation ω) :
    Recorded hooks machine sink x (history hooks machine sink es x) := by
  induction es generalizing x with
  | nil => trivial
  | cons e es ih =>
    rcases h : e.perform hooks machine sink x with ⟨error | bytes, y⟩
    · rw [history_cons_of_error h]
      exact ⟨h, trivial⟩
    · rw [history_cons_of_ok h]
      exact ⟨h, ih y⟩

theorem isPrefix_history (es : List Event) (x : Situation ω) :
    (history hooks machine sink es x).map Record.event <+: es := by
  induction es generalizing x with
  | nil => exact List.prefix_rfl
  | cons e es ih =>
    rcases h : e.perform hooks machine sink x with ⟨error | bytes, y⟩
    · rw [history_cons_of_error h]
      exact List.prefix_append [e] es
    · rw [history_cons_of_ok h]
      exact (List.prefix_cons_inj e).2 (ih y)

theorem isOk_of_mem_dropLast_history (es : List Event) (x : Situation ω) :
    ∀ r ∈ (history hooks machine sink es x).dropLast, r.result.isOk := by
  induction es generalizing x with
  | nil => exact fun r hr => absurd hr List.not_mem_nil
  | cons e es ih =>
    rcases h : e.perform hooks machine sink x with ⟨error | bytes, y⟩
    · rw [history_cons_of_error h]
      exact fun r hr => absurd hr List.not_mem_nil
    · rw [history_cons_of_ok h]
      have hrest := ih y
      rcases hs : history hooks machine sink es y with _ | ⟨r', records⟩
      · exact fun r hr => absurd hr List.not_mem_nil
      · rw [hs] at hrest
        rw [List.dropLast_cons_cons]
        exact List.forall_mem_cons.2 ⟨rfl, hrest⟩

/-- The last record says what the events came to. -/
theorem exists_getLast?_history (h : es ≠ []) (x : Situation ω) :
    ∃ r, (history hooks machine sink es x).getLast? = some r ∧
      (outcome hooks machine sink es x).1.map (fun _ => ()) = r.result.map (fun _ => ()) ∧
      (outcome hooks machine sink es x).2 = r.after := by
  induction es generalizing x with
  | nil => exact absurd rfl h
  | cons e es ih =>
    rcases hp : e.perform hooks machine sink x with ⟨error | bytes, y⟩
    · rw [history_cons_of_error hp, outcome_cons_of_error hp]
      exact ⟨_, rfl, rfl, rfl⟩
    · rw [history_cons_of_ok hp, outcome_cons_of_ok hp]
      by_cases hes : es = []
      · subst hes
        exact ⟨_, rfl, rfl, rfl⟩
      · obtain ⟨r, hr, hresult, hafter⟩ := ih hes y
        refine ⟨r, by rw [List.getLast?_cons, hr]; rfl, ?_, hafter⟩
        rw [← hresult, andThen]
        cases (outcome hooks machine sink es y).1 <;> rfl

/-- Where all events succeed, they are all on record, with all that they emit. -/
theorem history_of_outcome (h : outcome hooks machine sink es x = (.ok bytes, y)) :
    (history hooks machine sink es x).map Record.event = es ∧
      (∀ r ∈ history hooks machine sink es x, r.result.isOk) ∧
      (history hooks machine sink es x).flatMap Record.output = bytes := by
  induction es generalizing x bytes with
  | nil =>
    cases h
    exact ⟨rfl, fun r hr => absurd hr List.not_mem_nil, rfl⟩
  | cons e es ih =>
    rcases hp : e.perform hooks machine sink x with ⟨error | first, z⟩
    · rw [outcome_cons_of_error hp] at h
      cases h
    · rw [outcome_cons_of_ok hp, andThen] at h
      rcases hs : outcome hooks machine sink es z with ⟨error | rest, z'⟩ <;> rw [hs] at h
      · cases h
      · cases h
        obtain ⟨hmap, hok, houtput⟩ := ih hs
        rw [history_cons_of_ok hp, List.map_cons, hmap, List.flatMap_cons, houtput]
        exact ⟨rfl, List.forall_mem_cons.2 ⟨rfl, hok⟩, rfl⟩

/-- Where all that is on record succeeded, all events did. -/
theorem isOk_outcome_of_history (h : ∀ r ∈ history hooks machine sink es x, r.result.isOk) :
    (outcome hooks machine sink es x).1.isOk := by
  induction es generalizing x with
  | nil => rfl
  | cons e es ih =>
    rcases hp : e.perform hooks machine sink x with ⟨error | first, z⟩
    · rw [history_cons_of_error hp] at h
      cases h _ List.mem_cons_self
    · rw [history_cons_of_ok hp] at h
      rw [outcome_cons_of_ok hp, andThen]
      have hrest := ih fun r hr => h r (List.mem_cons_of_mem _ hr)
      revert hrest
      cases (outcome hooks machine sink es z).1 <;> exact id

theorem outcome_append (es fs : List Event) (x : Situation ω) :
    outcome hooks machine sink (es ++ fs) x =
      andThen (outcome hooks machine sink es x) (outcome hooks machine sink fs) := by
  induction es generalizing x with
  | nil =>
    exact (andThen_ok_nil x _).symm
  | cons e es ih =>
    rw [List.cons_append, outcome, outcome, andThen_assoc]
    exact congrArg _ (funext ih)

theorem history_append (es fs : List Event) (x : Situation ω) :
    history hooks machine sink (es ++ fs) x =
      history hooks machine sink es x ++
        match outcome hooks machine sink es x with
        | (.ok _, y) => history hooks machine sink fs y
        | (.error _, _) => [] := by
  induction es generalizing x with
  | nil => rfl
  | cons e es ih =>
    rcases hp : e.perform hooks machine sink x with ⟨error | first, z⟩
    · rw [List.cons_append, history_cons_of_error hp, history_cons_of_error hp,
        outcome_cons_of_error hp]
      rfl
    · rw [List.cons_append, history_cons_of_ok hp, history_cons_of_ok hp,
        outcome_cons_of_ok hp, ih z, List.cons_append]
      rcases hs : outcome hooks machine sink es z with ⟨error | rest, z'⟩ <;>
        simp only [andThen, hs, Except.map]

end

section

variable {ω : Type} {hooks : Hooks (StateM ω)} {machine : Machine} {sink : Sink (StateM ω)}
  {x : Situation ω} {r : Record ω}

theorem Recorded.exists_perform {records : List (Record ω)}
    (h : Recorded hooks machine sink x records) (hr : r ∈ records) :
    ∃ y, r.event.perform hooks machine sink y = (r.result, r.after) := by
  induction records generalizing x with
  | nil => exact absurd hr List.not_mem_nil
  | cons first records ih =>
    rcases List.mem_cons.1 hr with rfl | hr
    · exact ⟨x, h.1⟩
    · exact ih h.2 hr

theorem event_mem_of_mem_history {es : List Event} (h : r ∈ history hooks machine sink es x) :
    r.event ∈ es :=
  (isPrefix_history es x).subset (List.mem_map_of_mem h)

/-- An event is on record only if those before it succeeded. -/
theorem exists_outcome_of_mem_history {es fs : List Event}
    (h : r ∈ history hooks machine sink (es ++ fs) x) (he : r.event ∉ es) :
    ∃ bytes y, outcome hooks machine sink es x = (.ok bytes, y) ∧
      r ∈ history hooks machine sink fs y := by
  rw [history_append] at h
  rcases ho : outcome hooks machine sink es x with ⟨error | bytes, y⟩ <;> rw [ho] at h <;>
    rcases List.mem_append.1 h with h | h
  · exact absurd (event_mem_of_mem_history h) he
  · exact absurd h List.not_mem_nil
  · exact absurd (event_mem_of_mem_history h) he
  · exact ⟨bytes, y, rfl, h⟩

/-- What is on record about an event that happens only once. -/
theorem after_of_mem_history {e : Event} {es fs : List Event} (hes : e ∉ es) (hfs : e ∉ fs)
    (h : r ∈ history hooks machine sink (es ++ e :: fs) x) (he : r.event = e)
    (hok : r.result.isOk) : r.after = (outcome hooks machine sink (es ++ [e]) x).2 := by
  induction es generalizing x with
  | nil =>
    rcases hp : e.perform hooks machine sink x with ⟨error | bytes, y⟩
    · rw [List.nil_append, history_cons_of_error hp] at h
      cases List.mem_singleton.1 h
      cases hok
    · rw [List.nil_append, history_cons_of_ok hp] at h
      rcases List.mem_cons.1 h with rfl | h
      · rw [List.nil_append, outcome_cons_of_ok hp]
        rfl
      · exact absurd (he ▸ event_mem_of_mem_history h) hfs
  | cons e' es ih =>
    obtain ⟨hne, hes⟩ := not_or.1 (List.mem_cons.not.1 hes)
    rcases hp : e'.perform hooks machine sink x with ⟨error | bytes, y⟩
    · rw [List.cons_append, history_cons_of_error hp] at h
      cases List.mem_singleton.1 h
      cases hok
    · rw [List.cons_append, history_cons_of_ok hp] at h
      rcases List.mem_cons.1 h with rfl | h
      · exact absurd he.symm hne
      · rw [List.cons_append, outcome_cons_of_ok hp]
        exact ih hes h

theorem emitted_append (stage : Stage) (records records' : List (Record ω)) :
    emitted stage (records ++ records') = emitted stage records ++ emitted stage records' := by
  rw [emitted, List.filter_append, List.flatMap_append]
  rfl

theorem emitted_of_forall_eq {stage : Stage} {records : List (Record ω)}
    (h : ∀ r ∈ records, r.event.stage? = some stage) :
    emitted stage records = records.flatMap Record.output := by
  rw [emitted, List.filter_eq_self.2 fun r hr => decide_eq_true (h r hr)]

theorem emitted_of_forall_ne {stage : Stage} {records : List (Record ω)}
    (h : ∀ r ∈ records, r.event.stage? ≠ some stage) : emitted stage records = [] := by
  rw [emitted, List.filter_eq_nil_iff.2 fun r hr => by simpa using h r hr]
  rfl

end

/-! ### What comes where -/

variable {lto : Bool} {count : Stage → Nat} {artifact : Bytes} {e : Event} {stage : Stage} {n : Nat}

theorem stage?_of_mem_ofStage (h : e ∈ ofStage stage n) : e.stage? = some stage := by
  simp only [ofStage, collecting, executing, List.mem_append, List.mem_cons, List.mem_map,
    List.not_mem_nil, or_false] at h
  rcases h with (rfl | rfl | rfl | rfl) | ⟨i, -, rfl⟩ | rfl <;> rfl

theorem stage?_of_mem_beforeCodegen (h : e ∈ beforeCodegen lto count) :
    e.stage? ≠ some .codegen ∧ (lto = false → e.stage? ≠ some .lto) := by
  rcases List.mem_append.1 h with h | h
  · simp only [opening, List.mem_cons, List.not_mem_nil, or_false] at h
    rcases h with rfl | rfl | rfl <;> exact ⟨nofun, fun _ => nofun⟩
  · split_ifs at h with hlto
    · rw [stage?_of_mem_ofStage h, hlto]
      exact ⟨nofun, nofun⟩
    · cases h

theorem write_notMem_ofStage (bytes : Bytes) : write bytes ∉ ofStage stage n := by
  intro h
  cases stage?_of_mem_ofStage h

theorem write_notMem_beforeCodegen (bytes : Bytes) : write bytes ∉ beforeCodegen lto count := by
  intro h
  rcases List.mem_append.1 h with h | h
  · simp [opening] at h
  · split_ifs at h
    · exact write_notMem_ofStage bytes h
    · cases h

theorem eq_of_write_mem_order {bytes : Bytes} (h : write bytes ∈ order lto count artifact) :
    bytes = artifact := by
  rcases List.mem_append.1 h with h | h
  · exact absurd h (write_notMem_beforeCodegen bytes)
  · rcases List.mem_append.1 h with h | h
    · exact absurd h (write_notMem_ofStage bytes)
    · exact write.inj (List.mem_singleton.1 h)

/-- Of events that come in order, only the last one can be the write. -/
theorem write_notMem_dropLast {es : List Event} (h : es <+: order lto count artifact)
    (bytes : Bytes) : write bytes ∉ es.dropLast := by
  intro hmem
  have hdrop : es.dropLast <+: beforeCodegen lto count ++ ofStage .codegen (count .codegen) := by
    rw [order, ← List.append_assoc] at h
    rcases List.prefix_concat_iff.1 h with h | h
    · exact ⟨[], by rw [h, List.dropLast_concat, List.append_nil]⟩
    · exact (List.dropLast_prefix _).trans h
  rcases List.mem_append.1 (hdrop.subset hmem) with h | h
  · exact write_notMem_beforeCodegen bytes h
  · exact write_notMem_ofStage bytes h

theorem stage?_ne_lto_of_mem_order (h : e ∈ order false count artifact) :
    e.stage? ≠ some .lto := by
  rcases List.mem_append.1 h with h | h
  · exact (stage?_of_mem_beforeCodegen h).2 rfl
  · rcases List.mem_append.1 h with h | h
    · rw [stage?_of_mem_ofStage h]
      decide
    · rw [List.mem_singleton.1 h]
      exact (Option.some_ne_none _).symm

theorem hook_notMem_executing (moment : Moment) (h : moment ≠ .afterExecute) :
    hook ⟨stage, moment⟩ ∉ executing stage n := by
  simp [executing, h]

/-- Only one event of a compilation is the last hook before the execution of a stage. -/
theorem exists_order_eq (h : hook ⟨stage, .beforeExecute⟩ ∈ order lto count artifact) :
    ∃ es fs, order lto count artifact = es ++ hook ⟨stage, .beforeExecute⟩ :: fs ∧
      hook ⟨stage, .beforeExecute⟩ ∉ es ∧ hook ⟨stage, .beforeExecute⟩ ∉ fs ∧
      es ++ [hook ⟨stage, .beforeExecute⟩] = beforeExecution lto count stage := by
  cases stage with
  | lto =>
    obtain rfl : lto = true := by
      by_contra hlto
      rw [Bool.eq_false_iff.2 hlto] at h
      exact stage?_ne_lto_of_mem_order h rfl
    refine ⟨opening ++ [hook ⟨.lto, .beforeAdd⟩, add .lto, hook ⟨.lto, .afterAdd⟩],
      executing .lto (count .lto) ++ (ofStage .codegen (count .codegen) ++ [write artifact]),
      ?_, ?_, ?_, ?_⟩
    · simp only [order, beforeCodegen, ofStage, collecting, if_true, List.append_assoc,
        List.cons_append, List.nil_append]
    · simp [opening]
    · rw [List.mem_append, List.mem_append]
      rintro (h | h | h)
      · exact hook_notMem_executing .beforeExecute nofun h
      · cases stage?_of_mem_ofStage h
      · cases List.mem_singleton.1 h
    · simp only [beforeExecution, collecting, List.append_assoc, List.cons_append, List.nil_append]
  | codegen =>
    refine ⟨beforeCodegen lto count ++
        [hook ⟨.codegen, .beforeAdd⟩, add .codegen, hook ⟨.codegen, .afterAdd⟩],
      executing .codegen (count .codegen) ++ [write artifact], ?_, ?_, ?_, ?_⟩
    · simp only [order, ofStage, collecting, List.append_assoc, List.cons_append, List.nil_append]
    · rw [List.mem_append]
      rintro (h | h)
      · exact (stage?_of_mem_beforeCodegen h).1 rfl
      · simp at h
    · rw [List.mem_append]
      rintro (h | h)
      · exact hook_notMem_executing .beforeExecute nofun h
      · cases List.mem_singleton.1 h
    · simp only [beforeExecution, collecting, List.append_assoc, List.cons_append, List.nil_append]

/-- Code generation begins with two events that come only once. -/
theorem exists_order_eq_codegen (lto : Bool) (count : Stage → Nat) (artifact : Bytes) :
    ∃ fs, order lto count artifact =
        beforeCodegen lto count ++ hook ⟨.codegen, .beforeAdd⟩ :: add .codegen :: fs ∧
      hook ⟨.codegen, .beforeAdd⟩ ∉ beforeCodegen lto count ++ fs ∧
      add .codegen ∉ beforeCodegen lto count ++ fs := by
  refine ⟨[hook ⟨.codegen, .afterAdd⟩, hook ⟨.codegen, .beforeExecute⟩] ++
    executing .codegen (count .codegen) ++ [write artifact], ?_, ?_, ?_⟩
  · simp only [order, ofStage, collecting, List.cons_append, List.nil_append]
  · have hbefore : hook ⟨.codegen, .beforeAdd⟩ ∉ beforeCodegen lto count :=
      fun h => (stage?_of_mem_beforeCodegen h).1 rfl
    simp [hbefore, executing]
  · have hbefore : add .codegen ∉ beforeCodegen lto count :=
      fun h => (stage?_of_mem_beforeCodegen h).1 rfl
    simp [hbefore, executing]

/-- Two series of events, of which one goes on, agree before an event that comes only once, and
after it. -/
theorem eq_and_prefix_of_prefix {es es' fs fs' : List Event} (h : es' ++ e :: fs' <+: es ++ e :: fs)
    (hes : e ∉ es) (hfs : e ∉ fs) : es' = es ∧ fs' <+: fs := by
  obtain ⟨rest, hrest⟩ := h
  rw [List.append_assoc, List.cons_append] at hrest
  obtain ⟨rfl, -, rfl⟩ := (List.append_cons_inj_of_notMem hes hfs).1 hrest.symm
  exact ⟨rfl, List.prefix_append ..⟩

end Event

end ComputeScript
