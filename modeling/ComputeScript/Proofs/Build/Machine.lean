import ComputeScript.Files.Disk
import ComputeScript.Proofs.Build.Phases
import Mathlib.Data.List.Basic

/-!
# The machine of a build

A builder keeps the configuration that it last made a machine for, and makes none for a build that
needs the same configuration again.  It is in step if that configuration is the one of the machine
that its compiler has (`Builder.InStep`); then every build compiles with the machine of its own
configuration.  Whatever is done with a builder, it falls out of step exactly when its compiler is
configured from outside for another machine (`Builder.inStep_perform_iff`).
-/

namespace ComputeScript

/-- What can be done with a builder, and with the compiler that it lends out. -/
inductive Operation (ω : Type) where
  | buildFile (script : Script) (triple : String) (fileType : FileType) (output : Path)
  | buildBytes (script : Script) (triple : String) (fileType : FileType)
  | buildInto (script : Script) (triple : String) (fileType : FileType)
      (sink : Sink (StateT Unit (StateM ω)))
  | setLinking (linking : Bool)
  | configure (config : Config)
  | enableLto (lto : Bool)
  | compile (script : Script) (sink : Sink (StateM ω))

namespace Builder

/-- If the builder shows a configuration, its compiler has the machine of that configuration. -/
def InStep (b : Builder) : Prop :=
  ∀ config, b.config = some config →
    ∃ machine, Machine.create config = .ok machine ∧ b.compiler.machine = some machine

variable {b b₁ : Builder} {config : Config}

/-! ### Builds -/

/-- A builder in step configures itself for the machine that was asked for, whether or not it makes
a new one. -/
theorem InStep.machine_of_configure (h : b.InStep) (hconfigure : b.configure config = .ok b₁) :
    ∃ machine, Machine.create config = .ok machine ∧ b₁.compiler.machine = some machine := by
  unfold configure Compiler.configure at hconfigure
  split_ifs at hconfigure with hcached
  · cases hconfigure
    exact h config hcached.1
  · rcases hcreate : Machine.create config with e | machine <;> rw [hcreate] at hconfigure <;>
      cases hconfigure
    exact ⟨machine, rfl, rfl⟩

theorem InStep.configure (h : b.InStep) (hconfigure : b.configure config = .ok b₁) :
    b₁.InStep := by
  intro shown hshown
  obtain rfl : config = shown := Option.some.inj ((of_configure hconfigure).1.symm.trans hshown)
  exact h.machine_of_configure hconfigure

section

variable {ω τ : Type} [Files (StateM ω)] {script : Script} {t : τ} {w : ω} {triple : String}
  {fileType : FileType}

/-- Compiling leaves the builder as it is. -/
theorem exec_buildInto_builder (sink : Sink (StateT τ (StateM ω))) :
    ((buildInto triple fileType sink).exec script b t w).2.2.1 =
      ((begin triple fileType : Building τ (StateM ω) _).exec script b t w).2.2.1 := by
  rw [buildInto_eq]
  rcases hbegin : (begin triple fileType : Building τ (StateM ω) _).exec script b t w with
    ⟨e | c, script', b', t', w'⟩
  · rw [Building.exec_bind_of_error hbegin]
  · rw [Building.exec_bind_of_ok hbegin, exec_finish rfl]

theorem InStep.buildInto (h : b.InStep) (sink : Sink (StateT τ (StateM ω))) :
    ((Builder.buildInto triple fileType sink).exec script b t w).2.2.1.InStep := by
  obtain ⟨result, script', b', w', hbegins, hexec⟩ := exists_begins triple fileType script b w
  rw [exec_buildInto_builder, hexec]
  cases hbegins with
  | unconfigured => exact h
  | unlinked hconfigure | unloaded hconfigure => exact h.configure hconfigure
  | unselected hconfigure | linked hconfigure =>
    have hstep := h.configure hconfigure
    exact hstep

/-- A build that a builder in step begins compiles with the machine that it asks for. -/
theorem InStep.machine_of_begin (h : b.InStep) {c : Compiler} {rest : Script × Builder × τ × ω}
    (hbegin : (begin triple fileType).exec script b t w = (.ok c, rest)) :
    ∃ machine, Machine.create (configFor script triple fileType) = .ok machine ∧
      c.machine = some machine := by
  obtain ⟨script', b', t', w'⟩ := rest
  obtain ⟨hbegins, -⟩ := begins_of_exec hbegin
  cases hbegins with
  | unlinked hconfigure | linked hconfigure => exact h.machine_of_configure hconfigure

end

end Builder

/-! ### Histories -/

namespace Operation

variable {ω : Type} [Files (StateM ω)]

/-- The builder after an operation, which may fail. -/
def perform (b : Builder) : Operation ω → StateM ω Builder
  | buildFile script triple fileType output => do
    let (_, _, b) ← b.buildFile script triple fileType output
    return b
  | buildBytes script triple fileType => do
    let (_, _, b) ← b.buildBytes script triple fileType
    return b
  | buildInto script triple fileType sink => do
    let build : Building Unit (StateM ω) Unit := Builder.buildInto triple fileType sink
    let ((_, b), _) ← ((build.run.run script).run b).run ()
    return b
  | setLinking linking => return { b with linking }
  | configure config =>
    match b.compiler.configure config with
    | .error _ => return b
    | .ok compiler => return { b with compiler }
  | enableLto lto => return { b with compiler := { b.compiler with lto } }
  | compile script sink => do
    let _ ← (b.compiler.compile (.script ExportTable.entryPoints) sink).run.run script
    return b

/-- The operation gives the compiler a machine, and the builder goes on showing a configuration that
this is not the machine of. -/
def Disturbs (b : Builder) : Operation ω → Prop
  | configure config =>
    ∃ machine shown, Machine.create config = .ok machine ∧ b.config = some shown ∧
      Machine.create shown ≠ .ok machine
  | _ => False

variable {b : Builder} {config : Config}

theorem run_perform_configure_of_error {e : CompileError} (h : Machine.create config = .error e)
    (w : ω) : (perform b (.configure config)).run w = (b, w) := by
  rw [perform, Compiler.configure, h]
  rfl

theorem run_perform_configure_of_ok {machine : Machine} (h : Machine.create config = .ok machine)
    (w : ω) : (perform b (.configure config)).run w =
      ({ b with compiler := { b.compiler with machine := some machine } }, w) := by
  rw [perform, Compiler.configure, h]
  rfl

end Operation

namespace Builder

variable {ω : Type} [Files (StateM ω)] {b : Builder}

/-- A builder in step stays in step, unless its compiler is configured from outside for a machine
that is not the one of the configuration shown. -/
theorem inStep_perform_iff (h : b.InStep) (op : Operation ω) (w : ω) :
    ((op.perform b).run w).1.InStep ↔ ¬ op.Disturbs b := by
  cases op with
  | buildFile script triple fileType output => exact iff_of_true (h.buildInto _) not_false
  | buildBytes script triple fileType => exact iff_of_true (h.buildInto _) not_false
  | buildInto script triple fileType sink => exact iff_of_true (h.buildInto sink) not_false
  | setLinking linking => exact iff_of_true h not_false
  | enableLto lto => exact iff_of_true h not_false
  | compile script sink => exact iff_of_true h not_false
  | configure config =>
    rcases hcreate : Machine.create config with e | machine
    · rw [Operation.run_perform_configure_of_error hcreate]
      refine iff_of_true h ?_
      rintro ⟨machine, -, hmachine, -⟩
      cases hcreate.symm.trans hmachine
    rw [Operation.run_perform_configure_of_ok hcreate]
    constructor
    · rintro hstep ⟨made, shown, hmade, hshown, hother⟩
      obtain ⟨machine', hcreate', hmachine'⟩ := hstep shown hshown
      cases hmachine'
      exact hother (hcreate'.trans (hcreate.symm.trans hmade))
    · intro hundisturbed shown hshown
      refine ⟨machine, ?_, rfl⟩
      exact Classical.byContradiction fun hother =>
        hundisturbed ⟨machine, shown, hcreate, hshown, hother⟩

/-- The builder after operations, one after another. -/
def after (b : Builder) (history : List (Operation ω)) : StateM ω Builder :=
  history.foldlM Operation.perform b

/-- No operation of a history disturbs the builder that it finds. -/
def Undisturbed (b : Builder) (w : ω) : List (Operation ω) → Prop
  | [] => True
  | op :: history =>
    ¬ op.Disturbs b ∧ Undisturbed ((op.perform b).run w).1 ((op.perform b).run w).2 history

theorem inStep_throughout_iff (h : b.InStep) (history : List (Operation ω)) (w : ω) :
    (∀ n, ((b.after (history.take n)).run w).1.InStep) ↔ b.Undisturbed w history := by
  induction history generalizing b w with
  | nil =>
    refine iff_of_true (fun n => ?_) trivial
    rw [List.take_nil]
    exact h
  | cons op history ih =>
    have hstep := inStep_perform_iff h op w
    constructor
    · intro hall
      have hop : ((op.perform b).run w).1.InStep := hall 1
      exact ⟨hstep.1 hop, (ih hop _).1 fun n => hall (n + 1)⟩
    · rintro ⟨hop, hrest⟩ n
      cases n with
      | zero => exact h
      | succ n => exact (ih (hstep.2 hop) _).2 hrest n

theorem inStep_fresh (root : Option Path) : InStep { root } :=
  fun _ hconfig => by cases hconfig

/-- From a fresh builder on, no operation of a history disturbs the builder exactly if, however much
of the history has been done, the builder is in step and every build that then comes to compile does
so with the machine of its own configuration. -/
theorem undisturbed_iff (root : Option Path) (history : List (Operation ω)) (w : ω) :
    Undisturbed { root } w history ↔
      ∀ n, let (b, w) := (after { root } (history.take n)).run w
        b.InStep ∧
          ∀ (τ : Type) (t : τ) (script : Script) (triple : String) (fileType : FileType)
            (c : Compiler) (rest : Script × Builder × τ × ω),
            (begin triple fileType).exec script b t w = (.ok c, rest) →
              ∃ machine, Machine.create (configFor script triple fileType) = .ok machine ∧
                c.machine = some machine := by
  rw [← inStep_throughout_iff (inStep_fresh root)]
  exact forall_congr' fun n => ⟨fun h => ⟨h, fun _ _ _ _ _ _ _ => h.machine_of_begin⟩, And.left⟩

/-- A script with nothing in it. -/
def blank : Script where
  module := { id := "blank" }
  exports := some {}

/-- A build for one target, and then a configuration for another one from outside. -/
def switched : List (Operation Disk) :=
  [.setLinking false, .buildBytes blank "wasm32" .assembly,
   .configure { triple := "usc", fileType := .assembly }]

/-- After that, a build for the first target emits a listing for the second one, although the
builder shows the configuration for the first one. -/
theorem build_after_switched :
    let b := ((after {} switched).run {}).1
    let disk := ((after {} switched).run {}).2
    b.config = some (configFor blank "wasm32" .assembly) ∧
      b.compiler.machine.map (·.triple.text) = some "usc" ∧
      ((b.buildBytes blank "wasm32" .assembly : StateM Disk _).run disk).1.1 =
        .ok (utf8 "; target: usc\n; opt: 3\nmodule \"blank\"\n") := by
  refine ⟨?_, ?_, ?_⟩ <;> decide +kernel

end Builder

end ComputeScript
