import ComputeScript.Proofs.Build.Again
import ComputeScript.Proofs.Compile.Requests
import ComputeScript.Proofs.Link
import ComputeScript.Proofs.Target

/-!
# What a failing build leaves alone

A build that fails before it compiles leaves its script as it is and asks nothing of its sink; one
that fails before the passes run leaves the script as it was linked; and no build asks for a write
unless it succeeds or fails to write (`Builder.failures_spare_script`).
-/

namespace ComputeScript

/-- Whether a build that fails for this reason has not come to compile. -/
def BuildError.beforeCompilation : BuildError → Bool
  | load _ => true
  | noLibrary _ => true
  | compile .noTarget => true
  | compile .badTarget => true
  | compile _ => false

/-- Of the reasons for which a compilation fails, only a configuration has these. -/
theorem BuildError.beforeCompilation_compile_iff {e : CompileError} :
    (compile e).beforeCompilation ↔ e = .noTarget ∨ e = .badTarget := by
  cases e <;> simp [beforeCompilation]

namespace Builder

open Sink (Request)

variable {ω : Type}

/-- A configuration fails for want of a target. -/
theorem beforeCompilation_of_configure {b : Builder} {config : Config} {e : CompileError}
    (h : b.configure config = .error e) : (BuildError.compile e).beforeCompilation := by
  unfold configure Compiler.configure at h
  split_ifs at h
  rcases hcreate : Machine.create config with e₁ | machine <;> rw [hcreate] at h <;> cases h
  exact BuildError.beforeCompilation_compile_iff.2 (Machine.error_of_create hcreate)

/-- What a build that failed has left alone, with what it has asked of its sink. -/
structure Spares (b b' : Builder) (script script' : Script) (requests : List Request)
    (e : BuildError) : Prop where
  /-- before it compiles, a build changes nothing and asks for nothing -/
  untouched : e.beforeCompilation → script' = script ∧ requests = []
  unlinked : b.linking = false → ∀ e' ∈ CompileError.beforePasses, e = .compile e' →
    script' = script
  /-- before its passes run, a build adds definitions of the library and changes nothing else -/
  linked : b.linking = true → ∀ e' ∈ CompileError.beforePasses, e = .compile e' →
    ∃ library globals funcs, b'.libraryFor script = some library ∧
      globals.Sublist library.module.globals ∧ funcs.Sublist library.module.funcs ∧
      script' = { script with
        module := { script.module with
          globals := script.module.globals ++ globals
          funcs := script.module.funcs ++ funcs } }
  unwritten : e ≠ .compile .writeSink → ∀ artifact, .write artifact ∉ requests

/-- A script as it is linked has gained definitions of a library. -/
theorem exists_linked_eq {b : Builder} {script : Script} {library : Library}
    (h : b.libraryFor script = some library) :
    ∃ globals funcs, globals.Sublist library.module.globals ∧ funcs.Sublist library.module.funcs ∧
      b.linked script = { script with
        module := { script.module with
          globals := script.module.globals ++ globals
          funcs := script.module.funcs ++ funcs } } := by
  obtain ⟨globals, funcs, hglobals, hfuncs, heq⟩ :=
    Module.exists_link_eq script.module library.module
  refine ⟨globals, funcs, hglobals, hfuncs, ?_⟩
  rw [linked, h, ← heq]
  rfl

theorem linked_eq_self {b : Builder} (h : b.linking = false) (script : Script) :
    b.linked script = script := by
  rw [linked, libraryFor, if_neg (Bool.eq_false_iff.1 h)]

section

variable [Files (StateM ω)] {triple : String} {fileType : FileType} {script script' : Script}
  {b b' : Builder} {w w' : ω}

/-- Whether a builder links does not change. -/
theorem Begins.linking_eq {result : Except BuildError Compiler}
    (h : Begins triple fileType script b w result script' b' w') : b'.linking = b.linking := by
  cases h with
  | unconfigured => rfl
  | unlinked hconfigure | unloaded hconfigure | unselected hconfigure | linked hconfigure =>
    have hlinking := congrArg Builder.linking (of_configure hconfigure).2.2
    exact hlinking

/-- A build that fails before it compiles leaves the script alone. -/
theorem Begins.of_error {e : BuildError}
    (h : Begins triple fileType script b w (.error e) script' b' w') :
    e.beforeCompilation ∧ script' = script := by
  cases h with
  | unconfigured hconfigure => exact ⟨beforeCompilation_of_configure hconfigure, rfl⟩
  | unloaded | unselected => exact ⟨rfl, rfl⟩

theorem Begins.spares {e : BuildError}
    (h : Begins triple fileType script b w (.error e) script' b' w') :
    Spares b b' script script' [] e := by
  obtain ⟨hbefore, rfl⟩ := h.of_error
  refine ⟨fun _ => ⟨rfl, rfl⟩, fun _ _ _ _ => rfl, ?_, fun _ _ => List.not_mem_nil⟩
  rintro - e' he' rfl
  obtain rfl | rfl := BuildError.beforeCompilation_compile_iff.1 hbefore
  · exact absurd he' (by decide)
  · exact absurd he' (by decide)

/-- A build whose compilation fails has linked the script, and has done nothing else to it if no
pass has run. -/
theorem spares_of_asks {machine : Machine} {requests : List Request} {e : CompileError}
    (hready : b'.Ready script triple fileType machine) (hlinking : b'.linking = b.linking)
    (h : b'.compiler.Asks ExportTable.entryPoints (b'.linked script) requests (.error e) script') :
    Spares b b' script script' requests (.compile e) where
  untouched hbefore := by
    obtain ⟨htarget, htarget'⟩ := h.ne_of_error
    obtain heq | heq := BuildError.beforeCompilation_compile_iff.1 hbefore
    · exact absurd heq htarget
    · exact absurd heq htarget'
  unlinked := by
    rintro hoff e' he' ⟨⟩
    rw [h.script_eq he', linked_eq_self (hlinking.trans hoff)]
  linked := by
    rintro hon e' he' ⟨⟩
    obtain ⟨library, hlibrary⟩ := Option.isSome_iff_exists.1 (hready.library (hlinking.trans hon))
    obtain ⟨globals, funcs, hglobals, hfuncs, heq⟩ := exists_linked_eq hlibrary
    exact ⟨library, globals, funcs, hlibrary, hglobals, hfuncs, (h.script_eq he').trans heq⟩
  unwritten hne := h.write_notMem fun heq => hne (heq ▸ rfl)

/-- A build that fails goes the same way if it is noted what it asks of its sink. -/
theorem exists_spares {τ : Type} {t t' : τ} {e : BuildError} (sink : Sink (StateT τ (StateM ω)))
    (h : (buildInto triple fileType sink).exec script b t w = (.error e, script', b', t', w')) :
    ∃ requests, (buildInto triple fileType sink.noted).exec script b ([], t) w =
        (.error e, script', b', (requests, t'), w') ∧
      Spares b b' script script' requests e := by
  obtain ⟨result, script₁, b₁, w₁, hbegins, hbegin⟩ := exists_begins triple fileType script b w
  rw [buildInto_eq] at h ⊢
  rcases result with e₁ | c
  · rw [Building.exec_bind_of_error (hbegin τ t)] at h
    cases h
    exact ⟨[], Building.exec_bind_of_error (hbegin _ _), hbegins.spares⟩
  · obtain ⟨machine, hready, hscript, rfl, -⟩ := ready_of_begin (hbegin τ t)
    rw [Building.exec_bind_of_ok (hbegin τ t)] at h
    obtain ⟨requests, result, script₂, t₂, w₂, hasks, hrun, hnoted⟩ :=
      b₁.compiler.exists_asks ExportTable.entryPoints sink script₁ t w₁
    rw [exec_finish hrun] at h
    rcases result with e' | ⟨⟩ <;> cases h
    refine ⟨requests, ?_, spares_of_asks hready hbegins.linking_eq (hscript ▸ hasks)⟩
    rw [Building.exec_bind_of_ok (hbegin _ _), exec_finish hnoted]
    rfl

end

/-- A build that fails in configuration, or in loading or choosing a library, leaves its script as
it is and asks nothing of its sink.  One that fails before its passes run leaves the script as it
was linked, if at all.  None but one that fails to write has asked its sink for that.  And making
wrappers, if it fails, makes none. -/
theorem failures_spare_script :
    (∀ (ω τ : Type) [Files (StateM ω)] (b b' : Builder) (script script' : Script) (triple : String)
      (fileType : FileType) (sink : Sink (StateT τ (StateM ω))) (t t' : τ) (w w' : ω)
      (e : BuildError),
      (buildInto triple fileType sink).exec script b t w = (.error e, script', b', t', w') →
        ∃ requests, (buildInto triple fileType sink.noted).exec script b ([], t) w =
            (.error e, script', b', (requests, t'), w') ∧
          Spares b b' script script' requests e) ∧
    ∀ (ω : Type) (fixed : Bool) (kernels : List Kernel) (module module' : Module) (e : PassError)
      (w w' : ω),
      ((Pass.expand (m := StateM ω) fixed kernels).run.run.run module).run w =
          ((.error e, module'), w') →
        module' = module ∧ w' = w := by
  constructor
  · intro ω τ _ b b' script script' triple fileType sink t t' w w' e h
    exact exists_spares sink h
  · intro ω fixed kernels module module' e w w' h
    rw [Pass.run_expand] at h
    rcases hexpand : module.expand fixed kernels with fault | expanded <;> rw [hexpand] at h <;>
      cases h
    exact ⟨rfl, rfl⟩

/-- Two kernels, of which the second is not there. -/
def halfKernels : List Kernel :=
  [⟨"scale", ⟨true, true, false⟩⟩, ⟨"shift", ⟨true, true, false⟩⟩]

/-- A script with these kernels. -/
def halfway : Script :=
  { helped with exports := some { kernels := halfKernels } }

theorem failures_spare_script_halfway :
    let sink : Sink (StateT (Sink.Stream Bytes) (StateM Disk)) := .stream Sink.memory
    (∃ script' b' stream disk,
      (buildInto "wasm32" .assembly sink).exec halfway (having helpers) { writer := [] } {} =
        (.error (.compile (.hook ⟨.lto, .beforeExecute⟩)), script', b', stream, disk) ∧
      script'.module.names = ["scale", "double"] ∧
      ∃ requests, (buildInto "wasm32" .assembly sink.noted).exec halfway (having helpers)
          ([], { writer := [] }) {} =
        (.error (.compile (.hook ⟨.lto, .beforeExecute⟩)), script', b', (requests, stream), disk) ∧
        Spares (having helpers) b' halfway script' requests
          (.compile (.hook ⟨.lto, .beforeExecute⟩))) ∧
    ∃ e module',
      ((Pass.expand (m := StateM Unit) true halfKernels).run.run.run helped.module).run () =
        ((.error e, module'), ()) ∧ module' = helped.module ∧ () = () := by
  intro sink
  constructor
  · have hfacts :
        let run := (buildInto "wasm32" .assembly sink).exec halfway (having helpers)
          { writer := [] } {}
        run.1 = .error (.compile (.hook ⟨.lto, .beforeExecute⟩)) ∧
          run.2.1.module.names = ["scale", "double"] := by
      decide +kernel
    rcases hrun : (buildInto "wasm32" .assembly sink).exec halfway (having helpers)
      { writer := [] } {} with ⟨result, script', b', stream, disk⟩
    rw [hrun] at hfacts
    obtain ⟨rfl, hnames⟩ := hfacts
    exact ⟨_, _, _, _, rfl, hnames, failures_spare_script.1 _ _ _ _ _ _ _ _ _ _ _ _ _ _ hrun⟩
  · exact ⟨_, _, rfl, failures_spare_script.2 Unit true halfKernels helped.module _ _ () () rfl⟩

end Builder

end ComputeScript
