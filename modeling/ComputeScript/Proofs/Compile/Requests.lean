import ComputeScript.Proofs.Compile.Stages

/-!
# What a compilation asks of its sink

`Sink.noted` is a sink that keeps a list of what was asked of it and passes every request on.  A
compilation of a script does with it what it does with the sink itself, and `Compiler.Asks` lists
the ways in which that can go: where the compilation ends, and what it has asked for until then.
Of a sink that was found open, all that matters is how it answers (`Compiler.run_compile_of_open`).
-/

namespace ComputeScript

theorem run_run_bind {τ ω α β : Type} {act : StateT τ (StateM ω) α} {f : α → StateT τ (StateM ω) β}
    {a : α} {t t' : τ} {w w' : ω} (h : (act.run t).run w = ((a, t'), w')) :
    ((act >>= f).run t).run w = ((f a).run t').run w' :=
  congrArg (fun x : (α × τ) × ω => ((f x.1.1).run x.1.2).run x.2) h

namespace Sink

/-- What is asked of a sink. -/
inductive Request where
  | state
  | prepare
  | write (artifact : Bytes)
  deriving DecidableEq, Repr

variable {τ α : Type} {m : Type → Type} [Monad m]

/-- Notes a request that is passed on. -/
def note (request : Request) (act : StateT τ m α) : StateT (List Request × τ) m α :=
  fun (requests, t) => do
    let (a, t) ← act.run t
    return (a, (requests ++ [request], t))

/-- The sink with a list of what was asked of it. -/
def noted (sink : Sink (StateT τ m)) : Sink (StateT (List Request × τ) m) where
  state := note .state sink.state
  prepare := ExceptT.mk (note .prepare sink.prepare.run)
  write artifact := ExceptT.mk (note (.write artifact) (sink.write artifact).run)

theorem run_note {ω : Type} {act : StateT τ (StateM ω) α} {a : α} {t t' : τ} {w w' : ω}
    (request : Request) (h : (act.run t).run w = ((a, t'), w')) (requests : List Request) :
    ((note request act).run (requests, t)).run w = ((a, (requests ++ [request], t')), w') :=
  congrArg (fun x : (α × τ) × ω => ((x.1.1, (requests ++ [request], x.1.2)), x.2)) h

end Sink

open Sink (Request)

namespace CompileError

/-- The reasons for which a compilation of a script fails before any of its passes has run. -/
def beforePasses : List CompileError :=
  [noMachine, usedSink, prepareSink, badModule, hook ⟨.lto, .beforeAdd⟩,
   hook ⟨.lto, .beforeExecute⟩]

end CompileError

namespace Compiler

/-- The ways in which a compilation of a script can go: what it asks of its sink, what it comes to,
and the script that it leaves. -/
inductive Asks (c : Compiler) (entryPoints : List String) (script : Script) :
    List Request → Except CompileError Unit → Script → Prop where
  | noMachine (h : c.machine = none) : c.Asks entryPoints script [] (.error .noMachine) script
  | usedSink : c.Asks entryPoints script [.state] (.error .usedSink) script
  | prepareSink : c.Asks entryPoints script [.state, .prepare] (.error .prepareSink) script
  | badModule : c.Asks entryPoints script [.state, .prepare] (.error .badModule) script
  | build {machine e script'}
      (h : script.build entryPoints machine c.lto = (.error e, script')) :
      c.Asks entryPoints script [.state, .prepare] (.error e) script'
  | writeSink {machine artifact script'}
      (h : script.build entryPoints machine c.lto = (.ok artifact, script')) :
      c.Asks entryPoints script [.state, .prepare, .write artifact] (.error .writeSink) script'
  | ok {machine artifact script'}
      (h : script.build entryPoints machine c.lto = (.ok artifact, script')) :
      c.Asks entryPoints script [.state, .prepare, .write artifact] (.ok ()) script'

section

variable {c : Compiler} {entryPoints : List String} {script script' : Script}
  {requests : List Request} {e : CompileError}

/-- Of the compilations that fail, only one that fails to write has asked for that. -/
theorem Asks.write_notMem (h : c.Asks entryPoints script requests (.error e) script')
    (he : e ≠ .writeSink) (artifact : Bytes) : .write artifact ∉ requests := by
  cases h with
  | noMachine | usedSink | prepareSink | badModule | build => simp
  | writeSink => exact absurd rfl he

/-- A compilation that fails before its passes leaves the script alone. -/
theorem Asks.script_eq (h : c.Asks entryPoints script requests (.error e) script')
    (he : e ∈ CompileError.beforePasses) : script' = script := by
  cases h with
  | noMachine | usedSink | prepareSink | badModule => rfl
  | build h =>
    obtain ⟨-, hscript⟩ | rfl | rfl := Script.of_build_error h
    · exact hscript
    · exact absurd he (by decide)
    · exact absurd he (by decide)
  | writeSink => exact absurd he (by decide)

/-- No compilation fails for want of a target. -/
theorem Asks.ne_of_error (h : c.Asks entryPoints script requests (.error e) script') :
    e ≠ .noTarget ∧ e ≠ .badTarget := by
  cases h with
  | noMachine | usedSink | prepareSink | badModule | writeSink => decide
  | build h => obtain ⟨rfl | rfl, -⟩ | rfl | rfl := Script.of_build_error h <;> decide

end

/-- What a compilation comes to once its sink was found open and was prepared, or not. -/
theorem run_compile_of_open {ω τ : Type} {c : Compiler} {machine : Machine}
    (hmachine : c.machine = some machine) {entryPoints : List String}
    {sink : Sink (StateT τ (StateM ω))} {script : Script} {state : SinkState}
    {answer : Except SinkFault Unit} {t t₁ t₂ : τ} {w w₁ w₂ : ω}
    (hstate : (sink.state.run t).run w = ((state, t₁), w₁)) (hopen : state.isOpen = true)
    (hprepare : (sink.prepare.run.run t₁).run w₁ = ((answer, t₂), w₂)) :
    (((c.compile (.script entryPoints) sink).run.run script).run t).run w =
      match answer with
      | .error _ => (((.error .prepareSink, script), t₂), w₂)
      | .ok () =>
        match script.module.verify with
        | .error _ => (((.error .badModule, script), t₂), w₂)
        | .ok () =>
          match script.build entryPoints machine c.lto with
          | (.error e, script) => (((.error e, script), t₂), w₂)
          | (.ok artifact, script) =>
            let written := ((sink.write artifact).run.run t₂).run w₂
            (((written.1.1.mapError fun _ => .writeSink, script), written.1.2), written.2) := by
  rw [run_compile, hmachine]
  dsimp only
  rw [run_run_bind hstate, if_pos hopen, run_run_bind hprepare]
  rcases answer with fault | ⟨⟩
  · rfl
  rcases script.module.verify with defect | ⟨⟩
  · rfl
  rcases script.build entryPoints machine c.lto with ⟨e | artifact, script'⟩
  · rfl
  dsimp only
  rw [map_eq_pure_bind]
  exact run_run_bind rfl

/-- A compilation goes the same way whether or not it is noted what it asks of its sink. -/
theorem exists_asks {ω τ : Type} (c : Compiler) (entryPoints : List String)
    (sink : Sink (StateT τ (StateM ω))) (script : Script) (t : τ) (w : ω) :
    ∃ requests result script' t' w', c.Asks entryPoints script requests result script' ∧
      (((c.compile (.script entryPoints) sink).run.run script).run t).run w =
        (((result, script'), t'), w') ∧
      (((c.compile (.script entryPoints) sink.noted).run.run script).run ([], t)).run w =
        (((result, script'), (requests, t')), w') := by
  rw [run_compile, run_compile]
  rcases hmachine : c.machine with _ | machine
  · exact ⟨_, _, _, _, _, .noMachine hmachine, rfl, rfl⟩
  dsimp only
  rcases hstate : (sink.state.run t).run w with ⟨⟨state, t₁⟩, w₁⟩
  have hstate' : (sink.noted.state.run ([], t)).run w = ((state, ([.state], t₁)), w₁) :=
    Sink.run_note .state hstate []
  rw [run_run_bind hstate, run_run_bind hstate']
  rcases hopen : state.isOpen
  · exact ⟨_, _, _, _, _, .usedSink, rfl, rfl⟩
  rw [if_pos rfl, if_pos rfl]
  rcases hprepare : (sink.prepare.run.run t₁).run w₁ with ⟨⟨answer, t₂⟩, w₂⟩
  have hprepare' : (sink.noted.prepare.run.run ([.state], t₁)).run w₁ =
      ((answer, ([.state, .prepare], t₂)), w₂) := Sink.run_note .prepare hprepare [.state]
  rw [run_run_bind hprepare, run_run_bind hprepare']
  rcases answer with fault | ⟨⟩
  · exact ⟨_, _, _, _, _, .prepareSink, rfl, rfl⟩
  dsimp only
  rcases script.module.verify with defect | ⟨⟩
  · exact ⟨_, _, _, _, _, .badModule, rfl, rfl⟩
  dsimp only
  rcases hbuild : script.build entryPoints machine c.lto with ⟨e | artifact, script'⟩
  · exact ⟨_, _, _, _, _, .build hbuild, rfl, rfl⟩
  dsimp only
  rcases hwrite : ((sink.write artifact).run.run t₂).run w₂ with ⟨⟨answer, t₃⟩, w₃⟩
  have hwrite' : ((sink.noted.write artifact).run.run ([.state, .prepare], t₂)).run w₂ =
      ((answer, ([.state, .prepare, .write artifact], t₃)), w₃) :=
    Sink.run_note (.write artifact) hwrite [.state, .prepare]
  rw [map_eq_pure_bind, map_eq_pure_bind]
  rw [run_run_bind hwrite, run_run_bind hwrite']
  rcases answer with fault | ⟨⟩
  · exact ⟨_, _, _, _, _, .writeSink hbuild, rfl, rfl⟩
  · exact ⟨_, _, _, _, _, .ok hbuild, rfl, rfl⟩

end Compiler

end ComputeScript
