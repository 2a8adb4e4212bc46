import ComputeScript.Proofs.Compile.Preservation

/-!
# The artifact of a compilation

`Compiler.artifact` is what a compilation of a script writes, told by a sink that keeps all bytes.
Every compilation that succeeds has written just that, whatever its sink is
(`Compiler.artifact_of_compile`).
-/

namespace ComputeScript

namespace Compiler

/-- What a compilation under the hooks for scripts has written if it succeeds. -/
def artifact (c : Compiler) (entryPoints : List String) (script : Script) : Option Bytes :=
  let run := ((c.compile (.script entryPoints) (Sink.stream (Sink.memory (m := Id)))).run.run
    script).run { writer := [] }
  if run.1.1.toBool then some run.2.writer else none

theorem artifact_eq {c : Compiler} {entryPoints : List String} {script script' : Script}
    {machine : Machine} {bytes : Bytes} (hmachine : c.machine = some machine)
    (hverify : script.module.verify = .ok ())
    (hbuild : script.build entryPoints machine c.lto = (.ok bytes, script')) :
    c.artifact entryPoints script = some bytes := by
  have hrun : ((c.compile (.script entryPoints) (Sink.stream (Sink.memory (m := Id)))).run.run
      script).run { writer := [] } =
        ((.ok (), script'), { status := .finalized, writer := bytes }) := by
    rw [run_compile, hmachine]
    simp only [hverify, hbuild]
    rfl
  rw [artifact, hrun]
  rfl

/-- A compilation that succeeds has verified the module, gone through the stages, and written its
artifact at last. -/
theorem artifact_of_compile {ω : Type} {c : Compiler} {entryPoints : List String}
    {sink : Sink (StateM ω)} {script script' : Script} {w w' : ω}
    (h : ((c.compile (.script entryPoints) sink).run.run script).run w = ((.ok (), script'), w')) :
    ∃ machine bytes w₁, c.machine = some machine ∧ script.module.verify = .ok () ∧
      script.build entryPoints machine c.lto = (.ok bytes, script') ∧
      c.artifact entryPoints script = some bytes ∧
      (sink.write bytes).run.run w₁ = (.ok (), w') := by
  obtain ⟨machine, bytes, hmachine, hverify, hbuild⟩ := build_of_compile h
  have hartifact := artifact_eq hmachine hverify hbuild
  rw [run_compile, hmachine] at h
  obtain ⟨st, w₁, -, h⟩ := exists_of_run_bind h
  split_ifs at h
  · obtain ⟨prepared, w₂, -, h⟩ := exists_of_run_bind h
    rcases prepared with e | ⟨⟩
    · cases h
    simp only [hverify, hbuild] at h
    refine ⟨machine, bytes, w₂, hmachine, hverify, hbuild, hartifact, ?_⟩
    rw [StateT.run_map] at h
    rcases hwrite : (sink.write bytes).run.run w₂ with ⟨_ | ⟨⟩, w₃⟩ <;> rw [hwrite] at h
    · cases h
    · cases h
      rfl
  · cases h

end Compiler

end ComputeScript
