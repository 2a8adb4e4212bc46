import ComputeScript.Proofs.Build.Again
import ComputeScript.Proofs.Library.Loading
import ComputeScript.Proofs.Sink.OutputFile

/-!
# Builds into files

On a disk, a build into a file and one that keeps the bytes do the same until they compile, since
loading libraries changes no disk (`Builder.Begins.elsewhere`).  So a build into a file either fails
and leaves every file as it was, or it puts at the destination what the other build gives
(`Builder.buildFile_cases`), and what that is depends on nothing on the disk but the libraries
(`Builder.run_buildBytes_congr`).
-/

namespace ComputeScript

/-! ### Compilations -/

/-- The sink that writes an output file on a disk. -/
abbrev Sink.diskFile : Sink (StateT OutputFile (StateM Disk)) := outputFile

/-- A compilation into an output file fails and changes no file, or it replaces the destination by
what the script is built to. -/
theorem Compiler.compile_outputFile_cases {c : Compiler} {machine : Machine}
    (hmachine : c.machine = some machine) {entryPoints : List String} {script script' : Script}
    {path : Path} {f : Sink.OutputFile} {d d' : Disk} {result : Except CompileError Unit}
    (h : (((c.compile (.script entryPoints) Sink.diskFile).run.run script).run { path }).run d =
      (((result, script'), f), d')) :
    ∃ after, f.Shows after d'.root ∧
      ((∃ e, result = .error e) ∧ after = d.root.entryAt? ∨
        ∃ bytes, result = .ok () ∧ script.module.verify = .ok () ∧
          script.build entryPoints machine c.lto = (.ok bytes, script') ∧
          d.root.entryAt?.Replaced (d.root.place? path) (some bytes) after) := by
  have hstate : (Sink.diskFile.state.run { path }).run d = ((.unprepared, { path }), d) := rfl
  have hidle : Sink.OutputFile.Shows { path } d.root.entryAt? d.root := .idle (by simp) rfl rfl
  rcases hprepare : (Sink.OutputFile.prepare { path } : StateM Disk _).run d with
    ⟨⟨answer, f₁⟩, d₁⟩
  obtain ⟨hpath, hshows⟩ := hidle.prepare hprepare
  have hprepare' : (Sink.diskFile.prepare.run.run { path }).run d = ((answer, f₁), d₁) := hprepare
  rw [run_compile_of_open hmachine hstate rfl hprepare'] at h
  -- until the artifact is written, there is nothing new but the staged file
  rcases answer with fault | ⟨⟩
  · cases h
    exact ⟨_, hshows, .inl ⟨⟨_, rfl⟩, rfl⟩⟩
  rcases hverify : script.module.verify with defect | ⟨⟩ <;> simp only [hverify] at h
  · cases h
    exact ⟨_, hshows, .inl ⟨⟨_, rfl⟩, rfl⟩⟩
  rcases hbuild : script.build entryPoints machine c.lto with ⟨e | bytes, script₁⟩ <;>
    simp only [hbuild] at h
  · cases h
    exact ⟨_, hshows, .inl ⟨⟨_, rfl⟩, rfl⟩⟩
  rcases hwrite : (f₁.write bytes : StateM Disk _).run d₁ with ⟨⟨answer, f₂⟩, d₂⟩
  obtain ⟨-, after, hafter, hshows'⟩ := hshows.write hwrite
  rw [hpath, Tree.place?_congr hshows.sameDirs] at hafter
  have hwrite' : ((Sink.diskFile.write bytes).run.run f₁).run d₁ = ((answer, f₂), d₂) := hwrite
  simp only [hwrite'] at h
  rcases answer with fault | ⟨⟩ <;> cases h
  · exact ⟨after, hshows', .inl ⟨⟨_, rfl⟩, hafter⟩⟩
  · exact ⟨after, hshows', .inr ⟨bytes, rfl, rfl, rfl, hafter⟩⟩

namespace Builder

variable {b b' : Builder} {script script' : Script} {triple : String} {fileType : FileType}
  {d d' e : Disk}

/-! ### Until it compiles -/

theorem run_loaded (b : Builder) (d : Disk) :
    (b.loaded : StateM Disk _).run d =
      (match b.libraries with
        | some libraries => .ok libraries
        | none => Library.loadedFrom b.root d, d) := by
  rw [loaded]
  cases b.libraries with
  | none => exact Library.run_loadFrom b.root d
  | some libraries => rfl

/-- Until it compiles, a build leaves the disk as it is, and goes the same way on another one from
which the same libraries are loaded. -/
theorem Begins.elsewhere {result : Except BuildError Compiler}
    (h : Begins triple fileType script b d result script' b' d')
    (heq : Library.loadedFrom b.root e = Library.loadedFrom b.root d) :
    d' = d ∧ Begins triple fileType script b e result script' b' e := by
  have hloaded {b₁ : Builder} (hconfigure : b.configure (configFor script triple fileType) = .ok b₁)
      {r : Except LoadError (List Library)} (hrun : b₁.loaded.run d = (r, d')) :
      d' = d ∧ b₁.loaded.run e = (r, e) := by
    have hroot : b₁.root = b.root := by rw [(of_configure hconfigure).2.2]
    rw [run_loaded, hroot] at hrun
    rw [run_loaded, hroot, heq]
    obtain ⟨rfl, rfl⟩ := Prod.mk.inj hrun
    exact ⟨rfl, rfl⟩
  cases h with
  | unconfigured hconfigure => exact ⟨rfl, .unconfigured hconfigure⟩
  | unlinked hconfigure hoff => exact ⟨rfl, .unlinked hconfigure hoff⟩
  | unloaded hconfigure hon hrun =>
    obtain ⟨rfl, hrun'⟩ := hloaded hconfigure hrun
    exact ⟨rfl, .unloaded hconfigure hon hrun'⟩
  | unselected hconfigure hon hrun hselect =>
    obtain ⟨rfl, hrun'⟩ := hloaded hconfigure hrun
    exact ⟨rfl, .unselected hconfigure hon hrun' hselect⟩
  | linked hconfigure hon hrun hselect =>
    obtain ⟨rfl, hrun'⟩ := hloaded hconfigure hrun
    exact ⟨rfl, .linked hconfigure hon hrun' hselect⟩

/-! ### Builds -/

theorem run_buildFile (b : Builder) (script : Script) (triple : String) (fileType : FileType)
    (output : Path) (d : Disk) :
    (b.buildFile script triple fileType output : StateM Disk _).run d =
      match (buildInto triple fileType Sink.diskFile).exec script b { path := output } d with
      | (result, script, b, file, d) =>
        ((result, script, b), ((file.drop : StateM Disk Sink.OutputFile).run d).2) := rfl

/-- A build into a file fails and changes no file, or it replaces the file by the bytes that are
built when they are kept. -/
theorem buildFile_cases {output : Path} {result : Except BuildError Unit}
    (h : (b.buildFile script triple fileType output : StateM Disk _).run d =
      ((result, script', b'), d')) :
    (∃ e, result = .error e) ∧ d'.root.entryAt? = d.root.entryAt? ∨
      ∃ bytes, result = .ok () ∧
        (b.buildBytes script triple fileType : StateM Disk _).run d =
          ((.ok bytes, script', b'), d) ∧
        d.root.entryAt?.Replaced (d.root.place? output) (some bytes) d'.root.entryAt? := by
  obtain ⟨r, script₁, b₁, d₁, hbegins, hexec⟩ := exists_begins triple fileType script b d
  obtain ⟨rfl, -⟩ := hbegins.elsewhere rfl
  rw [run_buildFile, buildInto_eq] at h
  rcases r with e | c
  · rw [Building.exec_bind_of_error (hexec _ _)] at h
    cases h
    exact .inl ⟨⟨_, rfl⟩, rfl⟩
  obtain ⟨machine, hready, rfl, rfl, -⟩ := ready_of_begin (hexec Sink.OutputFile { path := output })
  rw [Building.exec_bind_of_ok (hexec _ _)] at h
  rcases hcompile : (((b₁.compiler.compile (.script ExportTable.entryPoints)
    Sink.diskFile).run.run (b₁.linked script)).run { path := output }).run d₁ with
    ⟨⟨⟨r, script₂⟩, f⟩, d₂⟩
  rw [exec_finish hcompile] at h
  obtain ⟨after, hshows, hcases⟩ := Compiler.compile_outputFile_cases hready.machine hcompile
  rcases hdrop : (f.drop : StateM Disk Sink.OutputFile).run d₂ with ⟨f', d₃⟩
  obtain ⟨-, hafter⟩ := hshows.drop hdrop
  dsimp only at h
  rw [hdrop] at h
  cases h
  rw [hafter]
  obtain ⟨⟨e, rfl⟩, rfl⟩ | ⟨bytes, rfl, hverify, hbuild, hreplaced⟩ := hcases
  · exact .inl ⟨⟨_, rfl⟩, rfl⟩
  · refine .inr ⟨bytes, rfl, ?_, hreplaced⟩
    rw [(run_buildBytes_of_begin (hexec _ _)).2, run_buildBytes_of_ready hready, hverify, hbuild]

/-- What is built depends on nothing on the disk but the libraries. -/
theorem run_buildBytes_congr (script : Script) (triple : String) (fileType : FileType)
    (heq : Library.loadedFrom b.root e = Library.loadedFrom b.root d) :
    ((b.buildBytes script triple fileType : StateM Disk _).run e).1 =
      ((b.buildBytes script triple fileType : StateM Disk _).run d).1 := by
  obtain ⟨r, script₁, b₁, d₁, hbegins, hexec⟩ := exists_begins triple fileType script b d
  obtain ⟨rfl, hbegins'⟩ := hbegins.elsewhere heq
  rcases r with fault | c
  · simp only [run_buildBytes, buildInto_eq, Building.exec_bind_of_error (hexec _ _),
      Building.exec_bind_of_error (hbegins'.exec _)]
  · obtain ⟨⟨machine, hready⟩, hrun⟩ := run_buildBytes_of_begin (hexec _ _)
    rw [hrun, (run_buildBytes_of_begin (hbegins'.exec _)).2, run_buildBytes_of_ready hready,
      run_buildBytes_of_ready hready]
    rcases (b₁.linked script).module.verify with defect | ⟨⟩
    · rfl
    · rcases (b₁.linked script).build ExportTable.entryPoints machine b₁.compiler.lto with
        ⟨fault | bytes, script₂⟩ <;> rfl

end Builder

end ComputeScript
