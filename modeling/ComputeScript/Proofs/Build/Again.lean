import ComputeScript.Files.Disk
import ComputeScript.Proofs.Build.Phases
import ComputeScript.Proofs.Compile.Requests
import ComputeScript.Proofs.Compile.Settled
import Mathlib.Data.List.Basic

/-!
# Building again

A builder that has built a script is ready to build it again: it has its libraries, and the machine
for it.  What it builds the script that was left to, is what it built before, unless the module that
was left clashes with the library that it is linked with once more (`Builder.buildBytes_again`).
-/

namespace ComputeScript

variable {ω : Type}

/-- With a sink that keeps the bytes, a compilation checks the module and builds it. -/
theorem Compiler.run_compile_memory {c : Compiler} {machine : Machine}
    (hmachine : c.machine = some machine) (entryPoints : List String) (script : Script) (w : ω) :
    (((c.compile (.script entryPoints) (Sink.stream (Sink.memory (m := StateM ω)))).run.run
        script).run { writer := [] }).run w =
      match script.module.verify with
      | .error _ => (((.error .badModule, script), { writer := [] }), w)
      | .ok () =>
        match script.build entryPoints machine c.lto with
        | (.error e, script) => (((.error e, script), { writer := [] }), w)
        | (.ok artifact, script) => (((.ok (), script), ⟨.finalized, artifact⟩), w) := by
  have hstate : ((Sink.stream (Sink.memory (m := StateM ω))).state.run { writer := [] }).run w =
      ((.ready, { writer := [] }), w) := rfl
  rw [run_compile_of_open hmachine hstate rfl rfl]
  rcases script.module.verify with defect | ⟨⟩
  · rfl
  rcases script.build entryPoints machine c.lto with ⟨e | artifact, script'⟩ <;> rfl

namespace Builder

/-! ### Builders that are ready -/

/-- The library that the builder has for a script, if it links scripts. -/
def libraryFor (b : Builder) (script : Script) : Option Library :=
  if b.linking then b.libraries.bind fun libraries => Library.select? libraries script.library
  else none

/-- The script as the builder links it. -/
def linked (b : Builder) (script : Script) : Script :=
  match b.libraryFor script with
  | none => script
  | some library => script.link library

/-- Linking is with a module that verifies and is internal, if the library is such a one. -/
theorem exists_linked {b : Builder} {script : Script}
    (h : ∀ library, b.libraryFor script = some library →
      library.module.verify = .ok () ∧ library.module.externalNames = []) :
    ∃ library : Module,
      (∀ module, b.linked { script with module } =
        { script with module := module.link library }) ∧
      library.verify = .ok () ∧ library.externalNames = [] ∧
      ∀ m : Module, m.ClashesWith library ↔
        ∃ library, b.libraryFor script = some library ∧ m.ClashesWith library.module := by
  rcases hselect : b.libraryFor script with _ | library
  · refine ⟨{ id := "" }, fun module => ?_, rfl, rfl, fun m => ?_⟩
    · have hnone : b.libraryFor { script with module } = none := hselect
      rw [linked, hnone]
      rfl
    · simp [Module.ClashesWith]
  · obtain ⟨hverified, hinternal⟩ := h library hselect
    refine ⟨library.module, fun module => ?_, hverified, hinternal, fun m => ?_⟩
    · have hsome : b.libraryFor { script with module } = some library := hselect
      rw [linked, hsome]
      rfl
    · simp

/-- The builder has the machine for a build of the script, and the library if it needs one. -/
structure Ready (b : Builder) (script : Script) (triple : String) (fileType : FileType)
    (machine : Machine) : Prop where
  config : b.config = some (configFor script triple fileType)
  machine : b.compiler.machine = some machine
  library : b.linking → (b.libraryFor script).isSome

variable [Files (StateM ω)] {τ : Type} {b b' : Builder} {script script' : Script} {triple : String}
  {fileType : FileType} {machine : Machine} {t t' : τ} {w w' : ω} {bytes : Bytes}

/-- A builder that is ready goes on to compile the linked script, and is not changed. -/
theorem exec_begin_of_ready (h : b.Ready script triple fileType machine) (t : τ) (w : ω) :
    (begin triple fileType).exec script b t w = (.ok b.compiler, b.linked script, b, t, w) := by
  rw [exec_begin_of_ok (configure_eq_self h.config (by rw [h.machine]; rfl))]
  obtain ⟨root, compiler, config, _ | libraries, _ | _⟩ := b
  · rfl
  · cases h.library rfl
  · rfl
  · have hloaded : (loaded ⟨root, compiler, config, some libraries, true⟩ : StateM ω _).run w =
        (.ok libraries, w) := rfl
    have hlibrary := h.library rfl
    have hsome : libraryFor ⟨root, compiler, config, some libraries, true⟩ script =
        Library.select? libraries script.library := rfl
    rw [if_pos rfl, exec_link_of_ok hloaded, linked, hsome]
    rw [hsome] at hlibrary
    rcases hselect : Library.select? libraries script.library with _ | library
    · rw [hselect] at hlibrary
      cases hlibrary
    · rfl

/-- A build that comes to compile has left the builder ready, and compiles the linked script. -/
theorem ready_of_begin {c : Compiler}
    (h : (begin triple fileType).exec script b t w = (.ok c, script', b', t', w')) :
    ∃ machine, b'.Ready script triple fileType machine ∧ script' = b'.linked script ∧
      c = b'.compiler ∧ t' = t := by
  obtain ⟨hbegins, ht⟩ := begins_of_exec h
  cases hbegins with
  | unlinked hconfigure hoff =>
    obtain ⟨hconfig, hmachine, -⟩ := of_configure hconfigure
    obtain ⟨machine, hmachine⟩ := Option.isSome_iff_exists.1 hmachine
    refine ⟨machine, ⟨hconfig, hmachine, fun hon => ?_⟩, ?_, rfl, ht⟩
    · rw [hoff] at hon
      cases hon
    · rw [linked, libraryFor, hoff]
      rfl
  | @linked b₁ libraries library _ hconfigure hon _ hselect =>
    obtain ⟨hconfig, hmachine, -⟩ := of_configure hconfigure
    obtain ⟨machine, hmachine⟩ := Option.isSome_iff_exists.1 hmachine
    have hlibrary : libraryFor { b₁ with libraries := some libraries } script = some library := by
      rw [libraryFor, if_pos hon]
      exact hselect
    refine ⟨machine, ⟨hconfig, hmachine, fun _ => ?_⟩, ?_, rfl, ht⟩
    · rw [hlibrary]
      rfl
    · rw [linked, hlibrary]

/-! ### The bytes of a build -/

theorem run_buildBytes (b : Builder) (script : Script) (triple : String) (fileType : FileType)
    (w : ω) :
    (b.buildBytes script triple fileType : StateM ω _).run w =
      match (buildInto triple fileType (Sink.stream Sink.memory)).exec script b { writer := [] } w
      with
      | (result, script, b, stream, w) => ((result.map fun _ => stream.writer, script, b), w) := rfl

/-- A builder that is ready builds the linked script. -/
theorem run_buildBytes_of_ready (h : b.Ready script triple fileType machine) (w : ω) :
    (b.buildBytes script triple fileType : StateM ω _).run w =
      match (b.linked script).module.verify with
      | .error _ => ((.error (.compile .badModule), b.linked script, b), w)
      | .ok () =>
        match (b.linked script).build ExportTable.entryPoints machine b.compiler.lto with
        | (.error e, script) => ((.error (.compile e), script, b), w)
        | (.ok bytes, script) => ((.ok bytes, script, b), w) := by
  have hcompile := Compiler.run_compile_memory h.machine ExportTable.entryPoints (b.linked script) w
  rw [run_buildBytes, buildInto_eq, Building.exec_bind_of_ok (exec_begin_of_ready h _ w)]
  rcases hverify : (b.linked script).module.verify with defect | ⟨⟩ <;> rw [hverify] at hcompile
  · rw [exec_finish hcompile]
    rfl
  rcases hbuild : (b.linked script).build ExportTable.entryPoints machine b.compiler.lto with
    ⟨e | bytes, script'⟩
  · rw [hbuild] at hcompile
    rw [exec_finish hcompile]
    rfl
  · rw [hbuild] at hcompile
    rw [exec_finish hcompile]
    rfl

/-- A build that comes to compile goes on as that of a builder that is ready. -/
theorem run_buildBytes_of_begin {c : Compiler} {script₁ : Script} {b₁ : Builder}
    {t₁ : Sink.Stream Bytes} {w₁ : ω}
    (h : (begin triple fileType).exec script b { writer := [] } w = (.ok c, script₁, b₁, t₁, w₁)) :
    (∃ machine, b₁.Ready script triple fileType machine) ∧
      (b.buildBytes script triple fileType : StateM ω _).run w =
        (b₁.buildBytes script triple fileType : StateM ω _).run w₁ := by
  obtain ⟨machine, hready, rfl, rfl, rfl⟩ := ready_of_begin h
  refine ⟨⟨machine, hready⟩, ?_⟩
  rw [run_buildBytes, run_buildBytes, buildInto_eq, Building.exec_bind_of_ok h,
    Building.exec_bind_of_ok (exec_begin_of_ready hready _ w₁)]

/-- After a build that succeeded the builder is ready for another one, and what it built is what it
builds when it is ready. -/
theorem ready_of_buildBytes
    (h : (b.buildBytes script triple fileType : StateM ω _).run w =
      ((.ok bytes, script', b'), w')) :
    ∃ machine, b'.Ready script triple fileType machine ∧
      (b'.linked script).module.verify = .ok () ∧
      (b'.linked script).build ExportTable.entryPoints machine b'.compiler.lto =
        (.ok bytes, script') := by
  rcases hbegin : (begin triple fileType).exec script b ({ writer := [] } : Sink.Stream Bytes) w
    with ⟨e | c, script₁, b₁, t₁, w₁⟩
  · rw [run_buildBytes, buildInto_eq, Building.exec_bind_of_error hbegin] at h
    cases h
  obtain ⟨⟨machine, hready⟩, hrun⟩ := run_buildBytes_of_begin hbegin
  rw [hrun, run_buildBytes_of_ready hready] at h
  rcases hverify : (b₁.linked script).module.verify with defect | ⟨⟩ <;> rw [hverify] at h
  · cases h
  rcases hbuild : (b₁.linked script).build ExportTable.entryPoints machine b₁.compiler.lto with
    ⟨e | bytes₁, script₁⟩ <;> rw [hbuild] at h <;> cases h
  exact ⟨machine, hready, hverify, hbuild⟩

/-! ### Building again -/

/-- A build that succeeded is followed by the same build: the same bytes, and the same script and
builder left, unless what was left clashes with the library that it is linked with.  If it does,
then it is linked and not compiled. -/
theorem buildBytes_again (b b' : Builder) (script script' : Script) (triple : String)
    (fileType : FileType) (machine : Machine) (bytes : Bytes) (w w' : ω)
    (hfirst : (b.buildBytes script triple fileType : StateM ω _).run w =
      ((.ok bytes, script', b'), w'))
    (hmachine : b'.compiler.machine = some machine)
    (hlibrary : ∀ library, b'.libraryFor script = some library →
      library.module.verify = .ok () ∧ library.module.externalNames = [])
    (hdistinct : ∀ table, script.exports = some table → (table.kernels.map Kernel.name).Nodup)
    (hhidden : machine.native = false → ∀ table, script.exports = some table →
      ∀ k ∈ table.kernels, (k.wrapperName, Linkage.internal) ∉ (b'.linked script).module.symbols) :
    let clashes := ∃ library, b'.libraryFor script = some library ∧
      script'.module.ClashesWith library.module
    let again := (b'.buildBytes script' triple fileType : StateM ω _).run w'
    (¬ clashes → again = ((.ok bytes, script', b'), w')) ∧
      (clashes → again = ((.error (.compile .badModule), b'.linked script', b'), w')) := by
  obtain ⟨machine', hready, hverify, hbuild⟩ := ready_of_buildBytes hfirst
  obtain rfl : machine = machine' := Option.some.inj (hmachine.symm.trans hready.machine)
  obtain ⟨library, hlinked, hverified, hinternal, hclashes⟩ := exists_linked hlibrary
  rw [hlinked script.module] at hverify hbuild hhidden
  have hdefines (name : String) (hname : name ∈ library.names) :
      (script.module.link library).defines name := by
    rw [Module.defines_link (Module.verify_eq_ok_iff.1 hverified).1,
      Module.defines_iff.2 hname, Bool.or_true]
  obtain ⟨hverify', hbuild'⟩ :=
    Script.build_link hverify hdistinct hhidden hverified hinternal hdefines hbuild
  obtain ⟨module, rfl⟩ := Script.exists_module_of_build hbuild
  have hready' : b'.Ready { script with module } triple fileType machine :=
    ⟨hready.config, hready.machine, hready.library⟩
  have hagain := run_buildBytes_of_ready hready' w'
  rw [hlinked module, hbuild'] at hagain
  have hiff := Module.verify_link_iff hverify' hverified
  rw [hclashes] at hiff
  refine ⟨fun hclash => ?_, fun hclash => ?_⟩
  · rw [hagain, hiff.2 hclash]
  · rcases hresult : (module.link library).verify with defect | ⟨⟩
    · rw [hagain, hlinked module]
      dsimp only
      rw [hresult]
    · exact absurd hclash (hiff.1 hresult)

/-- A library with a helper. -/
def helpers : Library where
  name := "clcore"
  path := "clcore.rsir"
  module :=
    { id := "clcore"
      funcs := [{ name := "double", linkage := .internal, params := 1, results := 1,
                  body := [.localGet 0, .const 2, .binary .mul] }] }

/-- A script with a kernel that calls the helper. -/
def helped : Script where
  module :=
    { id := "helped"
      funcs := [{ name := "scale", params := 1, results := 1,
                  body := [.localGet 0, .call "double"] }] }
  exports := some { kernels := [⟨"scale", ⟨true, true, false⟩⟩] }

/-- A builder that has a library. -/
def having (library : Library) : Builder where
  libraries := some [library]

/-- This script keeps the helper, and gets a wrapper that is not made again. -/
theorem buildBytes_again_helped :
    ∃ bytes script' b' w',
      ((having helpers).buildBytes helped "wasm32" .assembly : StateM Disk _).run {} =
        ((.ok bytes, script', b'), w') ∧
      script'.module.names = ["scale", "double", "scale.expand"] ∧
      (b'.buildBytes script' "wasm32" .assembly : StateM Disk _).run w' =
        ((.ok bytes, script', b'), w') := by
  have hfacts :
      let left := (((having helpers).buildBytes helped "wasm32" .assembly : StateM Disk _).run {}).1
      left.1.isOk ∧ left.2.1.module.names = ["scale", "double", "scale.expand"] ∧
        left.2.1.module.verify = .ok () ∧ (left.2.1.module.link helpers.module).verify = .ok () ∧
        left.2.2.compiler.machine.isSome ∧ left.2.2.libraryFor helped = some helpers ∧
        ("scale.expand", Linkage.internal) ∉ (left.2.2.linked helped).module.symbols := by
    decide +kernel
  rcases hfirst : ((having helpers).buildBytes helped "wasm32" .assembly : StateM Disk _).run {}
    with ⟨⟨e | bytes, script', b'⟩, w'⟩ <;> rw [hfirst] at hfacts
  · cases hfacts.1
  obtain ⟨-, hnames, hverify, hlinked, hmachine, hlibrary, hhidden⟩ := hfacts
  obtain ⟨machine, hmachine⟩ := Option.isSome_iff_exists.1 hmachine
  have hagain := buildBytes_again _ b' helped script' _ _ machine bytes _ w' hfirst hmachine
  refine ⟨_, _, _, _, rfl, hnames, (hagain ?_ ?_ ?_).1 ?_⟩
  · intro library h
    cases hlibrary.symm.trans h
    exact ⟨by decide, by decide⟩
  · intro table h
    cases h
    decide
  · intro _ table h k hk
    cases h
    cases List.mem_singleton.1 hk
    exact hhidden
  · rintro ⟨library, h, hclash⟩
    cases hlibrary.symm.trans h
    exact (Module.verify_link_iff hverify (by decide)).1 hlinked hclash

/-- A library with a function that calls another one. -/
def chained : Library where
  name := "clcore"
  path := "clcore.rsir"
  module :=
    { id := "clcore"
      funcs := [{ name := "step", linkage := .internal },
                { name := "steps", linkage := .internal, body := [.call "step"] }] }

/-- A script with a variable that has the name of the one function, and a hidden function that has
the name of the other. -/
def shadowing : Script where
  module :=
    { id := "shadowing"
      globals := [{ name := "step", init := 1 }]
      funcs := [{ name := "steps", linkage := .internal }] }
  exports := some { vars := ["step"] }

/-- The first build of this script drops its function.  Linking again brings the one of the library,
which then calls the variable, so the second build fails. -/
theorem buildBytes_again_shadowing :
    let first := ((having chained).buildBytes shadowing "wasm32" .assembly : StateM Disk _).run {}
    let again := (first.1.2.2.buildBytes first.1.2.1 "wasm32" .assembly : StateM Disk _).run first.2
    first.1.2.2.libraryFor shadowing = some chained ∧ chained.module.verify = .ok () ∧
      chained.module.externalNames = [] ∧ shadowing.exports.map (·.kernels) = some [] ∧
      first.1.1 = .ok (utf8
        "; target: wasm32\n; opt: 3\nmodule \"shadowing\"\nglobal @step = 1\n") ∧
      again.1.1 = .error (.compile .badModule) := by
  refine ⟨?_, ?_, ?_, ?_, ?_, ?_⟩ <;> decide +kernel

end Builder

end ComputeScript
