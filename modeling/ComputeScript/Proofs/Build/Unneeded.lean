import ComputeScript.Proofs.Build.Again
import ComputeScript.Proofs.Compile.Unneeded

/-!
# Linking without need

A script that can be built without linking is built to the same artifact with it, whatever names the
script and the library share, but for two cases.  A function that is copied may refer to a name that
the script defines as the other kind; and the library may define the name of a wrapper
(`Builder.buildBytes_link_unneeded`).
-/

namespace ComputeScript

namespace Builder

variable {ω : Type} {b b' b₁ : Builder}

/-- The builder with linking switched on or off. -/
def withLinking (linking : Bool) (b : Builder) : Builder :=
  { b with linking }

/-- Configuring does not depend on whether scripts are linked. -/
theorem configure_withLinking (config : Config) (b : Builder) (linking : Bool) :
    (b.withLinking linking).configure config = (b.configure config).map (withLinking linking) := by
  unfold configure withLinking
  dsimp only
  split_ifs
  · rfl
  · rcases b.compiler.configure config with e | c <;> rfl

variable [Files (StateM ω)] {script script' : Script} {triple : String} {fileType : FileType}
  {machine : Machine} {libraries : List Library} {library : Library} {bytes : Bytes} {w w' : ω}

/-- A build without linking that succeeds has built the script itself. -/
theorem build_of_not_linking
    (h : ((b.withLinking false).buildBytes script triple fileType : StateM ω _).run w =
      ((.ok bytes, script', b'), w')) :
    ∃ b₁ machine, b.configure (configFor script triple fileType) = .ok b₁ ∧
      b₁.compiler.machine = some machine ∧ b'.compiler.machine = some machine ∧
      script.module.verify = .ok () ∧
      script.build ExportTable.entryPoints machine b.compiler.lto = (.ok bytes, script') := by
  have hplain := configure_withLinking (configFor script triple fileType) b false
  rcases hconfigure : b.configure (configFor script triple fileType) with e | b₁ <;>
    rw [hconfigure] at hplain
  · rw [run_buildBytes, buildInto_eq,
      Building.exec_bind_of_error (exec_begin_of_error hplain)] at h
    cases h
  let plain := b₁.withLinking false
  have hbegin (t : Sink.Stream Bytes) :
      (begin triple fileType).exec script (b.withLinking false) t w =
        (.ok plain.compiler, script, plain, t, w) :=
    exec_begin_of_ok hplain
  obtain ⟨⟨machine, hready⟩, hrun⟩ := run_buildBytes_of_begin (hbegin { writer := [] })
  have hcompiler : plain.compiler = b₁.compiler := rfl
  have hlto : plain.compiler.lto = b.compiler.lto := by
    rw [hcompiler, (of_configure hconfigure).2.2]
  have hself : plain.linked script = script := rfl
  clear_value plain
  rw [hrun, run_buildBytes_of_ready hready, hself, hlto] at h
  rcases hverify : script.module.verify with defect | ⟨⟩ <;> rw [hverify] at h
  · cases h
  rcases hbuild : script.build ExportTable.entryPoints machine b.compiler.lto with
    ⟨e | bytes₁, script₁⟩ <;> rw [hbuild] at h <;> cases h
  exact ⟨b₁, machine, rfl, hcompiler ▸ hready.machine, hready.machine, rfl, hbuild⟩

/-- A build with linking builds the linked script. -/
theorem exists_build_of_linking
    (hconfigure : b.configure (configFor script triple fileType) = .ok b₁)
    (hmachine : b₁.compiler.machine = some machine)
    (hloaded : (b.loaded.run w).1 = .ok libraries)
    (hselect : Library.select? libraries script.library = some library) :
    let again := ((b.withLinking true).buildBytes script triple fileType : StateM ω _).run w
    let linked := script.link library
    match linked.module.verify with
    | .error _ => again.1.1 = .error (.compile .badModule)
    | .ok () =>
      let built := linked.build ExportTable.entryPoints machine b.compiler.lto
      again.1.1 = built.1.mapError .compile ∧ again.1.2.1 = built.2 := by
  have hlinking := configure_withLinking (configFor script triple fileType) b true
  rw [hconfigure] at hlinking
  obtain ⟨-, -, hb₁⟩ := of_configure hconfigure
  let linking := b₁.withLinking true
  let ready : Builder := { linking with libraries := some libraries }
  have hloaded₁ : linking.loaded.run w = (.ok libraries, (b.loaded.run w).2) := by
    have hsame : (linking.loaded : StateM ω _) = b.loaded := by
      simp only [linking, loaded]
      rw [hb₁]
      rfl
    rw [hsame]
    exact Prod.ext hloaded rfl
  have hbegin (t : Sink.Stream Bytes) :
      (begin triple fileType).exec script (b.withLinking true) t w =
        (.ok ready.compiler, script.link library, ready, t, (b.loaded.run w).2) := by
    have hlinks : linking.linking = true := rfl
    rw [exec_begin_of_ok hlinking, if_pos hlinks, exec_link_of_ok hloaded₁, hselect]
  obtain ⟨⟨machine', hready⟩, hrun⟩ := run_buildBytes_of_begin (hbegin { writer := [] })
  obtain rfl : machine = machine' := Option.some.inj (hmachine.symm.trans hready.machine)
  have hlto : ready.compiler.lto = b.compiler.lto := by
    rw [show ready.compiler = b₁.compiler from rfl, hb₁]
  have hlinked : ready.linked script = script.link library := by
    have hlibrary : ready.libraryFor script = some library := hselect
    rw [linked, hlibrary]
  rw [run_buildBytes_of_ready hready, hlinked, hlto] at hrun
  dsimp only
  rw [hrun]
  rcases (script.link library).module.verify with defect | ⟨⟩
  · rfl
  · rcases (script.link library).build ExportTable.entryPoints machine b.compiler.lto with
      ⟨e | bytes, left⟩
    · exact ⟨rfl, rfl⟩
    · exact ⟨rfl, rfl⟩

/-- A script that was built without linking, with whole-program optimization, is built to the same
bytes with linking, and the same script is left, unless it clashes with the library or the library
has the name of a wrapper.  If it clashes, it is not compiled; and where a wrapper is not made, the
bytes are not the same. -/
theorem buildBytes_link_unneeded (b b' : Builder) (script script' : Script) (triple : String)
    (fileType : FileType) (machine : Machine) (libraries : List Library) (library : Library)
    (bytes : Bytes) (w w' : ω) (hlto : b.compiler.lto)
    (hbuild : ((b.withLinking false).buildBytes script triple fileType : StateM ω _).run w =
      ((.ok bytes, script', b'), w'))
    (hmachine : b'.compiler.machine = some machine)
    (hloaded : (b.loaded.run w).1 = .ok libraries)
    (hselect : Library.select? libraries script.library = some library)
    (hverified : library.module.verify = .ok ()) (hinternal : library.module.externalNames = []) :
    let clashes := script.module.ClashesWith library.module
    let taken := ∃ table, script.exports = some table ∧
      library.module.TakesWrapper script.module machine table.kernels
    let again := ((b.withLinking true).buildBytes script triple fileType : StateM ω _).run w
    (clashes → again.1.1 = .error (.compile .badModule)) ∧
      (¬ clashes → ¬ taken → again.1.1 = .ok bytes ∧ again.1.2.1 = script') ∧
      (taken → again.1.1 ≠ .ok bytes) := by
  obtain ⟨b₁, machine', hconfigure, hmachine₁, hmachine', hverify, hcompiled⟩ :=
    build_of_not_linking hbuild
  obtain rfl : machine = machine' := Option.some.inj (hmachine.symm.trans hmachine')
  rw [hlto] at hcompiled
  have hagain := exists_build_of_linking hconfigure hmachine₁ hloaded hselect
  have hclash := Module.verify_link_iff hverify hverified
  obtain ⟨hsame, hother⟩ := Script.build_link_unneeded hverify hverified hinternal hcompiled
  dsimp only at hagain
  rw [hlto, show (script.link library).module = script.module.link library.module from rfl]
    at hagain
  intro clashes taken again
  rcases hlinked : (script.module.link library.module).verify with defect | ⟨⟩ <;>
    rw [hlinked] at hagain hclash
  · have hclashes : clashes := by
      by_contra hnot
      cases hclash.2 hnot
    exact ⟨fun _ => hagain, fun hnot => absurd hclashes hnot, fun _ => by rw [hagain]; nofun⟩
  · have hfits : ¬ clashes := hclash.1 rfl
    obtain ⟨hresult, hleft⟩ := hagain
    refine ⟨fun hclashes => absurd hclashes hfits, fun _ htaken => ?_, fun htaken heq => ?_⟩
    · have hbuilt : (script.link library).build ExportTable.entryPoints machine true =
          (.ok bytes, script') := hsame htaken
      rw [hbuilt] at hresult hleft
      exact ⟨hresult, hleft⟩
    · rw [heq] at hresult
      refine hother htaken ?_
      rcases hbuilt : ((script.link library).build ExportTable.entryPoints machine true).1 with
        e | bytes' <;> rw [hbuilt] at hresult <;> cases hresult
      exact hbuilt

/-- A script with a hidden function that has a name of the library, and with a kernel. -/
def stepping : Script where
  module :=
    { id := "stepping"
      funcs := [{ name := "step", linkage := .internal },
                { name := "scale", params := 1, results := 1,
                  body := [.call "step", .localGet 0] }] }
  exports := some { kernels := [⟨"scale", ⟨true, true, false⟩⟩] }

/-- The library that has a function of this name too, and one that calls it, adds nothing to what is
built for this script. -/
theorem buildBytes_link_unneeded_stepping :
    ∃ bytes script' b' w',
      (((having chained).withLinking false).buildBytes stepping "wasm32" .object :
        StateM Disk _).run {} = ((.ok bytes, script', b'), w') ∧
      script'.module.names = ["step", "scale", "scale.expand"] ∧
      ¬ stepping.module.ClashesWith chained.module ∧
      let again := (((having chained).withLinking true).buildBytes stepping "wasm32" .object :
        StateM Disk _).run {}
      again.1.1 = .ok bytes ∧ again.1.2.1 = script' := by
  have hfacts :
      let alone := ((((having chained).withLinking false).buildBytes stepping "wasm32" .object :
        StateM Disk _).run {}).1
      alone.1.isOk ∧ alone.2.1.module.names = ["step", "scale", "scale.expand"] ∧
        alone.2.2.compiler.machine.isSome ∧ stepping.module.verify = .ok () ∧
        chained.module.verify = .ok () ∧ chained.module.externalNames = [] ∧
        (stepping.module.link chained.module).verify = .ok () ∧
        chained.module.defines "scale.expand" = false := by
    decide +kernel
  rcases hbuild : (((having chained).withLinking false).buildBytes stepping "wasm32" .object :
    StateM Disk _).run {} with ⟨⟨e | bytes, script', b'⟩, w'⟩ <;> rw [hbuild] at hfacts
  · cases hfacts.1
  obtain ⟨-, hnames, hmachine, hverify, hverified, hinternal, hlinked, hfree⟩ := hfacts
  obtain ⟨machine, hmachine⟩ := Option.isSome_iff_exists.1 hmachine
  have hfits := (Module.verify_link_iff hverify hverified).1 hlinked
  have hloaded : (((having chained).loaded : StateM Disk _).run {}).1 = .ok [chained] := rfl
  have hselect : Library.select? [chained] stepping.library = some chained := by decide
  have hagain := buildBytes_link_unneeded (having chained) b' stepping script' "wasm32" .object
    machine [chained] chained bytes ({} : Disk) w' rfl hbuild hmachine hloaded hselect hverified
    hinternal
  refine ⟨bytes, script', b', w', rfl, hnames, hfits, hagain.2.1 hfits ?_⟩
  rintro ⟨table, htable, -, k, hk, -, hdefined⟩
  cases htable
  cases List.mem_singleton.1 hk
  cases hfree.symm.trans hdefined

/-- A script with nothing but a variable, which has the name of a function of the library. -/
def exposing : Script where
  module := { id := "exposing", globals := [{ name := "step", init := 1 }] }
  exports := some { vars := ["step"] }

/-- A library with the wrapper of a kernel. -/
def scaling : Library where
  name := "clcore"
  path := "clcore.rsir"
  module :=
    { id := "clcore"
      funcs := [{ name := "scale.expand", linkage := .internal, params := 6 }] }

/-- Linking the one script brings a function that calls its variable, and then it is not compiled
any more; linking the other one brings a hidden wrapper, and then none is made and shown. -/
theorem buildBytes_link_needless :
    let alone (b : Builder) (script : Script) :=
      (((b.withLinking false).buildBytes script "wasm32" .assembly : StateM Disk _).run {}).1
    let linked (b : Builder) (script : Script) :=
      (((b.withLinking true).buildBytes script "wasm32" .assembly : StateM Disk _).run {}).1
    (chained.module.verify = .ok () ∧ chained.module.externalNames = [] ∧
      (alone (having chained) exposing).1.isOk ∧
      (linked (having chained) exposing).1 = .error (.compile .badModule)) ∧
    (scaling.module.verify = .ok () ∧ scaling.module.externalNames = [] ∧
      (alone (having scaling) stepping).1.isOk ∧
      (linked (having scaling) stepping).1 =
        .ok (utf8 "; target: wasm32\n; opt: 3\nmodule \"stepping\"\n") ∧
      (linked (having scaling) stepping).1 ≠ (alone (having scaling) stepping).1) := by
  refine ⟨⟨?_, ?_, ?_, ?_⟩, ?_, ?_, ?_, ?_, ?_⟩ <;> decide +kernel

end Builder

end ComputeScript
