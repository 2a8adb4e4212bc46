import ComputeScript.Proofs.Compile.Stages
import ComputeScript.Proofs.Eliminate
import ComputeScript.Proofs.Expand
import ComputeScript.Proofs.Fold.Soundness

/-!
# Compilation keeps the meaning of a script

A function has the same calls in two modules (`Module.SameCalls`) if, from every memory and all
values of the globals, its calls come to the same endings with the same memory and the same values
of the globals that the second module has.  Every pass keeps the calls of what it keeps, so each
stage does, and `compile_sameCalls` says so of a whole compilation: whatever is left of a script's
functions does what it did in the script, and also diverges where it did.
-/

namespace ComputeScript

namespace Module

/-- The calls of a function come to the same in both modules, as far as the second one shows. -/
structure SameCalls (m m' : Module) (name : String) : Prop where
  globals : ∀ n ∈ m'.globals.map Global.name, n ∈ m.globals.map Global.name
  forward : ∀ {arguments memory values e t},
    m.Ends name arguments (m.store memory values) e t →
      ∃ t', m'.Ends name arguments (m'.store memory values) e t' ∧
        Store.AgreeOn (· ∈ m'.globals.map Global.name) t t'
  backward : ∀ {arguments memory values e t'},
    m'.Ends name arguments (m'.store memory values) e t' →
      ∃ t, m.Ends name arguments (m.store memory values) e t ∧
        Store.AgreeOn (· ∈ m'.globals.map Global.name) t t'

namespace SameCalls

variable {m m' m'' : Module} {name : String}

theorem trans (h : m.SameCalls m' name) (h' : m'.SameCalls m'' name) : m.SameCalls m'' name where
  globals n hn := h.globals n (h'.globals n hn)
  forward hends := by
    obtain ⟨t', hends', hmemory, hagree⟩ := h.forward hends
    obtain ⟨t'', hends'', hmemory', hagree'⟩ := h'.forward hends'
    exact ⟨t'', hends'', hmemory.trans hmemory', fun n hn =>
      (hagree n (h'.globals n hn)).trans (hagree' n hn)⟩
  backward hends := by
    obtain ⟨t', hends', hmemory', hagree'⟩ := h'.backward hends
    obtain ⟨t, hends'', hmemory, hagree⟩ := h.backward hends'
    exact ⟨t, hends'', hmemory.trans hmemory', fun n hn =>
      (hagree n (h'.globals n hn)).trans (hagree' n hn)⟩

theorem diverges_iff (h : m.SameCalls m' name) {arguments : List Int32} {memory : Memory}
    {values : String → Int32} :
    m.Diverges name arguments (m.store memory values) ↔
      m'.Diverges name arguments (m'.store memory values) := by
  constructor
  · intro hd e t' hends
    obtain ⟨t, hends', -⟩ := h.backward hends
    exact hd e t hends'
  · intro hd e t hends
    obtain ⟨t', hends', -⟩ := h.forward hends
    exact hd e t' hends'

/-- Modules with the same globals in which the calls of a function end alike. -/
theorem of_ends_iff (hglobals : m'.globals.map Global.name = m.globals.map Global.name)
    (h : ∀ {arguments s e t}, m'.Ends name arguments s e t ↔ m.Ends name arguments s e t) :
    m.SameCalls m' name := by
  have hstore (memory : Memory) (values : String → Int32) :
      m'.store memory values = m.store memory values := by
    have hmap (m : Module) : (m.store memory values).globals =
        (m.globals.map Global.name).map fun n => (n, values n) := by
      simp only [store, List.map_map, Function.comp_def]
    exact congrArg (Store.mk memory) ((hmap m').trans (hglobals ▸ (hmap m).symm))
  exact {
    globals := fun n hn => hglobals ▸ hn
    forward := fun {_ memory values _ t} hends =>
      ⟨t, h.2 (hstore memory values ▸ hends), rfl, fun _ _ => rfl⟩
    backward := fun {_ memory values _ t} hends =>
      ⟨t, hstore memory values ▸ h.1 hends, rfl, fun _ _ => rfl⟩ }

end SameCalls

/-! ### Passes -/

variable {m m' : Module} {name : String}

theorem ends_congr (h : m'.procedure? = m.procedure?) {arguments : List Int32}
    {s t : Store String} {e : Ending} :
    m'.Ends name arguments s e t ↔ m.Ends name arguments s e t := by
  simp only [Ends, call, h]

theorem procedure?_internalize (keep : List String) (m : Module) :
    (m.internalize keep).procedure? = m.procedure? := by
  funext name
  simp only [procedure?, func?, internalize, List.find?_map, Option.map_map, Function.comp_def]
  rfl

theorem sameCalls_internalize (keep : List String) (m : Module) (name : String) :
    m.SameCalls (m.internalize keep) name := by
  refine .of_ends_iff ?_ (ends_congr (procedure?_internalize keep m))
  simp only [internalize, List.map_map, Function.comp_def]

theorem sameCalls_fold (m : Module) (name : String) : m.SameCalls m.fold name :=
  .of_ends_iff rfl m.fold_ends_iff

theorem isSome_func?_fold (m : Module) (name : String) :
    (m.fold.func? name).isSome = (m.func? name).isSome := by
  simp only [func?, fold, List.find?_map, Option.isSome_map, Function.comp_def]
  rfl

theorem sameCalls_expand {fixed : Bool} {kernels : List Kernel}
    (h : m.expand fixed kernels = .ok m') (hm : m.verify = .ok ()) (hname : m.defines name) :
    m.SameCalls m' name :=
  .of_ends_iff (by rw [globals_of_expand h]) (ends_iff_of_expand h hm hname)

theorem sameCalls_eliminate (h : (m.eliminate.func? name).isSome) :
    m.SameCalls m.eliminate name := by
  have hglobal (n : String) (hn : n ∈ m.eliminate.globals.map Global.name) :
      n ∈ m.live ∧ n ∈ m.globals.map Global.name := by
    obtain ⟨g, hg, rfl⟩ := List.mem_map.1 hn
    obtain ⟨hmem, hlive⟩ := List.mem_filter.1 hg
    exact ⟨List.contains_iff_mem.1 hlive, List.mem_map_of_mem hmem⟩
  have hname : name ∈ m.live := by
    obtain ⟨f, hf⟩ := Option.isSome_iff_exists.1 h
    obtain ⟨-, hlive⟩ := List.mem_filter.1 (List.mem_of_find?_eq_some hf)
    exact name_of_func? hf ▸ List.contains_iff_mem.1 hlive
  exact {
    globals := fun n hn => (hglobal n hn).2
    forward := fun {_ memory values _ _} hends => by
      obtain ⟨t', ht, hends'⟩ :=
        hends.eliminate hname (m.agreeOn_store_restrict m.live memory values)
      exact ⟨t', hends', ht.1, fun n hn => ht.2 n (hglobal n hn).1⟩
    backward := fun {_ memory values _ _} hends => by
      obtain ⟨t, ht, hends'⟩ :=
        hends.of_eliminate hname (m.agreeOn_store_restrict m.live memory values)
      exact ⟨t, hends', ht.1, fun n hn => ht.2 n (hglobal n hn).1⟩ }

end Module

/-! ### Stages -/

namespace Script

variable {entryPoints : List String} {machine : Machine} {script script' : Script}
  {bytes : Bytes} {name : String}

theorem sameCalls_final (machine : Machine) (script : Script) (name : String) :
    script.module.SameCalls (script.final machine) name := by
  unfold final
  split_ifs
  · exact .of_ends_iff rfl Iff.rfl
  · exact script.module.sameCalls_fold name

theorem sameCalls_generate (h : script.generate machine = (.ok bytes, script')) :
    script.module.SameCalls script'.module name := by
  obtain ⟨-, -, rfl⟩ := of_generate h
  exact sameCalls_final machine script name

theorem isSome_func?_of_generate (h : script.generate machine = (.ok bytes, script'))
    (hname : (script'.module.func? name).isSome) : (script.module.func? name).isSome := by
  obtain ⟨-, -, rfl⟩ := of_generate h
  unfold final at hname
  split_ifs at hname
  · exact hname
  · rwa [Module.isSome_func?_fold] at hname

theorem sameCalls_optimize (h : script.optimize entryPoints machine = (.ok bytes, script'))
    (hm : script.module.verify = .ok ()) (hname : script.module.defines name)
    (hname' : (script'.module.func? name).isSome) :
    script.module.SameCalls script'.module name := by
  obtain ⟨table, module, -, hexpand, rfl⟩ := of_optimize h
  have hexpand' : script.module.SameCalls module name := by
    unfold Module.expandFor at hexpand
    split_ifs at hexpand
    · cases hexpand
      exact .of_ends_iff rfl Iff.rfl
    · exact Module.sameCalls_expand hexpand hm hname
  exact hexpand'.trans ((Module.sameCalls_internalize _ _ _).trans
    ((Module.sameCalls_fold _ _).trans (Module.sameCalls_eliminate hname')))

/-- The stages of a compilation keep the calls of every function that they keep. -/
theorem sameCalls_build {lto : Bool}
    (h : script.build entryPoints machine lto = (.ok bytes, script'))
    (hm : script.module.verify = .ok ()) (hname : script.module.defines name)
    (hname' : (script'.module.func? name).isSome) :
    script.module.SameCalls script'.module name := by
  obtain ⟨script₁, ⟨-, output, ho⟩ | ⟨-, rfl⟩, hg⟩ := of_build h
  · have hname₁ := isSome_func?_of_generate hg hname'
    exact (sameCalls_optimize ho hm hname hname₁).trans (sameCalls_generate hg)
  · exact sameCalls_generate hg

end Script

/-! ### Compilations -/

namespace Compiler

theorem exists_of_run_bind {ω α β : Type} {x : StateM ω α} {f : α → StateM ω β} {w : ω}
    {r : β × ω} (h : (x >>= f).run w = r) : ∃ a w₁, x.run w = (a, w₁) ∧ (f a).run w₁ = r :=
  ⟨_, _, rfl, h⟩

/-- A compilation that succeeds has verified the module and gone through the stages. -/
theorem build_of_compile {ω : Type} {c : Compiler} {entryPoints : List String}
    {sink : Sink (StateM ω)} {script script' : Script} {w w' : ω}
    (h : ((c.compile (.script entryPoints) sink).run.run script).run w = ((.ok (), script'), w')) :
    ∃ machine bytes, c.machine = some machine ∧ script.module.verify = .ok () ∧
      script.build entryPoints machine c.lto = (.ok bytes, script') := by
  rw [run_compile] at h
  rcases hc : c.machine with _ | machine
  · rw [hc] at h
    cases h
  rw [hc] at h
  obtain ⟨st, w₁, -, h⟩ := exists_of_run_bind h
  split_ifs at h
  · obtain ⟨prepared, w₂, -, h⟩ := exists_of_run_bind h
    rcases prepared with e | ⟨⟩
    · cases h
    rcases hv : script.module.verify with defect | ⟨⟩
    · rw [hv] at h
      cases h
    rw [hv] at h
    rcases hb : script.build entryPoints machine c.lto with ⟨e | bytes, built⟩
    · rw [hb] at h
      cases h
    rw [hb] at h
    obtain ⟨hresult, -⟩ := Prod.mk.inj h
    obtain ⟨-, rfl⟩ := Prod.mk.inj hresult
    exact ⟨machine, bytes, rfl, rfl, hb⟩
  · cases h

/-- Compilation keeps the meaning of what it keeps: if a compilation under the hooks for scripts
succeeds, every function of the script that is left afterwards has the calls that it had, and
diverges where it did. -/
theorem compile_preserves {ω : Type} (c : Compiler) (entryPoints : List String)
    (sink : Sink (StateM ω)) (script script' : Script) (w w' : ω)
    (h : ((c.compile (.script entryPoints) sink).run.run script).run w = ((.ok (), script'), w'))
    (name : String) (hname : (script.module.func? name).isSome)
    (hname' : (script'.module.func? name).isSome) :
    script.module.SameCalls script'.module name ∧
      ∀ arguments memory values,
        script.module.Diverges name arguments (script.module.store memory values) ↔
          script'.module.Diverges name arguments (script'.module.store memory values) := by
  obtain ⟨machine, bytes, -, hverify, hbuild⟩ := build_of_compile h
  have hdefines : script.module.defines name := Bool.or_eq_true_iff.2 (.inl hname)
  have hsame := Script.sameCalls_build hbuild hverify hdefines hname'
  exact ⟨hsame, fun _ _ _ => hsame.diverges_iff⟩

/-- A script whose function `root` calls another one and whose function `idle` is never called. -/
def sample : Script where
  module :=
    { id := "sample"
      globals := [{ name := "count", init := 7 }]
      funcs :=
        [{ name := "idle" },
         { name := "root", results := 1, body := [.const 2, .const 3, .binary .mul, .call "add"] },
         { name := "add", params := 1, results := 1,
           body := [.localGet 0, .globalGet "count", .binary .add] }] }
  exports := some {}

/-- A compiler with a machine and whole-program optimization. -/
def sampleCompiler : Compiler where
  machine := some
    { triple := ⟨"wasm32", "wasm32", "unknown", "unknown", none⟩
      arch := .wasm32
      cpu := "generic"
      features := []
      optLevel := .o2
      fileType := .object }

/-- Compiling the sample drops a function and hides two symbols, and `root` has the calls that it
had. -/
theorem compile_preserves_sample :
    ∃ script' w',
      ((sampleCompiler.compile (.script ExportTable.entryPoints)
        (Sink.stream (Sink.memory (m := Id)))).run.run sample).run { writer := [] } =
          ((.ok (), script'), w') ∧
      (script'.module.func? "idle").isNone ∧ script'.module.externalNames = ["root"] ∧
      sample.module.SameCalls script'.module "root" := by
  have h : ((sampleCompiler.compile (.script ExportTable.entryPoints)
      (Sink.stream (Sink.memory (m := Id)))).run.run sample).run { writer := [] } =
        ((.ok (), _), _) :=
    Prod.ext (Prod.ext (by decide +kernel) rfl) rfl
  exact ⟨_, _, h, by decide +kernel, by decide +kernel,
    (compile_preserves sampleCompiler _ _ _ _ _ _ h "root" (by decide) (by decide +kernel)).1⟩

end Compiler

end ComputeScript
