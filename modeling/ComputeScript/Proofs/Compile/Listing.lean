import ComputeScript.Proofs.Compile.Artifact
import ComputeScript.Proofs.Library.Loading
import ComputeScript.Proofs.Module.RoundTrip
import ComputeScript.Proofs.Object.Reading
import ComputeScript.Proofs.Symbols
import ComputeScript.Proofs.Target

/-!
# Listings that are read back

A listing names its target and its optimization level in two comments and goes on with the text of
the module.  Every pass leaves a printable module printable, so the module that is left by a
compilation of a script that was read from a text is read back from the listing
(`Compiler.read_listing_of_compile`), provided that the triple keeps to the line of its comment.
A triple may go on in another line, and the listing is then not always read (`Compiler.brokenLine`).
-/

namespace ComputeScript

namespace Module

/-! ### Comments and a module -/

theorem not_mem_toString_toNat (level : OptLevel) :
    '\n' ∉ (toString level.toNat).toList := by
  cases level <;> decide

theorem spells_listing {triple : String} (level : OptLevel) {m : Module}
    (hline : '\n' ∉ triple.toList) (h : m.Printable) :
    Token.Spells Token.Anything (m.listing triple level) m.tokens := by
  have hlisting : m.listing triple level =
      (";" ++ (" target: " ++ triple) ++ "\n") ++
        ((";" ++ (" opt: " ++ toString level.toNat) ++ "\n") ++ m.text) := by
    have htarget : ("; target: " : String) = ";" ++ " target: " := rfl
    have hopt : ("\n; opt: " : String) = "\n" ++ ";" ++ " opt: " := rfl
    change "; target: " ++ triple ++ "\n; opt: " ++ toString level.toNat ++ "\n" ++ m.text = _
    rw [htarget, hopt]
    simp only [String.append_assoc]
  have htriple : '\n' ∉ (" target: " ++ triple).toList := by
    rw [String.toList_append, List.mem_append]
    exact not_or.2 ⟨by decide, hline⟩
  have hlevel : '\n' ∉ (" opt: " ++ toString level.toNat).toList := by
    rw [String.toList_append, List.mem_append]
    exact not_or.2 ⟨by decide, not_mem_toString_toNat level⟩
  rw [hlisting]
  exact (Token.spells_comment htriple).then ((Token.spells_comment hlevel).then (spells_text h))

/-! ### Passes -/

namespace Printable

variable {m m' : Module} {machine : Machine} {kernels : List Kernel} {fixed : Bool}

theorem internalize (h : m.Printable) (keep : List String) : (m.internalize keep).Printable where
  id := h.id
  globals := List.forall_mem_map.2 h.globals
  funcs := List.forall_mem_map.2 h.funcs
  references := List.forall_mem_map.2 h.references

theorem fold (h : m.Printable) : m.fold.Printable where
  id := h.id
  globals := h.globals
  funcs := List.forall_mem_map.2 h.funcs
  references := List.forall_mem_map.2 fun f hf => by
    rw [Func.references_fold]
    exact h.references f hf

theorem eliminate (h : m.Printable) : m.eliminate.Printable where
  id := h.id
  globals g hg := h.globals g (List.mem_filter.1 hg).1
  funcs f hf := h.funcs f (List.mem_filter.1 hf).1
  references f hf := h.references f (List.mem_filter.1 hf).1

/-- A wrapper has the name of a function with some name characters behind it, and it refers to this
function only. -/
theorem expand (h : m.Printable) (hexpand : m.expand fixed kernels = .ok m') : m'.Printable := by
  obtain ⟨hfault, rfl⟩ := expand_eq_ok_iff.1 hexpand
  have hname (k : Kernel) (hk : k ∈ m.unexpanded kernels) : Token.IsSymbolName k.name := by
    obtain ⟨f, hf, -⟩ := Kernel.fault?_eq_none_iff.1 (hfault k hk)
    rw [← name_of_func? hf]
    exact h.funcs f (List.mem_of_find?_eq_some hf)
  have hsuffix : ".expand".toList.all Token.isNameChar = true := rfl
  refine ⟨h.id, h.globals, List.forall_mem_append.2 ⟨h.funcs, ?_⟩,
    List.forall_mem_append.2 ⟨h.references, ?_⟩⟩
  · refine List.forall_mem_map.2 fun k hk => ⟨fun hempty => ?_, fun c hc => ?_⟩
    · exact absurd (congrArg String.toList hempty) (by simp [Kernel.wrapper, Kernel.wrapperName])
    · rcases List.mem_append.1 (String.toList_append ▸ hc) with hc | hc
      · exact (hname k hk).2 c hc
      · exact List.all_eq_true.1 hsuffix c hc
  · refine List.forall_mem_map.2 fun k hk name hmem => ?_
    have hself : name ∈ [k.name] := k.references_wrapperBody fixed ▸ hmem
    rw [List.mem_singleton.1 hself]
    exact hname k hk

theorem expandFor (h : m.Printable) (hexpand : m.expandFor machine kernels = .ok m') :
    m'.Printable := by
  unfold Module.expandFor at hexpand
  split_ifs at hexpand
  · cases hexpand
    exact h
  · exact h.expand hexpand

end Printable

end Module

/-! ### Compilations -/

namespace Script

variable {entryPoints : List String} {machine : Machine} {lto : Bool} {script script' : Script}
  {bytes : Bytes}

theorem printable_final (machine : Machine) (h : script.module.Printable) :
    (script.final machine).Printable := by
  unfold final
  split_ifs
  · exact h
  · exact h.fold

theorem printable_build (h : script.build entryPoints machine lto = (.ok bytes, script'))
    (hprintable : script.module.Printable) : script'.module.Printable := by
  obtain ⟨script₁, hstage, hg⟩ := of_build h
  obtain ⟨-, -, rfl⟩ := of_generate hg
  refine printable_final machine ?_
  obtain ⟨-, output, ho⟩ | ⟨-, rfl⟩ := hstage
  · obtain ⟨table, module, -, hexpand, rfl⟩ := of_optimize ho
    exact (((hprintable.expandFor hexpand).internalize _).fold).eliminate
  · exact hprintable

/-- A build for a listing emits the listing of the module that it leaves. -/
theorem listing_of_build (h : script.build entryPoints machine lto = (.ok bytes, script'))
    (hfile : machine.fileType = .assembly) :
    bytes = utf8 (script'.module.listing machine.triple.text machine.optLevel) := by
  obtain ⟨script₁, -, hg⟩ := of_build h
  obtain ⟨-, hemit, rfl⟩ := of_generate hg
  rw [Machine.emit, hfile] at hemit
  cases hemit
  rfl

end Script

namespace Compiler

/-- If a script that was read from a text is compiled to a listing, for a target whose triple does
not go on in another line, then what is written into the sink is a text, and the module that is read
from it is the one that is left of the script. -/
theorem read_listing_of_compile {ω : Type} (c : Compiler) (config : Config) (machine : Machine)
    (entryPoints : List String) (sink : Sink (StateM ω)) (source : String) (script script' : Script)
    (w w' : ω) (hread : Script.read source = .ok script)
    (hcreate : Machine.create config = .ok machine) (hfile : config.fileType = .assembly)
    (hmachine : c.machine = some machine) (hline : '\n' ∉ machine.triple.text.toList)
    (h : ((c.compile (.script entryPoints) sink).run.run script).run w = ((.ok (), script'), w')) :
    ∃ bytes text w₁, c.artifact entryPoints script = some bytes ∧
      (sink.write bytes).run.run w₁ = (.ok (), w') ∧
      Library.textOf bytes = .ok text ∧ Module.read text = .ok script'.module := by
  obtain ⟨machine', bytes, w₁, hmachine', -, hbuild, hartifact, hwrite⟩ := artifact_of_compile h
  obtain rfl := Option.some.inj (hmachine'.symm.trans hmachine)
  have hprintable : script.module.Printable :=
    Module.printable_of_read (show Module.read source = _ by rw [Module.read, hread]; rfl)
  have hlisting := Script.listing_of_build hbuild ((Machine.of_create hcreate).2.2.trans hfile)
  refine ⟨bytes, _, w₁, hartifact, hwrite, ?_, Module.read_of_spells
    (Module.spells_listing machine'.optLevel hline (Script.printable_build hbuild hprintable))⟩
  rw [hlisting, Library.textOf_utf8]

/-- A text with a kernel and with something to fold and to eliminate. -/
def shifting : String :=
  "export foreach shift 3 func @shift(1) -> 1 \x7b local.get 0 i32.const 2 i32.eqz i32.shl \x7d " ++
    "internal func @idle(0) \x7b \x7d"

/-- The script of that text. -/
def shiftingScript : Script where
  module :=
    { id := "script"
      funcs :=
        [{ name := "shift", params := 1, results := 1,
           body := [.localGet 0, .const 2, .eqz, .binary .shl] },
         { name := "idle", linkage := .internal }] }
  exports := some { kernels := [⟨"shift", ⟨true, true, false⟩⟩] }

/-- The machine that makes listings for a triple of the architecture that needs wrappers. -/
def listingMachine (triple : Triple) : Machine where
  triple
  arch := .wasm32
  cpu := "generic"
  features := []
  optLevel := .o3
  fileType := .assembly

/-- The listing of that script, for a target given with blanks around it, is read back, with a
wrapper and without what is idle. -/
theorem read_listing_of_compile_shifting :
    ∃ machine script' w' bytes text,
      Script.read shifting = .ok shiftingScript ∧
      Machine.create { triple := " wasm32-unknown\n", fileType := .assembly } = .ok machine ∧
      ((compile { machine := some machine } (.script ExportTable.entryPoints)
        (Sink.stream (Sink.memory (m := Id)))).run.run shiftingScript).run { writer := [] } =
          ((.ok (), script'), w') ∧
      script'.module.names = ["shift", "shift.expand"] ∧
      artifact { machine := some machine } ExportTable.entryPoints shiftingScript = some bytes ∧
      Library.textOf bytes = .ok text ∧ Module.read text = .ok script'.module := by
  have hread : Script.read shifting = .ok shiftingScript := by decide +kernel
  let machine := listingMachine ⟨"wasm32-unknown", "wasm32", "unknown", "unknown", none⟩
  have hcreate : Machine.create { triple := " wasm32-unknown\n", fileType := .assembly } =
      .ok machine := by decide +kernel
  have h : ((compile { machine := some machine } (.script ExportTable.entryPoints)
      (Sink.stream (Sink.memory (m := Id)))).run.run shiftingScript).run { writer := [] } =
        ((.ok (), _), _) :=
    Prod.ext (Prod.ext (by decide +kernel) rfl) rfl
  obtain ⟨bytes, text, -, hartifact, -, htext, hmodule⟩ := read_listing_of_compile
    { machine := some machine } _ machine _ _ shifting _ _ _ _ hread hcreate rfl rfl
    (by decide +kernel) h
  exact ⟨machine, _, _, bytes, text, hread, hcreate, h, by decide +kernel, hartifact, htext,
    hmodule⟩

/-- A triple that is accepted and has a line end in it. -/
def brokenLine : Triple := ⟨"wasm32-\nfoo", "wasm32", "\nfoo", "unknown", none⟩

/-- For that triple not even the listing of an empty script is read: the second line of the triple
is not in the comment. -/
theorem listing_of_brokenLine_not_read :
    ∃ script script' w' bytes text,
      Script.read "" = .ok script ∧
      Machine.create { triple := "wasm32-\nfoo", fileType := .assembly } =
        .ok (listingMachine brokenLine) ∧
      ((compile { machine := some (listingMachine brokenLine) } (.script ExportTable.entryPoints)
        (Sink.stream (Sink.memory (m := Id)))).run.run script).run { writer := [] } =
          ((.ok (), script'), w') ∧
      artifact { machine := some (listingMachine brokenLine) } ExportTable.entryPoints script =
        some bytes ∧
      Library.textOf bytes = .ok text ∧
      Module.read text = .error (.parse (.fault 18 (.topLevel (.ident "foo")))) := by
  obtain ⟨script', w', h, hmodule⟩ : ∃ script' w',
      ((compile { machine := some (listingMachine brokenLine) } (.script ExportTable.entryPoints)
        (Sink.stream (Sink.memory (m := Id)))).run.run (.ofItems [])).run { writer := [] } =
          ((.ok (), script'), w') ∧
      Module.read (script'.module.listing brokenLine.text .o3) =
        .error (.parse (.fault 18 (.topLevel (.ident "foo")))) :=
    ⟨_, _, Prod.ext (Prod.ext (by decide +kernel) rfl) rfl, by decide +kernel⟩
  obtain ⟨machine, bytes, -, hmachine, -, hbuild, hartifact, -⟩ := artifact_of_compile h
  obtain rfl := Option.some.inj hmachine
  refine ⟨_, script', w', bytes, _, by decide +kernel, by decide +kernel, h, hartifact, ?_, hmodule⟩
  rw [Script.listing_of_build hbuild rfl, Library.textOf_utf8]
  rfl

end Compiler

end ComputeScript
