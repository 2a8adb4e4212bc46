import ComputeScript.Proofs.Compile.Dispatch
import ComputeScript.Proofs.Link

/-!
# Compiling what was compiled

What whole-program optimization leaves is settled (`Module.Settled`): everything in it is reachable
from the names that may stay external, and nothing is left to fold.  Optimizing a settled module
again gives it back, even if it was linked with a library that is all internal
(`Module.Settled.reachablePart_link`).  So a script that was built and is linked once more is built
to the same bytes and the same script (`Script.build_link`).
-/

namespace ComputeScript

namespace Module

variable {m m' library : Module} {keep : List String} {name : String} {kernels : List Kernel}

/-! ### Settled modules -/

/-- What whole-program optimization leaves, where the names in `keep` may stay external. -/
structure Settled (m : Module) (keep : List String) : Prop where
  verified : m.verify = .ok ()
  kept : ∀ name ∈ m.externalNames, name ∈ keep
  reachable : ∀ name ∈ m.names, m.Reachable name
  folded : ∀ f ∈ m.funcs, f.fold = f

theorem Settled.fold_eq (h : m.Settled keep) : m.fold = m := by
  have hfuncs : m.funcs.map Func.fold = m.funcs := by
    rw [List.map_congr_left h.folded, List.map_id']
  rw [fold, hfuncs]

/-- Optimization of a module that verifies leaves a settled module. -/
theorem settled_eliminate (h : m.verify = .ok ()) (keep : List String) :
    (m.internalize keep).fold.eliminate.Settled keep := by
  refine ⟨verify_eliminate (verify_fold (verify_internalize keep h)), fun name hname => ?_,
    fun name hname => ?_, fun f hf => ?_⟩
  · rw [mem_externalNames_eliminate_iff, externalNames_fold,
      mem_externalNames_internalize_iff] at hname
    exact hname.2
  · rw [← map_fst_symbols, Module.eliminate, symbols_restrict] at hname
    obtain ⟨symbol, hsymbol, rfl⟩ := List.mem_map.1 hname
    have hlive := List.contains_iff_mem.1 (List.mem_filter.1 hsymbol).2
    exact ((mem_live_iff _ _).1 hlive).eliminate
  · obtain ⟨f, -, rfl⟩ := List.mem_map.1 (List.mem_of_mem_filter hf)
    exact f.fold_fold

/-! ### Linking a settled module -/

section

variable {roots : String → Prop} (h : m.Settled keep) (hlibrary : library.verify = .ok ())
  (hroots : ∀ name, roots name ↔ name ∈ m.externalNames)

include h hlibrary hroots

/-- What is reachable after linking, from what was external before, is what was there before. -/
theorem Settled.reachableFrom_link_iff :
    (m.link library).ReachableFrom roots name ↔ m.defines name := by
  have hdistinct := (verify_eq_ok_iff.1 hlibrary).1
  have hnames := (verify_eq_ok_iff.1 h.verified).1
  constructor
  · intro hreachable
    induction hreachable with
    | root hroot =>
      exact defines_iff.2 (mem_names_of_mem_externalNames ((hroots _).1 hroot))
    | @reference f target hf _ ht ih =>
      have hown : f ∈ m.funcs :=
        ((mem_funcs_link hdistinct).1 hf).resolve_right fun hcopied => hcopied.2 ih
      exact defines_of_verify h.verified (func?_of_mem hnames hown) target ht
  · intro hname
    have hreachable := h.reachable name (defines_iff.1 hname)
    clear hname
    induction hreachable with
    | external hexternal => exact .root ((hroots _).2 hexternal)
    | @reference name target _ ht ih =>
      rw [referencesOf] at ht
      rcases hf : m.func? name with _ | f <;> rw [hf] at ht
      · cases ht
      · have hmem := (mem_funcs_link hdistinct).2 (.inl (List.mem_of_find?_eq_some hf))
        exact .reference hmem (name_of_func? hf ▸ ih) ht

/-- Nothing of the library is reachable, and everything else is as it was. -/
theorem Settled.reachablePart_link : (m.link library).reachablePart roots = m := by
  classical
  have hdistinct := (verify_eq_ok_iff.1 hlibrary).1
  have hnames := (verify_eq_ok_iff.1 h.verified).1
  have hreachable (n : String) : decide ((m.link library).ReachableFrom roots n) = m.defines n := by
    rw [Bool.eq_iff_iff, decide_eq_true_iff, h.reachableFrom_link_iff hlibrary hroots]
  have hlinkage {n : String} {linkage : Linkage} (hsymbol : (n, linkage) ∈ m.symbols) :
      (if roots n then Linkage.external else .internal) = linkage := by
    have hiff := (hroots n).trans (mem_externalNames_iff_of_mem_symbols hnames hsymbol)
    cases linkage with
    | external => exact if_pos (hiff.2 rfl)
    | internal => exact if_neg fun hroot => by cases hiff.1 hroot
  have hown {α : Type} (nameOf : α → String) {as : List α} (has : ∀ a ∈ as, m.defines (nameOf a))
      (bs : List α) :
      (as ++ bs.filter fun b => !m.defines (nameOf b)).filter (fun a => m.defines (nameOf a)) =
        as := by
    rw [List.filter_append, List.filter_eq_self.2 has, List.filter_filter]
    simp
  have hglobals : m.globals.map (fun g =>
      { g with linkage := if roots g.name then .external else .internal }) = m.globals := by
    refine (List.map_congr_left fun g hg => ?_).trans (List.map_id' _)
    rw [hlinkage (List.mem_append_left _ (List.mem_map_of_mem hg))]
  have hfuncs : m.funcs.map (fun f =>
      { f with
        linkage := if roots f.name then .external else .internal
        body := (foldBody f.body).1 }) = m.funcs := by
    refine (List.map_congr_left fun f hf => ?_).trans (List.map_id' _)
    rw [hlinkage (List.mem_append_right _ (List.mem_map_of_mem hf))]
    exact h.folded f hf
  unfold reachablePart
  simp only [hreachable]
  rw [link_eq m hdistinct]
  dsimp only
  rw [hown Global.name fun _ => defines_of_mem_globals,
    hown Func.name fun _ => defines_of_mem_funcs, hglobals, hfuncs]

end

/-- Optimizing what a settled module and an internal library were linked to gives the settled module
back. -/
theorem Settled.eliminate_link (h : m.Settled keep) (hlibrary : library.verify = .ok ())
    (hinternal : library.externalNames = []) :
    ((m.link library).internalize keep).fold.eliminate = m := by
  have hdistinct := (verify_eq_ok_iff.1 hlibrary).1
  have hnames := (verify_eq_ok_iff.1 h.verified).1
  rw [eliminate_eq_reachablePart (nodup_names_link hnames library)]
  refine h.reachablePart_link hlibrary fun name => ?_
  rw [externalNames_link hdistinct hinternal, and_iff_left_iff_imp]
  exact h.kept name

/-! ### Wrappers -/

theorem symbols_of_expand {fixed : Bool} (h : m.expand fixed kernels = .ok m') :
    m'.symbols = m.symbols ++ (m.unexpanded kernels).map fun k => (k.wrapperName, .external) := by
  obtain ⟨-, rfl⟩ := expand_eq_ok_iff.1 h
  simp only [symbols, List.map_append, List.map_map, List.append_assoc]
  rfl

/-- With its wrappers, a module shows a wrapper of every kernel of which it did not hide one. -/
theorem wrapperName_mem_externalNames {fixed : Bool} (h : m.expand fixed kernels = .ok m')
    {k : Kernel} (hk : k ∈ kernels) (hhidden : (k.wrapperName, Linkage.internal) ∉ m.symbols) :
    k.wrapperName ∈ m'.externalNames := by
  rw [mem_externalNames_iff, symbols_of_expand h, List.mem_append, List.mem_map]
  by_cases hdefined : m.defines k.wrapperName
  · rw [defines_iff, ← map_fst_symbols] at hdefined
    obtain ⟨⟨name, linkage⟩, hsymbol, rfl⟩ := List.mem_map.1 hdefined
    cases linkage with
    | external => exact .inl hsymbol
    | internal => exact absurd hsymbol hhidden
  · exact .inr ⟨k, mem_unexpanded.2 ⟨hk, Bool.eq_false_iff.2 hdefined⟩, rfl⟩

theorem expandFor_eq_self {machine : Machine}
    (h : machine.native = false → ∀ k ∈ kernels, m.defines k.wrapperName) :
    m.expandFor machine kernels = .ok m := by
  unfold expandFor
  split_ifs with hnative
  · rfl
  · have hnone : m.unexpanded kernels = [] :=
      List.filter_eq_nil_iff.2 fun k hk => by simp [h (Bool.eq_false_iff.2 hnative) k hk]
    rw [expand, hnone]
    simp

end Module

/-! ### Stages -/

namespace Script

variable {entryPoints : List String} {machine : Machine} {lto : Bool} {script script' : Script}
  {table : ExportTable} {library : Module} {bytes : Bytes}

/-- A build that succeeds has changed nothing of a script but its module. -/
theorem exists_module_of_build (h : script.build entryPoints machine lto = (.ok bytes, script')) :
    ∃ module, script' = { script with module } := by
  obtain ⟨script₁, ⟨-, output, ho⟩ | ⟨-, rfl⟩, hg⟩ := of_build h
  · obtain ⟨table, module, -, -, rfl⟩ := of_optimize ho
    exact ⟨_, (of_generate hg).2.2⟩
  · exact ⟨_, (of_generate hg).2.2⟩

theorem final_eq_self (h : script.module.fold = script.module) :
    script.final machine = script.module := by
  unfold final
  split_ifs
  · rfl
  · exact h

/-- Code is generated again for what code generation left. -/
theorem generate_again (h : script.generate machine = (.ok bytes, script')) :
    script'.generate machine = (.ok bytes, script') := by
  obtain ⟨htype, hemit, rfl⟩ := of_generate h
  have hfinal : final machine { script with module := script.final machine } =
      script.final machine := by
    unfold final
    split_ifs
    · rfl
    · exact script.module.fold_fold
  rw [generate, if_pos htype, hfinal, hemit]
  rfl

theorem verify_final (h : script.module.verify = .ok ()) :
    (script.final machine).verify = .ok () := by
  unfold final
  split_ifs
  · exact h
  · exact Module.verify_fold h

theorem names_final : (script.final machine).names = script.module.names := by
  unfold final
  split_ifs
  · rfl
  · exact script.module.names_fold

section

variable (hverify : script.module.verify = .ok ())
  (hdistinct : ∀ table, script.exports = some table → (table.kernels.map Kernel.name).Nodup)
  (hhidden : machine.native = false → ∀ table, script.exports = some table →
    ∀ k ∈ table.kernels, (k.wrapperName, Linkage.internal) ∉ script.module.symbols)
  (hlibrary : library.verify = .ok ()) (hinternal : library.externalNames = [])

include hverify hdistinct

/-- Optimization leaves a settled module. -/
theorem settled_of_optimize (h : script.optimize entryPoints machine = (.ok bytes, script'))
    (htable : script.exports = some table) :
    script'.module.Settled (table.preserved entryPoints machine.native) := by
  obtain ⟨table', module, htable', hexpand, rfl⟩ := of_optimize h
  cases htable.symm.trans htable'
  have hverified := Module.verify_expandFor (hdistinct table htable) hexpand hverify
  exact Module.settled_eliminate hverified _

include hhidden hlibrary hinternal

/-- What optimization leaves, once more linked with an internal library, is optimized to the same:
it has its wrappers, and nothing of the library is reachable. -/
theorem optimize_link (h : script.optimize entryPoints machine = (.ok bytes, script')) :
    optimize entryPoints machine { script' with module := script'.module.link library } =
      (.ok [], script') := by
  obtain ⟨table, module, htable, hexpand, hscript⟩ := of_optimize h
  have hsettled := settled_of_optimize hverify hdistinct h htable
  have hexports : script'.exports = some table := by rw [hscript, htable]
  have hwrappers (hnative : machine.native = false) (k : Kernel) (hk : k ∈ table.kernels) :
      (script'.module.link library).defines k.wrapperName := by
    have hkept := ExportTable.dispatchName_mem_preserved hk entryPoints machine.native
    rw [Module.expandFor, hnative, if_neg Bool.false_ne_true] at hexpand
    rw [hnative] at hkept hscript
    have hexternal : k.wrapperName ∈ script'.module.externalNames := by
      rw [hscript, Module.mem_externalNames_eliminate_iff, Module.externalNames_fold,
        Module.mem_externalNames_internalize_iff]
      exact ⟨Module.wrapperName_mem_externalNames hexpand hk (hhidden hnative table htable k hk),
        hkept⟩
    have hown : script'.module.defines k.wrapperName :=
      Module.defines_iff.2 (Module.mem_names_of_mem_externalNames hexternal)
    rw [Module.defines_link (Module.verify_eq_ok_iff.1 hlibrary).1, hown, Bool.true_or]
  simp only [optimize, hexports, Module.expandFor_eq_self hwrappers,
    hsettled.eliminate_link hlibrary hinternal]
  rw [← hexports]

/-- What a build of a script leaves, once more linked with an internal library that the script had
been linked with, is built to the same. -/
theorem build_link (hlinked : ∀ name ∈ library.names, script.module.defines name)
    (h : script.build entryPoints machine lto = (.ok bytes, script')) :
    script'.module.verify = .ok () ∧
      build entryPoints machine lto { script' with module := script'.module.link library } =
        (.ok bytes, script') := by
  obtain ⟨script₁, ⟨rfl, output, ho⟩ | ⟨rfl, rfl⟩, hg⟩ := of_build h
  · obtain ⟨table, -, htable, -⟩ := of_optimize ho
    have hsettled := settled_of_optimize hverify hdistinct ho htable
    obtain rfl : script' = script₁ := by
      rw [(of_generate hg).2.2, final_eq_self hsettled.fold_eq]
    rw [build, if_pos rfl, optimize_link hverify hdistinct hhidden hlibrary hinternal ho]
    exact ⟨hsettled.verified, hg⟩
  · obtain ⟨-, -, rfl⟩ := of_generate hg
    have hself : (script₁.final machine).link library = script₁.final machine := by
      refine Module.link_eq_self fun name hname => ?_
      rw [Module.defines_iff, names_final, ← Module.defines_iff]
      exact hlinked name hname
    dsimp only
    rw [hself, build, if_neg Bool.false_ne_true]
    exact ⟨verify_final hverify, generate_again hg⟩

end

end Script

end ComputeScript
