import ComputeScript.Pass.Internalize
import ComputeScript.Proofs.Eliminate
import ComputeScript.Proofs.Expand
import ComputeScript.Proofs.Fold.Rewriting

/-!
# Names and linkage

`Module.symbols` lists the names of a module together with their linkage.  Every pass maps, filters
or extends this list, so what a pass does to the names and to the external ones is read off it.
Where the names are pairwise distinct, a symbol has one linkage
(`mem_externalNames_iff_of_mem_symbols`) and a function is found under its name (`func?_of_mem`).
-/

namespace ComputeScript

namespace Module

/-- The names of all definitions with their linkage, globals first. -/
def symbols (m : Module) : List (String × Linkage) :=
  m.globals.map (fun g => (g.name, g.linkage)) ++ m.funcs.map fun f => (f.name, f.linkage)

variable {m m' : Module} {name : String} {keep : List String} {fixed : Bool} {kernels : List Kernel}

theorem map_fst_symbols (m : Module) : m.symbols.map Prod.fst = m.names := by
  simp only [symbols, names, List.map_append, List.map_map, Function.comp_def]

theorem mem_externalNames_iff : name ∈ m.externalNames ↔ (name, Linkage.external) ∈ m.symbols := by
  simp only [externalNames, symbols, Global.isExternal, Func.isExternal, List.mem_append,
    List.mem_map, List.mem_filter, beq_iff_eq, Prod.mk.injEq, and_comm, and_assoc]

/-- A symbol whose name is not defined twice has the linkage that it is listed with. -/
theorem mem_externalNames_iff_of_mem_symbols (hnodup : m.names.Nodup) {linkage : Linkage}
    (h : (name, linkage) ∈ m.symbols) : name ∈ m.externalNames ↔ linkage = .external := by
  rw [mem_externalNames_iff]
  constructor
  · intro hexternal
    have hsame := List.inj_on_of_nodup_map (map_fst_symbols m ▸ hnodup) h hexternal rfl
    exact congrArg Prod.snd hsame
  · rintro rfl
    exact h

theorem defines_iff : m.defines name ↔ name ∈ m.names := by
  rw [defines, Bool.or_eq_true, isSome_func?_iff, isSome_global?_iff, names, List.mem_append]
  exact or_comm

theorem defines_of_mem_globals {g : Global} (hg : g ∈ m.globals) : m.defines g.name :=
  defines_iff.2 (List.mem_append_left _ (List.mem_map_of_mem hg))

theorem defines_of_mem_funcs {f : Func} (hf : f ∈ m.funcs) : m.defines f.name :=
  defines_iff.2 (List.mem_append_right _ (List.mem_map_of_mem hf))

theorem mem_names_of_mem_externalNames (h : name ∈ m.externalNames) : name ∈ m.names :=
  map_fst_symbols m ▸ List.mem_map_of_mem (mem_externalNames_iff.1 h)

/-- A function whose name is not defined twice is found under it. -/
theorem func?_of_mem (hnodup : m.names.Nodup) {f : Func} (hf : f ∈ m.funcs) :
    m.func? f.name = some f := by
  obtain ⟨f', hf'⟩ : ∃ f', m.func? f.name = some f' :=
    Option.isSome_iff_exists.1 (List.find?_isSome.2 ⟨f, hf, beq_self_eq_true _⟩)
  have hsame := List.inj_on_of_nodup_map (List.nodup_append.1 hnodup).2.1
    (List.mem_of_find?_eq_some hf') hf (name_of_func? hf')
  rw [hf', hsame]

/-! ### Passes -/

theorem symbols_internalize (keep : List String) (m : Module) :
    (m.internalize keep).symbols =
      m.symbols.map fun s => (s.1, s.2.keepIf (keep.contains s.1)) := by
  simp only [symbols, internalize, List.map_append, List.map_map, Function.comp_def]

theorem symbols_fold (m : Module) : m.fold.symbols = m.symbols := by
  simp only [symbols, fold, Func.fold, List.map_map, Function.comp_def]

theorem symbols_restrict (names : List String) (m : Module) :
    (m.restrict names).symbols = m.symbols.filter fun s => names.contains s.1 := by
  simp only [symbols, restrict, List.filter_append, List.filter_map, Function.comp_def]

theorem func?_internalize (keep : List String) (m : Module) (name : String) :
    (m.internalize keep).func? name =
      (m.func? name).map fun f =>
        { f with linkage := f.linkage.keepIf (keep.contains f.name) } := by
  rw [func?, internalize, List.find?_map]
  rfl

theorem func?_fold (m : Module) (name : String) :
    m.fold.func? name = (m.func? name).map Func.fold := by
  rw [func?, fold, List.find?_map]
  rfl

theorem names_internalize (keep : List String) (m : Module) :
    (m.internalize keep).names = m.names := by
  rw [← map_fst_symbols, symbols_internalize, List.map_map, ← map_fst_symbols]
  rfl

theorem names_fold (m : Module) : m.fold.names = m.names := by
  rw [← map_fst_symbols, symbols_fold, map_fst_symbols]

theorem names_eliminate_sublist (m : Module) : m.eliminate.names.Sublist m.names := by
  rw [← map_fst_symbols, ← map_fst_symbols m, eliminate, symbols_restrict]
  exact List.filter_sublist.map _

theorem mem_externalNames_internalize_iff :
    name ∈ (m.internalize keep).externalNames ↔ name ∈ m.externalNames ∧ name ∈ keep := by
  rw [mem_externalNames_iff, mem_externalNames_iff, symbols_internalize, List.mem_map]
  constructor
  · rintro ⟨⟨n, linkage⟩, hmem, heq⟩
    obtain ⟨rfl, hlinkage⟩ := Prod.mk.inj heq
    by_cases hn : n ∈ keep
    · rw [List.contains_iff_mem.2 hn] at hlinkage
      obtain rfl : linkage = .external := hlinkage
      exact ⟨hmem, hn⟩
    · rw [Bool.eq_false_iff.2 (mt List.contains_iff_mem.1 hn)] at hlinkage
      cases hlinkage
  · rintro ⟨hmem, hn⟩
    exact ⟨_, hmem, by rw [List.contains_iff_mem.2 hn]; rfl⟩

theorem externalNames_fold (m : Module) : m.fold.externalNames = m.externalNames := by
  simp only [externalNames, fold, List.filter_map, List.map_map, Function.comp_def]
  rfl

theorem mem_externalNames_eliminate_iff :
    name ∈ m.eliminate.externalNames ↔ name ∈ m.externalNames := by
  rw [mem_externalNames_iff, mem_externalNames_iff, eliminate, symbols_restrict, List.mem_filter,
    List.contains_iff_mem, mem_live_iff, and_iff_left_iff_imp]
  exact fun h => .external (mem_externalNames_iff.2 h)

/-- Elimination keeps everything on the way to a reachable name. -/
theorem Reachable.eliminate (h : m.Reachable name) : m.eliminate.Reachable name := by
  induction h with
  | external h => exact .external (mem_externalNames_eliminate_iff.2 h)
  | @reference name target h ht ih =>
    have hfunc : m.eliminate.func? name = m.func? name :=
      restrict_func? m ((mem_live_iff m name).2 h)
    refine .reference ih ?_
    rwa [referencesOf, hfunc]

theorem unexpanded_eq_filter (m : Module) (kernels : List Kernel) :
    m.unexpanded kernels = kernels.filter fun k => k.wrapperName ∉ m.names := by
  refine List.filter_congr fun k _ => ?_
  rw [Bool.eq_iff_iff, Bool.not_eq_true', Bool.eq_false_iff, ne_eq, defines_iff, decide_eq_true_iff]

theorem names_of_expand (h : m.expand fixed kernels = .ok m') :
    m'.names = m.names ++ (m.unexpanded kernels).map Kernel.wrapperName := by
  obtain ⟨-, rfl⟩ := expand_eq_ok_iff.1 h
  simp only [names, List.map_append, List.map_map, List.append_assoc]
  rfl

theorem wrapperName_mem_names_of_expand (h : m.expand fixed kernels = .ok m') {k : Kernel}
    (hk : k ∈ kernels) : k.wrapperName ∈ m'.names := by
  rw [names_of_expand h, List.mem_append]
  rcases hdefined : m.defines k.wrapperName with _ | _
  · exact .inr (List.mem_map_of_mem (mem_unexpanded.2 ⟨hk, hdefined⟩))
  · exact .inl (defines_iff.1 hdefined)

/-- Wrappers clash exactly if two kernels that have none share a name. -/
theorem nodup_names_expand_iff (h : m.expand fixed kernels = .ok m') (hnodup : m.names.Nodup) :
    m'.names.Nodup ↔ ((m.unexpanded kernels).map Kernel.name).Nodup := by
  have hsuffix : Function.Injective fun name => name ++ ".expand" := fun name name' heq =>
    @Kernel.wrapperName_injective ⟨name, .empty⟩ ⟨name', .empty⟩ heq
  have hwrappers : ((m.unexpanded kernels).map Kernel.wrapperName).Nodup ↔
      ((m.unexpanded kernels).map Kernel.name).Nodup := by
    have hiff := List.nodup_map_iff hsuffix (l := (m.unexpanded kernels).map Kernel.name)
    rw [List.map_map] at hiff
    exact hiff
  have hnew : ∀ name ∈ m.names, ∀ name' ∈ (m.unexpanded kernels).map Kernel.wrapperName,
      name ≠ name' := by
    rintro name hname _ hwrapper rfl
    obtain ⟨k, hk, rfl⟩ := List.mem_map.1 hwrapper
    rw [unexpanded_eq_filter, List.mem_filter] at hk
    exact of_decide_eq_true hk.2 hname
  rw [names_of_expand h, List.nodup_append, hwrappers]
  exact ⟨fun hall => hall.2.1, fun hdistinct => ⟨hnodup, hdistinct, hnew⟩⟩

end Module

/-! ### References -/

theorem Folds.references {σ : Type} {code code' : List (Inst σ)} (h : Folds code code') :
    code'.filterMap Inst.reference? = code.filterMap Inst.reference? := by
  induction h with
  | binary code _ | eqz v code => rfl
  | cons inst _ ih => rw [List.filterMap_cons, List.filterMap_cons, ih]

/-- Folding a body keeps what it refers to. -/
theorem Func.references_fold (f : Func) : f.fold.references = f.references :=
  foldBody_invariant Folds.references f.body

/-- A wrapper refers to its kernel. -/
theorem Kernel.references_wrapperBody (fixed : Bool) (k : Kernel) :
    (k.wrapperBody fixed).filterMap Inst.reference? = [k.name] := by
  obtain ⟨name, takesIn, returnsOut, takesIndex⟩ := k
  cases fixed <;> cases takesIn <;> cases returnsOut <;> cases takesIndex <;> rfl

end ComputeScript
