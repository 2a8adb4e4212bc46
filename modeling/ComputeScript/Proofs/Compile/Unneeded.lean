import ComputeScript.Proofs.Compile.Listing
import ComputeScript.Proofs.Compile.Settled
import ComputeScript.Proofs.Eliminate.Parts
import ComputeScript.Proofs.Object.Contents

/-!
# Libraries that a script does not need

A module that verifies refers to nothing that a library adds to it, so whole-program optimization
leaves the same of the module and of the linked module, as long as both get the same wrappers.  They
do unless the library defines the name of one (`Module.TakesWrapper`): then this wrapper is not
made, and what is left is smaller, and so are the objects and the listings that are emitted for it
(`Module.Smaller`).  `Script.build_link_unneeded` says so of a build.
-/

namespace ComputeScript

namespace Module

variable {m m' library : Module} {machine : Machine} {kernels : List Kernel} {name : String}
  {keep : List String}

/-! ### Wrappers -/

/-- The module with a wrapper for every kernel of a list. -/
def addWrappers (kernels : List Kernel) (m : Module) : Module :=
  { m with funcs := m.funcs ++ kernels.map (Kernel.wrapper true) }

/-- The kernels for which a machine needs wrappers that the module does not define. -/
def toExpand (machine : Machine) (kernels : List Kernel) (m : Module) : List Kernel :=
  if machine.native then [] else m.unexpanded kernels

theorem mem_toExpand {k : Kernel} :
    k ∈ m.toExpand machine kernels ↔
      machine.native = false ∧ k ∈ kernels ∧ m.defines k.wrapperName = false := by
  unfold toExpand
  split_ifs with hnative
  · simp [hnative]
  · simp [hnative, mem_unexpanded]

theorem expandFor_eq_ok_iff :
    m.expandFor machine kernels = .ok m' ↔
      (∀ k ∈ m.toExpand machine kernels, k.fault? m = none) ∧
        m' = m.addWrappers (m.toExpand machine kernels) := by
  unfold expandFor toExpand
  split_ifs
  · simp [addWrappers, eq_comm (a := m)]
  · exact expand_eq_ok_iff

theorem defines_addWrappers :
    (m.addWrappers kernels).defines name ↔
      m.defines name ∨ name ∈ kernels.map Kernel.wrapperName := by
  rw [defines_iff, defines_iff, names, names, addWrappers, List.map_append, ← List.append_assoc,
    List.mem_append, List.map_map]
  rfl

theorem filter_globals_addWrappers (m : Module) (kernels : List Kernel) :
    (m.globals.filter fun g => (m.addWrappers kernels).defines g.name) = m.globals :=
  List.filter_eq_self.2 fun _ hg => defines_addWrappers.2 (.inl (defines_of_mem_globals hg))

theorem filter_funcs_addWrappers (m : Module) (kernels : List Kernel) :
    (m.funcs.filter fun f => (m.addWrappers kernels).defines f.name) = m.funcs :=
  List.filter_eq_self.2 fun _ hf => defines_addWrappers.2 (.inl (defines_of_mem_funcs hf))

theorem mem_externalNames_addWrappers :
    name ∈ (m.addWrappers kernels).externalNames ↔
      name ∈ m.externalNames ∨ name ∈ kernels.map Kernel.wrapperName := by
  have hwrappers : (kernels.map (Kernel.wrapper true)).filter Func.isExternal =
      kernels.map (Kernel.wrapper true) :=
    List.filter_eq_self.2 (List.forall_mem_map.2 fun _ _ => rfl)
  rw [externalNames, externalNames, addWrappers, List.filter_append, hwrappers, List.map_append,
    ← List.append_assoc, List.mem_append, List.map_map]
  rfl

/-- A module that verifies refers to itself only, and so it does with wrappers for its functions. -/
theorem closed_addWrappers (hverify : m.verify = .ok ())
    (hkernels : ∀ k ∈ kernels, m.defines k.name) :
    ∀ f ∈ (m.addWrappers kernels).funcs, ∀ target ∈ f.references,
      (m.addWrappers kernels).defines target := by
  intro f hf target ht
  rw [defines_addWrappers]
  rcases List.mem_append.1 hf with hf | hf
  · have hfound := func?_of_mem (verify_eq_ok_iff.1 hverify).1 hf
    exact .inl (defines_of_verify hverify hfound target ht)
  · obtain ⟨k, hk, rfl⟩ := List.mem_map.1 hf
    have hself : target ∈ [k.name] := k.references_wrapperBody true ▸ ht
    rw [List.mem_singleton.1 hself]
    exact .inl (hkernels k hk)

/-! ### Linking -/

/-- The library defines the name of a wrapper that a machine needs and the module does not
define. -/
def TakesWrapper (library m : Module) (machine : Machine) (kernels : List Kernel) : Prop :=
  machine.native = false ∧
    ∃ k ∈ kernels, ¬ m.defines k.wrapperName ∧ library.defines k.wrapperName

theorem takesWrapper_iff :
    library.TakesWrapper m machine kernels ↔
      ∃ k ∈ m.toExpand machine kernels, library.defines k.wrapperName := by
  simp only [TakesWrapper, mem_toExpand, Bool.not_eq_true]
  tauto

theorem toExpand_link (hlibrary : library.names.Nodup) :
    (m.link library).toExpand machine kernels =
      (m.toExpand machine kernels).filter fun k => !library.defines k.wrapperName := by
  unfold toExpand
  split_ifs
  · rfl
  · unfold unexpanded
    rw [List.filter_filter]
    refine List.filter_congr fun k _ => ?_
    rw [defines_link hlibrary, Bool.not_or, Bool.and_comm]

theorem defines_of_expandFor (h : m.expandFor machine kernels = .ok m') :
    ∀ k ∈ m.toExpand machine kernels, m.defines k.name := by
  intro k hk
  obtain ⟨f, hf, -⟩ := Kernel.fault?_eq_none_iff.1 ((expandFor_eq_ok_iff.1 h).1 k hk)
  rw [defines, hf]
  rfl

/-- Kernels that fit in a module fit in the linked module. -/
theorem expandFor_link (hlibrary : library.names.Nodup)
    (h : m.expandFor machine kernels = .ok m') :
    (m.link library).expandFor machine kernels =
      .ok ((m.link library).addWrappers ((m.link library).toExpand machine kernels)) := by
  refine expandFor_eq_ok_iff.2 ⟨fun k hk => ?_, rfl⟩
  rw [toExpand_link hlibrary] at hk
  have hown := List.mem_of_mem_filter hk
  obtain ⟨f, hf, hshape⟩ := Kernel.fault?_eq_none_iff.1 ((expandFor_eq_ok_iff.1 h).1 k hown)
  refine Kernel.fault?_eq_none_iff.2 ⟨f, ?_, hshape⟩
  rw [func?_link hlibrary, if_pos (defines_of_expandFor h k hown), hf]

section

variable (hverify : m.verify = .ok ()) (hkernels : ∀ k ∈ kernels, m.defines k.name)

include hverify hkernels

/-- A module with wrappers is a part of the linked module with the same wrappers, if the library
defines none of them. -/
theorem partOf_link_addWrappers (hlibrary : library.names.Nodup)
    (hnew : ∀ k ∈ kernels, library.defines k.wrapperName = false) :
    (m.addWrappers kernels).PartOf ((m.link library).addWrappers kernels) := by
  have hcopied {α : Type} (nameOf : α → String) (as : List α)
      (has : ∀ a ∈ as, library.defines (nameOf a)) :
      (as.filter fun a => !m.defines (nameOf a)).filter
        (fun a => (m.addWrappers kernels).defines (nameOf a)) = [] := by
    refine List.filter_eq_nil_iff.2 fun a ha hdefined => ?_
    obtain ⟨hmem, hlacking⟩ := List.mem_filter.1 ha
    rcases defines_addWrappers.1 hdefined with hown | hwrapper
    · rw [hown] at hlacking
      cases hlacking
    · obtain ⟨k, hk, heq⟩ := List.mem_map.1 hwrapper
      have htaken := has a hmem
      rw [← heq, hnew k hk] at htaken
      cases htaken
  have hwrappers (f : Func) (hf : f ∈ kernels.map (Kernel.wrapper true)) :
      (m.addWrappers kernels).defines f.name :=
    defines_of_mem_funcs (m := m.addWrappers kernels) (List.mem_append_right _ hf)
  rw [link_eq m hlibrary]
  refine ⟨rfl, ?_, ?_, closed_addWrappers hverify hkernels⟩
  · change m.globals = (m.globals ++ library.globals.filter fun g => !m.defines g.name).filter
      fun g => (m.addWrappers kernels).defines g.name
    rw [List.filter_append, filter_globals_addWrappers,
      hcopied Global.name _ fun _ => defines_of_mem_globals, List.append_nil]
  · change m.funcs ++ kernels.map (Kernel.wrapper true) =
      (m.funcs ++ (library.funcs.filter fun f => !m.defines f.name) ++
        kernels.map (Kernel.wrapper true)).filter fun f => (m.addWrappers kernels).defines f.name
    rw [List.filter_append, List.filter_append, filter_funcs_addWrappers,
      List.filter_eq_self.2 hwrappers, hcopied Func.name _ fun _ => defines_of_mem_funcs,
      List.append_nil]

/-- A module with some of the wrappers is a part of it with all of them. -/
theorem partOf_addWrappers_filter (hnew : ∀ k ∈ kernels, m.defines k.wrapperName = false)
    (p : String → Bool) :
    (m.addWrappers (kernels.filter fun k => p k.wrapperName)).PartOf (m.addWrappers kernels) := by
  let some := kernels.filter fun k => p k.wrapperName
  have hwrappers (k : Kernel) (hk : k ∈ kernels) :
      (m.addWrappers some).defines k.wrapperName = p k.wrapperName := by
    rw [Bool.eq_iff_iff, defines_addWrappers, hnew k hk, List.mem_map]
    simp only [some, Bool.false_eq_true, false_or, List.mem_filter]
    exact ⟨fun ⟨k', ⟨_, hp⟩, heq⟩ => heq ▸ hp, fun hp => ⟨k, ⟨hk, hp⟩, rfl⟩⟩
  refine ⟨rfl, (filter_globals_addWrappers m some).symm, ?_,
    closed_addWrappers hverify fun k hk => hkernels k (List.mem_of_mem_filter hk)⟩
  change m.funcs ++ some.map (Kernel.wrapper true) =
    (m.funcs ++ kernels.map (Kernel.wrapper true)).filter
      fun f => (m.addWrappers some).defines f.name
  rw [List.filter_append, filter_funcs_addWrappers, List.filter_map]
  congr 2
  exact List.filter_congr fun k hk => (hwrappers k hk).symm

end

/-- Optimization leaves of the linked module what it leaves of the module, if both have the same
wrappers. -/
theorem eliminate_link_addWrappers (hverify : m.verify = .ok ())
    (hkernels : ∀ k ∈ kernels, m.defines k.name) (hlibrary : library.names.Nodup)
    (hinternal : library.externalNames = [])
    (hnew : ∀ k ∈ kernels, library.defines k.wrapperName = false) (keep : List String) :
    (((m.link library).addWrappers kernels).internalize keep).fold.eliminate =
      ((m.addWrappers kernels).internalize keep).fold.eliminate := by
  have hpart := partOf_link_addWrappers hverify hkernels hlibrary hnew
  refine ((hpart.internalize keep).fold).eliminate_eq fun name hname => ?_
  rw [externalNames_fold, mem_externalNames_internalize_iff, mem_externalNames_addWrappers,
    externalNames_link hlibrary hinternal] at hname
  rw [defines_iff, names_fold, names_internalize]
  exact mem_names_of_mem_externalNames (mem_externalNames_addWrappers.2 hname.1)

/-! ### Smaller modules -/

/-- A module with some of the definitions of `m'`, but not all. -/
structure Smaller (m m' : Module) : Prop where
  id : m.id = m'.id
  globals : m.globals.Sublist m'.globals
  funcs : m.funcs.Sublist m'.funcs
  lt : m.size < m'.size

theorem length_names (m : Module) : m.names.length = m.size := by
  rw [names, List.length_append, List.length_map, List.length_map, size]

/-- A sublist of the definitions without one of the names is smaller. -/
theorem smaller_of_not_mem (name : String) (hid : m.id = m'.id) (hglobals : m.globals.Sublist m'.globals)
    (hfuncs : m.funcs.Sublist m'.funcs) (h : name ∉ m.names) (h' : name ∈ m'.names) :
    m.Smaller m' := by
  have hnames : m.names.Sublist m'.names := (hglobals.map _).append (hfuncs.map _)
  refine ⟨hid, hglobals, hfuncs, ?_⟩
  rw [← length_names, ← length_names]
  refine lt_of_le_of_ne hnames.length_le fun heq => h ?_
  rwa [hnames.eq_of_length heq]

theorem Smaller.fold (h : m.Smaller m') : m.fold.Smaller m'.fold where
  id := h.id
  globals := h.globals
  funcs := h.funcs.map _
  lt := by
    simp only [size, Module.fold, List.length_map]
    exact h.lt

/-- Each more of some texts that are not empty makes them longer. -/
theorem length_join_add_le {α : Type} {text : α → String} (htext : ∀ a, 0 < (text a).length)
    {as bs : List α} (h : as.Sublist bs) :
    (String.join (as.map text)).length + bs.length ≤
      (String.join (bs.map text)).length + as.length := by
  induction h with
  | slnil => exact Nat.le_refl _
  | cons b _ ih =>
    have hb := htext b
    simp only [List.map_cons, String.join_cons, String.length_append, List.length_cons]
    omega
  | cons_cons a _ ih =>
    simp only [List.map_cons, String.join_cons, String.length_append, List.length_cons]
    omega

theorem Smaller.length_text_lt (h : m.Smaller m') : m.text.length < m'.text.length := by
  have hglobal (g : Global) : 0 < g.text.length := by
    change 0 < (g.linkage.text ++ "global @" ++ g.name ++ " = " ++ toString g.init.toInt ++
      "\n").length
    rw [String.length_append]
    exact Nat.lt_of_lt_of_le (by decide) (Nat.le_add_left ..)
  have hfunc (f : Func) : 0 < ("\n" ++ f.text).length := by
    rw [String.length_append]
    exact Nat.lt_of_lt_of_le (by decide) (Nat.le_add_right ..)
  have hglobals := length_join_add_le hglobal h.globals
  have hfuncs := length_join_add_le hfunc h.funcs
  have hlt := h.lt
  simp only [size] at hlt
  simp only [text, h.id, String.length_append]
  omega

/-- Fewer wrappers, of which the others are to stay visible, leave a smaller module. -/
theorem smaller_eliminate_filter (hverify : m.verify = .ok ())
    (hkernels : ∀ k ∈ kernels, m.defines k.name)
    (hnew : ∀ k ∈ kernels, m.defines k.wrapperName = false) {p : String → Bool} {k : Kernel}
    (hk : k ∈ kernels) (hp : p k.wrapperName = false) (hkept : k.wrapperName ∈ keep) :
    ((m.addWrappers (kernels.filter fun k => p k.wrapperName)).internalize
        keep).fold.eliminate.Smaller ((m.addWrappers kernels).internalize keep).fold.eliminate := by
  have hpart := ((partOf_addWrappers_filter hverify hkernels hnew p).internalize keep).fold
  refine smaller_of_not_mem k.wrapperName rfl hpart.sublist_eliminate.1
    hpart.sublist_eliminate.2 (fun hmem => ?_) (mem_names_of_mem_externalNames ?_)
  · have hmade := (names_eliminate_sublist _).subset hmem
    rw [names_fold, names_internalize, ← defines_iff, defines_addWrappers, hnew k hk] at hmade
    obtain ⟨k', hk', heq⟩ := List.mem_map.1 (hmade.resolve_left Bool.false_ne_true)
    have hp' := (List.mem_filter.1 hk').2
    rw [heq, hp] at hp'
    cases hp'
  · rw [mem_externalNames_eliminate_iff, externalNames_fold, mem_externalNames_internalize_iff,
      mem_externalNames_addWrappers]
    exact ⟨.inr (List.mem_map_of_mem hk), hkept⟩

/-- What is emitted for a smaller module is something else. -/
theorem Smaller.emit_ne {bytes : Bytes} (h : m.Smaller m') (hemit : machine.emit m' = .ok bytes) :
    machine.emit m ≠ .ok bytes := by
  intro hsame
  unfold Machine.emit at hemit hsame
  rcases hfile : machine.fileType <;> rw [hfile] at hemit hsame <;> dsimp only at hemit hsame
  · rcases hobject : m.object with fault | object <;> rw [hobject] at hsame <;> cases hsame
    rcases hobject' : m'.object with fault' | object' <;> rw [hobject'] at hemit <;> cases hemit
    obtain ⟨image, himage, hbytes⟩ := ok_of_map hobject
    obtain ⟨image', himage', hbytes'⟩ := ok_of_map hobject'
    have heq := congrArg Image.decode? (hbytes.trans hbytes'.symm)
    rw [image.decode?_encode, image'.decode?_encode] at heq
    obtain rfl := Option.some.inj heq
    have hholds := holds_of_image himage
    have hholds' := holds_of_image himage'
    have hglobals : m.globals.length = m'.globals.length := by
      rw [← List.length_map Global.init, ← hholds.globals, hholds'.globals, List.length_map]
    have hfuncs := hholds.funcs.length_eq.trans hholds'.funcs.length_eq.symm
    exact absurd h.lt (by rw [size, size, hglobals, hfuncs]; exact lt_irrefl _)
  · have heq := congrArg Library.textOf (Except.ok.inj (hsame.trans hemit.symm))
    rw [Library.textOf_utf8, Library.textOf_utf8] at heq
    have hlength := congrArg String.length (Except.ok.inj heq)
    simp only [listing, String.length_append] at hlength
    exact absurd h.length_text_lt (by omega)

end Module

/-! ### Builds -/

namespace Script

variable {entryPoints : List String} {machine : Machine} {script script' : Script}
  {table : ExportTable} {library : Module} {bytes : Bytes}

theorem generate_ne_of_smaller {module : Module} (hsmaller : module.Smaller script.module)
    (h : script.generate machine = (.ok bytes, script')) :
    (generate machine { script with module }).1 ≠ .ok bytes := by
  obtain ⟨htype, hemit, -⟩ := of_generate h
  have hfinal : (final machine { script with module }).Smaller (script.final machine) := by
    unfold final
    split_ifs
    · exact hsmaller
    · exact hsmaller.fold
  intro hsame
  rw [generate, if_pos htype] at hsame
  rcases hother : machine.emit (final machine { script with module }) with reason | emitted <;>
    rw [hother] at hsame <;> cases hsame
  exact hfinal.emit_ne hemit hother

section

variable (hverify : script.module.verify = .ok ()) (hlibrary : library.verify = .ok ())
  (hinternal : library.externalNames = [])

include hverify hlibrary hinternal

/-- Optimization of a linked script leaves what it leaves of the script, unless the library has the
name of a wrapper.  Then it leaves less. -/
theorem optimize_link_unneeded (h : script.optimize entryPoints machine = (.ok bytes, script'))
    (htable : script.exports = some table) :
    ∃ module,
      optimize entryPoints machine { script with module := script.module.link library } =
        (.ok [], { script' with module }) ∧
      (¬ library.TakesWrapper script.module machine table.kernels → module = script'.module) ∧
      (library.TakesWrapper script.module machine table.kernels →
        module.Smaller script'.module) := by
  obtain ⟨table', module, htable', hexpand, rfl⟩ := of_optimize h
  cases htable.symm.trans htable'
  have hdistinct := (Module.verify_eq_ok_iff.1 hlibrary).1
  have hlinked := Module.expandFor_link hdistinct hexpand
  have hkernels := Module.defines_of_expandFor hexpand
  obtain ⟨-, rfl⟩ := Module.expandFor_eq_ok_iff.1 hexpand
  rw [Module.toExpand_link hdistinct] at hlinked
  let keep := table.preserved entryPoints machine.native
  -- the wrappers that the linked module gets
  let free := (script.module.toExpand machine table.kernels).filter fun k =>
    !library.defines k.wrapperName
  have hleft := Module.eliminate_link_addWrappers hverify
    (fun k (hk : k ∈ free) => hkernels k (List.mem_of_mem_filter hk)) hdistinct hinternal
    (fun k hk => by simpa using (List.mem_filter.1 hk).2) keep
  refine ⟨((script.module.addWrappers free).internalize keep).fold.eliminate, ?_,
    fun htaken => ?_, fun htaken => ?_⟩
  · simp only [optimize, htable, hlinked]
    rw [hleft]
  · have hfree : free = script.module.toExpand machine table.kernels := by
      rw [Module.takesWrapper_iff] at htaken
      exact List.filter_eq_self.2 fun k hk => by
        simpa using fun hdefined => htaken ⟨k, hk, hdefined⟩
    rw [hfree]
  · obtain ⟨k, hk, hdefined⟩ := Module.takesWrapper_iff.1 htaken
    obtain ⟨hnative, hlisted, -⟩ := Module.mem_toExpand.1 hk
    have hkept : k.wrapperName ∈ keep := by
      have hdispatch := ExportTable.dispatchName_mem_preserved hlisted entryPoints machine.native
      rwa [show k.dispatchName machine.native = k.wrapperName by rw [hnative]; rfl] at hdispatch
    exact Module.smaller_eliminate_filter (p := fun name => !library.defines name) hverify hkernels
      (fun k hk => (Module.mem_toExpand.1 hk).2.2) hk (by rw [hdefined]; rfl) hkept

/-- A build of a linked script comes to the same as a build of the script, unless the library has
the name of a wrapper.  Then it emits something else. -/
theorem build_link_unneeded (h : script.build entryPoints machine true = (.ok bytes, script')) :
    let linked := { script with module := script.module.link library }
    let taken := ∃ table, script.exports = some table ∧
      library.TakesWrapper script.module machine table.kernels
    (¬ taken → linked.build entryPoints machine true = (.ok bytes, script')) ∧
      (taken → (linked.build entryPoints machine true).1 ≠ .ok bytes) := by
  obtain ⟨script₁, ⟨-, output, ho⟩ | ⟨hlto, -⟩, hg⟩ := of_build h
  · obtain ⟨table, -, htable, -⟩ := of_optimize ho
    obtain ⟨module, hoptimize, hsame, hsmaller⟩ :=
      optimize_link_unneeded hverify hlibrary hinternal ho htable
    dsimp only
    simp only [build, if_true, hoptimize]
    refine ⟨fun htaken => ?_, ?_⟩
    · rw [hsame fun h => htaken ⟨table, htable, h⟩]
      exact hg
    · rintro ⟨table', htable', htaken⟩
      cases htable.symm.trans htable'
      exact generate_ne_of_smaller (hsmaller htaken) hg
  · cases hlto

end

end Script

end ComputeScript
