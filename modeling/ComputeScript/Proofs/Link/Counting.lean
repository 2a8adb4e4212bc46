import ComputeScript.Proofs.Link

/-!
# How much is linked, and what comes of it

The number that linking gives is the number of definitions that it copies (`linkCounting_eq`).
What is copied can be wrong in one way only: an instruction may refer to a name that the module
defines as the other kind (`Inst.MistakesKind`).  `Script.linkCounting_exact` is the result.
-/

namespace ComputeScript

/-- An instruction calls a global of the module, or reads or writes a function of it. -/
def Inst.MistakesKind (m : Module) : Inst String → Prop
  | .globalGet target => target ∈ m.funcs.map Func.name
  | .globalSet target => target ∈ m.funcs.map Func.name
  | .call target => target ∈ m.globals.map Global.name
  | _ => False

namespace Module

variable {m library : Module}

/-! ### The number of copies -/

section

variable {α : Type} {nameOf : α → String} {add addNew : Module → α → Module}
  (haddNew : ∀ m a, addNew m a = if m.defines (nameOf a) then m else add m a)
  (hsize : ∀ m a, (add m a).size = m.size + 1)

include haddNew hsize

/-- The count goes up by as much as the module grows. -/
theorem addCounting_eq (linked : Module × Nat) (a : α) :
    (addCounting nameOf addNew linked a).1 = addNew linked.1 a ∧
      (addCounting nameOf addNew linked a).2 + linked.1.size =
        linked.2 + (addNew linked.1 a).size := by
  rw [addCounting, haddNew]
  by_cases hdefined : linked.1.defines (nameOf a)
  · simp [hdefined]
  · simp only [hdefined]
    refine ⟨rfl, ?_⟩
    simp only [Bool.false_eq_true, if_false, hsize]
    omega

theorem foldl_addCounting_eq (linked : Module × Nat) (as : List α) :
    (as.foldl (addCounting nameOf addNew) linked).1 = as.foldl addNew linked.1 ∧
      (as.foldl (addCounting nameOf addNew) linked).2 + linked.1.size =
        linked.2 + (as.foldl addNew linked.1).size := by
  induction as generalizing linked with
  | nil => exact ⟨rfl, rfl⟩
  | cons a as ih =>
    obtain ⟨hmodule, hcount⟩ := addCounting_eq haddNew hsize linked a
    obtain ⟨hrest, hcopied⟩ := ih (addCounting nameOf addNew linked a)
    rw [hmodule] at hrest hcopied
    refine ⟨hrest, ?_⟩
    rw [List.foldl_cons, List.foldl_cons]
    omega

end

theorem size_pushGlobal (m : Module) (g : Global) :
    ({ m with globals := m.globals ++ [g] } : Module).size = m.size + 1 := by
  simp only [size, List.length_append, List.length_singleton]
  omega

theorem size_pushFunc (m : Module) (f : Func) :
    ({ m with funcs := m.funcs ++ [f] } : Module).size = m.size + 1 := by
  simp only [size, List.length_append, List.length_singleton]
  omega

theorem size_link (m library : Module) :
    (m.link library).size =
      m.size + ((m.missingGlobals library).length + (m.missingFuncs library).length) := by
  rw [link_eq_missing]
  simp only [size, List.length_append]
  omega

/-- Counting what is copied changes nothing of what is linked. -/
theorem linkCounting_eq (m library : Module) :
    m.linkCounting library =
      (m.link library, (m.missingGlobals library).length + (m.missingFuncs library).length) := by
  have haddGlobal (m : Module) (g : Global) : m.addGlobal g =
      if m.defines g.name then m else { m with globals := m.globals ++ [g] } := rfl
  have haddFunc (m : Module) (f : Func) : m.addFunc f =
      if m.defines f.name then m else { m with funcs := m.funcs ++ [f] } := rfl
  obtain ⟨hmodule, hcount⟩ := foldl_addCounting_eq haddGlobal size_pushGlobal (m, 0) library.globals
  obtain ⟨hmodule', hcount'⟩ := foldl_addCounting_eq haddFunc size_pushFunc
    (library.globals.foldl (addCounting Global.name addGlobal) (m, 0)) library.funcs
  rw [hmodule] at hmodule' hcount'
  refine Prod.ext hmodule' ?_
  have hsize := size_link m library
  rw [link] at hsize
  rw [linkCounting]
  dsimp only at hcount hcount'
  omega

/-! ### Names and kinds -/

/-- All names of a library are defined after linking with it. -/
theorem defines_link_of_mem (m : Module) {name : String} (h : name ∈ library.names) :
    (m.link library).defines name := by
  rw [link, defines_foldl_add defines_addFunc, defines_foldl_add defines_addGlobal]
  rcases List.mem_append.1 h with hname | hname
  · exact .inl (.inr hname)
  · exact .inr hname

/-- Linking once more copies nothing. -/
theorem linkCounting_link (m library : Module) :
    (m.link library).linkCounting library = (m.link library, 0) := by
  have hself : (m.link library).link library = m.link library :=
    link_eq_self fun _ hname => defines_link_of_mem m hname
  have hsize := size_link (m.link library) library
  rw [hself] at hsize
  rw [linkCounting_eq, hself]
  refine Prod.ext rfl ?_
  dsimp only
  omega

/-- Where names are distinct, what is defined and has another kind than an instruction needs is
mistaken by it. -/
theorem mistakesKind_iff (h : m.names.Nodup) {inst : Inst String} :
    inst.MistakesKind m ↔
      ∃ target, inst.reference? = some target ∧ m.defines target ∧ ¬ inst.Resolved m := by
  obtain ⟨-, -, hdisjoint⟩ := List.nodup_append.1 h
  have hkind (target : String) : target ∈ m.globals.map Global.name →
      target ∉ m.funcs.map Func.name :=
    fun hglobal hfunc => hdisjoint target hglobal target hfunc rfl
  cases inst with
  | globalGet target | globalSet target | call target =>
    simp only [Inst.MistakesKind, Inst.reference?, Inst.Resolved, Option.some.injEq,
      exists_eq_left', defines_iff, names, List.mem_append, isSome_global?_iff, isSome_func?_iff]
    have := hkind target
    tauto
  | _ => simp [Inst.MistakesKind, Inst.reference?]

theorem clashesWith_iff (h : m.names.Nodup) (hlibrary : library.names.Nodup) :
    m.ClashesWith library ↔
      ∃ f ∈ m.missingFuncs library, ∃ inst ∈ f.body, inst.MistakesKind m := by
  simp only [ClashesWith, missingFuncs_of_nodup m hlibrary, List.mem_filter, mistakesKind_iff h,
    Bool.not_eq_true', Bool.not_eq_true, and_assoc]

end Module

/-- Linking a script puts behind its own definitions the first of each name that a library has and
the script lacks, and tells how many these are.  All names of the library are then defined, so
linking once more does nothing; distinct names stay distinct; and where the script and the library
verify, the linked script does exactly if nothing that was copied mistakes the kind of a name of the
script. -/
theorem Script.linkCounting_exact (script : Script) (library : Library) :
    let m := script.module
    let globals := m.missingGlobals library.module
    let funcs := m.missingFuncs library.module
    let linked : Script := { script with
      module := { m with globals := m.globals ++ globals, funcs := m.funcs ++ funcs } }
    script.link library = linked ∧
      script.linkCounting library = (linked, globals.length + funcs.length) ∧
      (∀ name ∈ library.module.names, linked.module.defines name) ∧
      linked.linkCounting library = (linked, 0) ∧
      (m.names.Nodup → linked.module.names.Nodup) ∧
      (m.verify = .ok () → library.module.verify = .ok () →
        (linked.module.verify = .ok () ↔ ∀ f ∈ funcs, ∀ inst ∈ f.body, ¬ inst.MistakesKind m)) := by
  intro m globals funcs linked
  have hlink : script.link library = linked := by
    rw [link, Module.link_eq_missing]
  have hmodule : linked.module = m.link library.module := (Module.link_eq_missing _ _).symm
  refine ⟨hlink, ?_, ?_, ?_, ?_, ?_⟩
  · rw [linkCounting, Module.linkCounting_eq, ← hlink]
    rfl
  · intro name hname
    rw [hmodule]
    exact Module.defines_link_of_mem m hname
  · rw [linkCounting, hmodule, Module.linkCounting_link, ← hmodule]
  · intro hnames
    rw [hmodule]
    exact Module.nodup_names_link hnames library.module
  · intro hm hlibrary
    have hdistinct := (Module.verify_eq_ok_iff.1 hm).1
    have hdistinct' := (Module.verify_eq_ok_iff.1 hlibrary).1
    rw [hmodule, Module.verify_link_iff hm hlibrary, Module.clashesWith_iff hdistinct hdistinct']
    push Not
    rfl

/-- Of a name that a library defines twice the first counts, and of one that it gives to both kinds
the global. -/
example :
    let library : Module :=
      { id := "twofold"
        globals := [{ name := "a" }]
        funcs := [{ name := "b", params := 1 }, { name := "a" }, { name := "b" }] }
    ({ id := "empty" } : Module).linkCounting library =
      ({ id := "empty", globals := [{ name := "a" }], funcs := [{ name := "b", params := 1 }] },
        2) := by
  decide

end ComputeScript
