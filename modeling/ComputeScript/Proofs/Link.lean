import ComputeScript.Library
import ComputeScript.Proofs.Verified

/-!
# What linking adds

Linking puts behind a module the first definition that a library has of each name that the module
does not define (`Module.link_eq_missing`); if the names of the library are distinct, that is all
that it defines and the module does not (`Module.link_eq`).  So a name means what it meant in the
module, and what it means in the library where the module does not define it
(`Module.func?_link`).  A linked module verifies unless what is copied refers to a name that the
module defines as the other kind (`Module.verify_link_iff`).
-/

namespace ComputeScript

namespace Module

variable {m library : Module} {name : String}

/-! ### What is copied -/

/-- The elements of a list that are the first of their name. -/
def firstOfEach {α : Type} (nameOf : α → String) (as : List α) : List α :=
  as.eraseDupsBy fun a b => nameOf a == nameOf b

/-- The globals of a library that a module lacks, the first of each name. -/
def missingGlobals (m library : Module) : List Global :=
  firstOfEach Global.name (library.globals.filter fun g => !m.defines g.name)

/-- The functions of a library that a module lacks, the first of each name.  A name that the library
gives to a global too is that of the global. -/
def missingFuncs (m library : Module) : List Func :=
  firstOfEach Func.name
    (library.funcs.filter fun f => !m.defines f.name && (library.global? f.name).isNone)

section

variable {α : Type} {nameOf : α → String}

theorem firstOfEach_cons (a : α) (as : List α) :
    firstOfEach nameOf (a :: as) =
      a :: firstOfEach nameOf (as.filter fun b => !(nameOf a == nameOf b)) := by
  rw [firstOfEach, List.eraseDupsBy_cons, firstOfEach]
  congr 2
  refine List.filter_congr fun b _ => ?_
  by_cases hname : nameOf a = nameOf b
  · simp [hname]
  · simp [hname, Ne.symm hname]

theorem firstOfEach_sublist (as : List α) : (firstOfEach nameOf as).Sublist as := by
  match as with
  | [] => exact .slnil
  | a :: as =>
    rw [firstOfEach_cons]
    exact ((firstOfEach_sublist _).trans List.filter_sublist).cons_cons a
termination_by as.length
decreasing_by exact Nat.lt_succ_of_le (List.length_filter_le _ _)

theorem firstOfEach_of_nodup {as : List α} (h : (as.map nameOf).Nodup) :
    firstOfEach nameOf as = as := by
  induction as with
  | nil => rfl
  | cons a as ih =>
    obtain ⟨ha, hrest⟩ := List.nodup_cons.1 h
    have hall : as.filter (fun b => !(nameOf a == nameOf b)) = as := by
      refine List.filter_eq_self.2 fun b hb => ?_
      have hne : nameOf a ≠ nameOf b := fun heq => ha (heq ▸ List.mem_map_of_mem hb)
      simp [hne]
    rw [firstOfEach_cons, hall, ih hrest]

variable {add addNew : Module → α → Module}
  (hdefines : ∀ m a name, (add m a).defines name = (m.defines name || nameOf a == name))

include hdefines

/-- What is added defines its names, and nothing that was defined is lost. -/
theorem defines_foldl_add (m : Module) (as : List α) (name : String) :
    (as.foldl add m).defines name ↔ m.defines name ∨ name ∈ as.map nameOf := by
  induction as generalizing m with
  | nil => simp
  | cons a as ih =>
    rw [List.foldl_cons, ih, hdefines, Bool.or_eq_true, beq_iff_eq, List.map_cons, List.mem_cons,
      or_assoc, @eq_comm _ name]

variable (haddNew : ∀ m a, addNew m a = if m.defines (nameOf a) then m else add m a)

include haddNew

theorem defines_unless_defined (m : Module) (a : α) (name : String) :
    (addNew m a).defines name = (m.defines name || nameOf a == name) := by
  rw [haddNew]
  by_cases hdefined : m.defines (nameOf a)
  · by_cases hname : nameOf a = name
    · simp [← hname, hdefined]
    · simp [hname, hdefined]
  · rw [if_neg hdefined, hdefines]

/-- Adding what is not defined, one after another, is adding the first of each name that was not
defined in the beginning. -/
theorem foldl_unless_defined (m : Module) (as : List α) :
    as.foldl addNew m =
      (firstOfEach nameOf (as.filter fun a => !m.defines (nameOf a))).foldl add m := by
  induction as generalizing m with
  | nil => rfl
  | cons a as ih =>
    rw [List.foldl_cons, ih, haddNew]
    by_cases hdefined : m.defines (nameOf a)
    · rw [if_pos hdefined, List.filter_cons_of_neg (by simp [hdefined])]
    · rw [if_neg hdefined, List.filter_cons_of_pos (by simp [hdefined]), firstOfEach_cons,
        List.foldl_cons, List.filter_filter]
      congr 2
      refine List.filter_congr fun b _ => ?_
      rw [hdefines, Bool.not_or, Bool.and_comm]

end

theorem defines_pushGlobal (m : Module) (g : Global) (name : String) :
    ({ m with globals := m.globals ++ [g] } : Module).defines name =
      (m.defines name || g.name == name) := by
  by_cases hname : g.name = name
  · simp [defines, global?, List.find?_append, hname]
  · simp [defines, func?, global?, List.find?_append, hname]

theorem defines_pushFunc (m : Module) (f : Func) (name : String) :
    ({ m with funcs := m.funcs ++ [f] } : Module).defines name =
      (m.defines name || f.name == name) := by
  by_cases hname : f.name = name
  · simp [defines, func?, List.find?_append, hname]
  · simp [defines, func?, global?, List.find?_append, hname]

theorem foldl_pushGlobal (m : Module) (globals : List Global) :
    globals.foldl (fun m g => { m with globals := m.globals ++ [g] }) m =
      { m with globals := m.globals ++ globals } := by
  induction globals generalizing m with
  | nil => simp
  | cons g globals ih => simp [ih]

theorem foldl_pushFunc (m : Module) (funcs : List Func) :
    funcs.foldl (fun m f => { m with funcs := m.funcs ++ [f] }) m =
      { m with funcs := m.funcs ++ funcs } := by
  induction funcs generalizing m with
  | nil => simp
  | cons f funcs ih => simp [ih]

theorem defines_addGlobal (m : Module) (g : Global) (name : String) :
    (m.addGlobal g).defines name = (m.defines name || g.name == name) :=
  defines_unless_defined defines_pushGlobal (fun _ _ => rfl) m g name

theorem defines_addFunc (m : Module) (f : Func) (name : String) :
    (m.addFunc f).defines name = (m.defines name || f.name == name) :=
  defines_unless_defined defines_pushFunc (fun _ _ => rfl) m f name

theorem foldl_addGlobal (m : Module) (globals : List Global) :
    globals.foldl addGlobal m =
      { m with
        globals := m.globals ++
          firstOfEach Global.name (globals.filter fun g => !m.defines g.name) } := by
  rw [← foldl_pushGlobal]
  exact foldl_unless_defined defines_pushGlobal (fun _ _ => rfl) m globals

theorem foldl_addFunc (m : Module) (funcs : List Func) :
    funcs.foldl addFunc m =
      { m with
        funcs := m.funcs ++ firstOfEach Func.name (funcs.filter fun f => !m.defines f.name) } := by
  rw [← foldl_pushFunc]
  exact foldl_unless_defined defines_pushFunc (fun _ _ => rfl) m funcs

/-- What a library defines and the module does not, comes after the module's own definitions. -/
theorem link_eq_missing (m library : Module) :
    m.link library =
      { m with
        globals := m.globals ++ m.missingGlobals library
        funcs := m.funcs ++ m.missingFuncs library } := by
  rw [link, foldl_addFunc, missingFuncs]
  have hlacking (f : Func) : (!(library.globals.foldl addGlobal m).defines f.name) =
      (!m.defines f.name && (library.global? f.name).isNone) := by
    rw [Bool.eq_iff_iff, Bool.not_eq_true', Bool.eq_false_iff, ne_eq,
      defines_foldl_add defines_addGlobal, ← isSome_global?_iff]
    simp
  simp only [hlacking]
  rw [foldl_addGlobal]
  rfl

theorem missingGlobals_of_nodup (m : Module) (h : library.names.Nodup) :
    m.missingGlobals library = library.globals.filter fun g => !m.defines g.name :=
  firstOfEach_of_nodup ((List.nodup_append.1 h).1.sublist (List.filter_sublist.map _))

theorem missingFuncs_of_nodup (m : Module) (h : library.names.Nodup) :
    m.missingFuncs library = library.funcs.filter fun f => !m.defines f.name := by
  obtain ⟨-, hfuncs, hdisjoint⟩ := List.nodup_append.1 h
  have hfunc : ∀ f ∈ library.funcs, (library.global? f.name).isNone := by
    intro f hf
    rw [Option.isNone_iff_eq_none, ← Option.not_isSome_iff_eq_none, isSome_global?_iff]
    exact fun hg => hdisjoint f.name hg f.name (List.mem_map_of_mem hf) rfl
  rw [missingFuncs, firstOfEach_of_nodup (hfuncs.sublist (List.filter_sublist.map _))]
  refine List.filter_congr fun f hf => ?_
  rw [hfunc f hf, Bool.and_true]

/-- Where the names of a library are distinct, all that the module does not define is copied. -/
theorem link_eq (m : Module) (h : library.names.Nodup) :
    m.link library =
      { m with
        globals := m.globals ++ library.globals.filter fun g => !m.defines g.name
        funcs := m.funcs ++ library.funcs.filter fun f => !m.defines f.name } := by
  rw [link_eq_missing, missingGlobals_of_nodup m h, missingFuncs_of_nodup m h]

/-- Whatever names a library has, definitions of it come after the module's own. -/
theorem exists_link_eq (m library : Module) :
    ∃ globals funcs, globals.Sublist library.globals ∧ funcs.Sublist library.funcs ∧
      m.link library = { m with globals := m.globals ++ globals, funcs := m.funcs ++ funcs } :=
  ⟨_, _, (firstOfEach_sublist _).trans List.filter_sublist,
    (firstOfEach_sublist _).trans List.filter_sublist, link_eq_missing m library⟩

/-- A module that defines what a library defines gets nothing from it. -/
theorem link_eq_self (h : ∀ name ∈ library.names, m.defines name) : m.link library = m := by
  have hglobals : library.globals.filter (fun g => !m.defines g.name) = [] :=
    List.filter_eq_nil_iff.2 fun g hg => by
      simp [h g.name (List.mem_append_left _ (List.mem_map_of_mem hg))]
  have hfuncs : library.funcs.filter
      (fun f => !m.defines f.name && (library.global? f.name).isNone) = [] :=
    List.filter_eq_nil_iff.2 fun f hf => by
      simp [h f.name (List.mem_append_right _ (List.mem_map_of_mem hf))]
  rw [link_eq_missing, missingGlobals, missingFuncs, hglobals, hfuncs]
  simp [firstOfEach]

/-! ### Names -/

theorem defines_eq_false_iff :
    m.defines name = false ↔ m.func? name = none ∧ m.global? name = none := by
  simp only [defines, Bool.or_eq_false_iff, Option.isSome_eq_false_iff, Option.isNone_iff_eq_none]

/-- Among what is copied, a name is found as it is in the library, if the module does not define
it. -/
theorem find?_filter_not_defines {α : Type} (m : Module) (nameOf : α → String) (as : List α)
    (name : String) :
    (as.filter fun a => !m.defines (nameOf a)).find? (fun a => nameOf a == name) =
      if m.defines name then none else as.find? fun a => nameOf a == name := by
  rw [List.find?_filter]
  split_ifs with hdefined
  · refine List.find?_eq_none.2 fun a _ => ?_
    by_cases hname : nameOf a = name
    · simp [hname, hdefined]
    · simp [hname]
  · refine congrFun (congrArg List.find? (funext fun a => ?_)) _
    by_cases hname : nameOf a = name
    · simp [hname, hdefined]
    · simp [hname]

theorem func?_link (h : library.names.Nodup) (name : String) :
    (m.link library).func? name = if m.defines name then m.func? name else library.func? name := by
  rw [link_eq m h, func?, List.find?_append, find?_filter_not_defines m Func.name]
  split_ifs with hdefined
  · exact Option.or_none
  · change (m.func? name).or _ = _
    rw [(defines_eq_false_iff.1 (Bool.eq_false_iff.2 hdefined)).1, Option.none_or]
    rfl

theorem global?_link (h : library.names.Nodup) (name : String) :
    (m.link library).global? name =
      if m.defines name then m.global? name else library.global? name := by
  rw [link_eq m h, global?, List.find?_append, find?_filter_not_defines m Global.name]
  split_ifs with hdefined
  · exact Option.or_none
  · change (m.global? name).or _ = _
    rw [(defines_eq_false_iff.1 (Bool.eq_false_iff.2 hdefined)).2, Option.none_or]
    rfl

theorem defines_link (h : library.names.Nodup) (name : String) :
    (m.link library).defines name = (m.defines name || library.defines name) := by
  rw [defines, func?_link h, global?_link h]
  split_ifs with hdefined
  · rw [hdefined, Bool.true_or]
    exact hdefined
  · rw [Bool.not_eq_true] at hdefined
    rw [hdefined, Bool.false_or]
    rfl

theorem nodup_names_addGlobal (h : m.names.Nodup) (g : Global) : (m.addGlobal g).names.Nodup := by
  rw [addGlobal]
  split_ifs with hdefined
  · exact h
  · simp only [names, List.map_append, List.map_cons, List.map_nil, List.append_assoc,
      List.cons_append, List.nil_append, List.nodup_middle]
    exact List.nodup_cons.2 ⟨fun hname => hdefined (defines_iff.2 hname), h⟩

theorem nodup_names_addFunc (h : m.names.Nodup) (f : Func) : (m.addFunc f).names.Nodup := by
  rw [addFunc]
  split_ifs with hdefined
  · exact h
  · simp only [names, List.map_append, List.map_cons, List.map_nil, ← List.append_assoc]
    rw [← List.concat_eq_append]
    exact h.concat fun hname => hdefined (defines_iff.2 hname)

theorem nodup_names_link (h : m.names.Nodup) (library : Module) :
    (m.link library).names.Nodup := by
  have hglobals : (library.globals.foldl addGlobal m).names.Nodup :=
    List.foldlRecOn (motive := fun m : Module => m.names.Nodup) _ _ h
      fun _ hm g _ => nodup_names_addGlobal hm g
  exact List.foldlRecOn (motive := fun m : Module => m.names.Nodup) _ _ hglobals
    fun _ hm f _ => nodup_names_addFunc hm f

theorem externalNames_link (h : library.names.Nodup) (hinternal : library.externalNames = []) :
    (m.link library).externalNames = m.externalNames := by
  obtain ⟨hglobals, hfuncs⟩ := List.append_eq_nil_iff.1 hinternal
  rw [List.map_eq_nil_iff, List.filter_eq_nil_iff] at hglobals hfuncs
  have hnoglobal : (library.globals.filter fun g => !m.defines g.name).filter Global.isExternal =
      [] := List.filter_eq_nil_iff.2 fun g hg => hglobals g (List.mem_of_mem_filter hg)
  have hnofunc : (library.funcs.filter fun f => !m.defines f.name).filter Func.isExternal =
      [] := List.filter_eq_nil_iff.2 fun f hf => hfuncs f (List.mem_of_mem_filter hf)
  rw [link_eq m h]
  simp only [externalNames, List.filter_append, hnoglobal, hnofunc, List.append_nil]

/-! ### Verification -/

/-- A function of the library that the module lacks refers to a name that the module defines, but as
the other kind. -/
def ClashesWith (m library : Module) : Prop :=
  ∃ f ∈ library.funcs, ¬ m.defines f.name ∧
    ∃ inst ∈ f.body, ∃ target, inst.reference? = some target ∧ m.defines target ∧ ¬ inst.Resolved m

theorem resolved_congr {m m' : Module} {inst : Inst String}
    (h : ∀ target, inst.reference? = some target →
      m.func? target = m'.func? target ∧ m.global? target = m'.global? target) :
    inst.Resolved m ↔ inst.Resolved m' := by
  constructor
  · refine fun hres => hres.mono fun target ht => ?_
    rw [(h target ht).1, (h target ht).2]
    exact ⟨fun hs => hs, fun hs => hs⟩
  · refine fun hres => hres.mono fun target ht => ?_
    rw [(h target ht).1, (h target ht).2]
    exact ⟨fun hs => hs, fun hs => hs⟩

/-- What an instruction refers to keeps the kind that it has in the module. -/
theorem resolved_link_iff (h : library.names.Nodup) {inst : Inst String}
    (hdefined : ∀ target, inst.reference? = some target → m.defines target) :
    inst.Resolved (m.link library) ↔ inst.Resolved m :=
  resolved_congr fun target ht => by
    rw [func?_link h, global?_link h, if_pos (hdefined target ht), if_pos (hdefined target ht)]
    exact ⟨rfl, rfl⟩

/-- What the module does not define has the kind that it has in the library. -/
theorem resolved_link_iff_library (h : library.names.Nodup) {inst : Inst String}
    (hlacking : ∀ target, inst.reference? = some target → ¬ m.defines target) :
    inst.Resolved (m.link library) ↔ inst.Resolved library :=
  resolved_congr fun target ht => by
    rw [func?_link h, global?_link h, if_neg (hlacking target ht), if_neg (hlacking target ht)]
    exact ⟨rfl, rfl⟩

theorem mem_funcs_link (h : library.names.Nodup) {f : Func} :
    f ∈ (m.link library).funcs ↔ f ∈ m.funcs ∨ f ∈ library.funcs ∧ ¬ m.defines f.name := by
  rw [link_eq m h]
  simp only [List.mem_append, List.mem_filter, Bool.not_eq_true', Bool.not_eq_true]

/-- Where a module and a library verify, the linked module verifies exactly if they do not clash. -/
theorem verify_link_iff (hm : m.verify = .ok ()) (hlibrary : library.verify = .ok ()) :
    (m.link library).verify = .ok () ↔ ¬ m.ClashesWith library := by
  rw [verify_eq_ok_iff] at hm hlibrary ⊢
  obtain ⟨hnames, hfuncs⟩ := hm
  obtain ⟨hdistinct, hlibrary⟩ := hlibrary
  constructor
  · rintro ⟨-, hall⟩ ⟨f, hf, hlacking, inst, hinst, target, ht, htarget, hunresolved⟩
    have hres := Func.resolved_of_defect?
      (hall f ((mem_funcs_link hdistinct).2 (.inr ⟨hf, hlacking⟩))) inst hinst
    refine hunresolved ((resolved_link_iff hdistinct fun target' ht' => ?_).1 hres)
    rwa [← Option.some.inj (ht.symm.trans ht')]
  · refine fun hclash => ⟨nodup_names_link hnames library, fun f hf => ?_⟩
    rcases (mem_funcs_link hdistinct).1 hf with hf | ⟨hf, hlacking⟩
    · refine Func.defect?_of_resolved (hfuncs f hf) rfl rfl rfl fun inst _ hres => ?_
      exact (resolved_link_iff hdistinct fun _ ht => hres.defines ht).2 hres
    · refine Func.defect?_of_resolved (hlibrary f hf) rfl rfl rfl fun inst hinst hres => ?_
      by_cases hdefined : ∃ target, inst.reference? = some target ∧ m.defines target
      · obtain ⟨target, ht, htarget⟩ := hdefined
        have hown : inst.Resolved m := by
          by_contra hunresolved
          exact hclash ⟨f, hf, hlacking, inst, hinst, target, ht, htarget, hunresolved⟩
        exact (resolved_link_iff hdistinct fun _ ht => hown.defines ht).2 hown
      · exact (resolved_link_iff_library hdistinct fun target ht htarget =>
          hdefined ⟨target, ht, htarget⟩).2 hres

end Module

end ComputeScript
