import ComputeScript.Module.Verify
import ComputeScript.Proofs.Nesting

/-!
# What verification ensures

A module verifies exactly if it is well formed (`verify_eq_ok_iff_wellFormed`): its names are
pairwise distinct, and each function has at most one result and a body whose locals and references
exist, whose blocks nest and whose branches stay in the function.  The check of a body says which of
these its first instruction breaks, if any (`bodyDefect?_cons_eq_none_iff`), and so for all of them
(`bodyDefect?_eq_none_iff`).  A module that verifies defines whatever its functions refer to
(`defines_of_verify`).
-/

namespace ComputeScript

theorem firstRepeat?_eq_none_iff (seen names : List String) :
    firstRepeat? seen names = none ↔ names.Nodup ∧ ∀ name ∈ names, name ∉ seen := by
  induction names generalizing seen with
  | nil => simp [firstRepeat?]
  | cons name names ih =>
    rw [firstRepeat?]
    by_cases h : name ∈ seen
    · simp [h]
    · simp only [List.contains_iff_mem, h, if_false, ih, List.nodup_cons, List.mem_cons]
      constructor
      · rintro ⟨hnodup, hseen⟩
        refine ⟨⟨fun hmem => hseen name hmem (.inl rfl), hnodup⟩, ?_⟩
        rintro n (rfl | hn)
        · exact h
        · exact fun hmem => hseen n hn (.inr hmem)
      · rintro ⟨⟨hname, hnodup⟩, hseen⟩
        refine ⟨hnodup, ?_⟩
        rintro n hn (rfl | hmem)
        · exact hname hn
        · exact hseen n (.inr hn) hmem

theorem firstRepeat?_nil_eq_none_iff {names : List String} :
    firstRepeat? [] names = none ↔ names.Nodup := by
  rw [firstRepeat?_eq_none_iff]
  exact and_iff_left fun _ _ => List.not_mem_nil

theorem Module.isSome_func?_iff {m : Module} {name : String} :
    (m.func? name).isSome ↔ name ∈ m.funcs.map Func.name := by
  simp only [func?, List.find?_isSome, List.mem_map, beq_iff_eq]

theorem Module.isSome_global?_iff {m : Module} {name : String} :
    (m.global? name).isSome ↔ name ∈ m.globals.map Global.name := by
  simp only [global?, List.find?_isSome, List.mem_map, beq_iff_eq]

/-- What an instruction refers to is defined, and of the right kind. -/
def Inst.Resolved (m : Module) : Inst String → Prop
  | .globalGet target => (m.global? target).isSome
  | .globalSet target => (m.global? target).isSome
  | .call target => (m.func? target).isSome
  | _ => True

theorem Inst.Resolved.defines {m : Module} {inst : Inst String} {target : String}
    (h : inst.Resolved m) (href : inst.reference? = some target) : m.defines target := by
  cases inst with
  | globalGet name | globalSet name =>
    cases href
    exact Bool.or_eq_true_iff.2 (.inr h)
  | call name =>
    cases href
    exact Bool.or_eq_true_iff.2 (.inl h)
  | _ => cases href

/-- The local that an instruction reads or writes. -/
def Inst.local? {σ : Type} : Inst σ → Option UInt32
  | localGet index => some index
  | localSet index => some index
  | localTee index => some index
  | _ => none

namespace Func

variable {m : Module} {f : Func} {depth : Nat} {inst : Inst String} {body : List (Inst String)}

/-! ### Bodies -/

theorem ite_defect_eq_none_iff {p : Prop} [Decidable p] {x : Option Defect} {defect : Defect} :
    (if p then x else some defect) = none ↔ p ∧ x = none := by
  split_ifs with hp <;> simp [hp]

/-- A piece of a body has no defect if its first instruction has none and there is none in what
follows, in as many blocks as are open then. -/
theorem bodyDefect?_cons_eq_none_iff :
    f.bodyDefect? m depth (inst :: body) = none ↔
      inst.Resolved m ∧ (∀ index, inst.local? = some index → index.toNat < f.localCount) ∧
        (∀ target, inst.target? = some target → target.toNat ≤ depth) ∧
          ∃ d, inst.depthAfter? depth = some d ∧ f.bodyDefect? m d body = none := by
  cases inst with
  | localGet index | localSet index | localTee index | globalGet target | globalSet target
  | call target | br target | brIf target =>
    simp only [Inst.Resolved, Inst.local?, Inst.target?, Inst.depthAfter?, reduceCtorEq,
      Option.some.injEq, IsEmpty.forall_iff, implies_true, forall_eq', exists_eq_left', true_and]
    exact ite_defect_eq_none_iff
  | close =>
    cases depth with
    | zero => exact ⟨nofun, fun ⟨_, _, _, _, hdepth, _⟩ => nomatch hdepth⟩
    | succ outer =>
      simp only [Inst.Resolved, Inst.local?, Inst.target?, Inst.depthAfter?, reduceCtorEq,
        Option.some.injEq, IsEmpty.forall_iff, implies_true, exists_eq_left', true_and]
      exact Iff.rfl
  | _ =>
    simp only [Inst.Resolved, Inst.local?, Inst.target?, Inst.depthAfter?, reduceCtorEq,
      Option.some.injEq, IsEmpty.forall_iff, implies_true, exists_eq_left', true_and]
    exact Iff.rfl

/-- A piece of a body has no defect if its references and locals exist, its branches stay in the
function, and it leaves no block open. -/
theorem bodyDefect?_eq_none_iff :
    f.bodyDefect? m depth body = none ↔
      (∀ inst ∈ body, inst.Resolved m) ∧
        (∀ inst ∈ body, ∀ index, inst.local? = some index → index.toNat < f.localCount) ∧
          BranchesWithin depth body ∧ depthAfter? depth body = some 0 := by
  induction body generalizing depth with
  | nil =>
    have hnone : f.bodyDefect? m depth [] = none ↔ depth = 0 := by
      refine ite_defect_eq_none_iff.trans ?_
      simp
    simp [hnone, BranchesWithin, depthAfter?]
  | cons inst body ih =>
    rw [bodyDefect?_cons_eq_none_iff, branchesWithin_cons_iff, depthAfter?_cons,
      List.forall_mem_cons, List.forall_mem_cons]
    rcases inst.depthAfter? depth with _ | d
    · simp
    · simp only [Option.some.injEq, exists_eq_left', forall_eq', Option.bind_some, ih]
      tauto

theorem defect?_eq_none_iff :
    f.defect? m = none ↔ f.results.toNat ≤ 1 ∧ f.bodyDefect? m 0 f.body = none := by
  unfold defect?
  split_ifs with hresults
  · simp [Nat.not_le_of_lt hresults]
  · simp [Nat.le_of_not_lt hresults]

theorem resolved_of_defect? (h : f.defect? m = none) : ∀ inst ∈ f.body, inst.Resolved m :=
  (bodyDefect?_eq_none_iff.1 (defect?_eq_none_iff.1 h).2).1

/-- Each global that a body reads or writes is a global of the module, and each function that it
calls is a function of the module. -/
structure ReferencesDefined (m : Module) (f : Func) : Prop where
  globals : ∀ name, .globalGet name ∈ f.body ∨ .globalSet name ∈ f.body →
    name ∈ m.globals.map Global.name
  calls : ∀ name, .call name ∈ f.body → name ∈ m.funcs.map Func.name

theorem referencesDefined_iff : f.ReferencesDefined m ↔ ∀ inst ∈ f.body, inst.Resolved m := by
  constructor
  · intro h inst hinst
    cases inst with
    | globalGet name => exact Module.isSome_global?_iff.2 (h.globals name (.inl hinst))
    | globalSet name => exact Module.isSome_global?_iff.2 (h.globals name (.inr hinst))
    | call name => exact Module.isSome_func?_iff.2 (h.calls name hinst)
    | _ => trivial
  · intro h
    constructor
    · rintro name (hname | hname)
      · exact Module.isSome_global?_iff.1 (h _ hname)
      · exact Module.isSome_global?_iff.1 (h _ hname)
    · exact fun name hname => Module.isSome_func?_iff.1 (h _ hname)

/-- A function that fits into a module. -/
structure WellFormed (m : Module) (f : Func) : Prop where
  results : f.results.toNat ≤ 1
  locals : ∀ inst ∈ f.body, ∀ index, inst.local? = some index →
    index.toNat < f.params.toNat + f.locals.toNat
  references : f.ReferencesDefined m
  balanced : Balanced f.body
  /-- a branch may leave all blocks and loops around it, and with them the function -/
  branches : ∀ before inst after depth, f.body = before ++ inst :: after →
    inst.target? = some depth →
      ∃ blocks, Encloses blocks before after ∧ depth.toNat ≤ blocks.length

theorem defect?_eq_none_iff_wellFormed : f.defect? m = none ↔ f.WellFormed m := by
  rw [defect?_eq_none_iff, bodyDefect?_eq_none_iff, ← referencesDefined_iff,
    depthAfter?_eq_zero_iff]
  constructor
  · rintro ⟨hresults, hreferences, hlocals, hbranches, hbalanced⟩
    exact ⟨hresults, hlocals, hreferences, hbalanced, hbalanced.branchesWithin_iff.1 hbranches⟩
  · intro h
    exact ⟨h.results, h.references, h.locals, h.balanced.branchesWithin_iff.2 h.branches,
      h.balanced⟩

end Func

/-! ### Modules -/

namespace Module

variable {m : Module}

/-- A module whose names are pairwise distinct and whose functions fit into it. -/
structure WellFormed (m : Module) : Prop where
  distinct : (m.globals.map Global.name ++ m.funcs.map Func.name).Nodup
  funcs : ∀ f ∈ m.funcs, f.WellFormed m

theorem verify_eq_ok_iff :
    m.verify = .ok () ↔ m.names.Nodup ∧ ∀ f ∈ m.funcs, f.defect? m = none := by
  rw [← firstRepeat?_nil_eq_none_iff, ← List.findSome?_eq_none_iff, verify, defect?]
  cases firstRepeat? [] m.names with
  | some name => simp
  | none =>
    cases m.funcs.findSome? (Func.defect? m) with
    | some defect => simp
    | none => simp

/-- Verification succeeds on the well-formed modules and on no others. -/
theorem verify_eq_ok_iff_wellFormed (m : Module) : m.verify = .ok () ↔ m.WellFormed := by
  rw [verify_eq_ok_iff]
  constructor
  · rintro ⟨hdistinct, hfuncs⟩
    exact ⟨hdistinct, fun f hf => Func.defect?_eq_none_iff_wellFormed.1 (hfuncs f hf)⟩
  · intro h
    exact ⟨h.distinct, fun f hf => Func.defect?_eq_none_iff_wellFormed.2 (h.funcs f hf)⟩

theorem name_of_func? {name : String} {f : Func} (h : m.func? name = some f) : f.name = name :=
  eq_of_beq (List.find?_some (p := fun f : Func => f.name == name) h)

/-- A module that verifies defines what its functions refer to. -/
theorem defines_of_verify (h : m.verify = .ok ()) {name : String} {f : Func}
    (hf : m.func? name = some f) : ∀ target ∈ f.references, m.defines target := by
  intro target ht
  have hdefect := (verify_eq_ok_iff.1 h).2 f (List.mem_of_find?_eq_some hf)
  obtain ⟨inst, hi, href⟩ := List.mem_filterMap.1 ht
  exact (Func.resolved_of_defect? hdefect inst hi).defines href

end Module

end ComputeScript
