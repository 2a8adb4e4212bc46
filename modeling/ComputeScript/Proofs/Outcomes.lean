import ComputeScript.Pass.Emit
import ComputeScript.Proofs.Compile.Stages
import ComputeScript.Proofs.Fold.NormalForm
import ComputeScript.Proofs.Symbols

/-!
# What passes say they did

A pass counts what it does: names that it hides, windows that it folds, definitions that it drops,
wrappers that it makes.  Each of these numbers is zero exactly if the module stays as it is
(`Module.internalize_eq_self_iff`, `Module.fold_eq_self_iff`, `Module.eliminate_eq_self_iff`,
`Module.eq_of_expand_iff`), and on what a pass left it is zero.  `Pass.outcomes_honest` says what
follows for single passes and for runs of them.
-/

namespace ComputeScript

theorem map_eq_self_iff {α : Type} {f : α → α} {as : List α} :
    as.map f = as ↔ ∀ a ∈ as, f a = a := by
  have hinj := List.map_inj_left (f := f) (g := id) (l := as)
  rwa [List.map_id] at hinj

/-! ### Folding -/

/-- Every folding takes an instruction away. -/
theorem FoldsIn.length_add_le {σ : Type} {n : Nat} {code code' : List (Inst σ)}
    (h : FoldsIn n code code') : code'.length + n ≤ code.length := by
  induction h with
  | refl code => exact Nat.le_refl _
  | step hfolds _ ih =>
    have hlt := hfolds.length_lt
    omega

theorem FoldsIn.eq_of_zero {σ : Type} {code code' : List (Inst σ)} (h : FoldsIn 0 code code') :
    code' = code := by
  cases h
  rfl

theorem Func.fold_eq_self_iff {f : Func} : f.fold = f ↔ f.foldCount = 0 := by
  have hfolds : FoldsIn f.foldCount f.body f.fold.body := foldsIn_foldBody f.body
  constructor
  · intro hsame
    have hlength := hfolds.length_add_le
    rw [hsame] at hlength
    omega
  · intro hcount
    have hbody : f.fold.body = f.body := (hcount ▸ hfolds).eq_of_zero
    calc f.fold = { f with body := f.fold.body } := rfl
      _ = f := by rw [hbody]

namespace Module

variable {m m' : Module} {keep : List String} {fixed : Bool} {kernels : List Kernel}

theorem foldCount_eq_zero_iff : m.foldCount = 0 ↔ ∀ f ∈ m.funcs, f.foldCount = 0 := by
  rw [foldCount]
  induction m.funcs with
  | nil => simp
  | cons f fs ih => rw [List.foldr_cons, Nat.add_eq_zero_iff, ih, List.forall_mem_cons]

theorem fold_eq_self_iff : m.fold = m ↔ m.foldCount = 0 := by
  have hfuncs : m.fold = m ↔ m.funcs.map Func.fold = m.funcs :=
    ⟨congrArg Module.funcs, fun h => by rw [fold, h]⟩
  rw [hfuncs, map_eq_self_iff, foldCount_eq_zero_iff]
  exact forall₂_congr fun f _ => Func.fold_eq_self_iff

/-! ### Internalization -/

theorem keepIf_eq_self_iff {kept : Bool} {l : Linkage} :
    l.keepIf kept = l ↔ (l = .external → kept = true) := by
  cases kept <;> cases l <;> decide

/-- A module without other external names than those to keep stays as it is. -/
theorem internalize_eq_self_iff : m.internalize keep = m ↔ m.hiddenCount keep = 0 := by
  have hparts : m.internalize keep = m ↔
      (m.internalize keep).globals = m.globals ∧ (m.internalize keep).funcs = m.funcs := by
    obtain ⟨id, globals, funcs⟩ := m
    simp only [internalize, Module.mk.injEq, true_and]
  have hglobal (g : Global) :
      { g with linkage := g.linkage.keepIf (keep.contains g.name) } = g ↔
        (g.isExternal = true → g.name ∈ keep) := by
    obtain ⟨name, linkage, init⟩ := g
    simp [keepIf_eq_self_iff, Global.isExternal]
  have hfunc (f : Func) :
      { f with linkage := f.linkage.keepIf (keep.contains f.name) } = f ↔
        (f.isExternal = true → f.name ∈ keep) := by
    obtain ⟨name, linkage, params, results, locals, body⟩ := f
    simp [keepIf_eq_self_iff, Func.isExternal]
  rw [hparts, internalize, map_eq_self_iff, map_eq_self_iff, hiddenCount, List.length_eq_zero_iff,
    List.filter_eq_nil_iff, externalNames]
  simp only [hglobal, hfunc, List.forall_mem_append, List.forall_mem_map, List.mem_filter, and_imp,
    Bool.not_eq_true', Bool.not_eq_false, List.contains_iff_mem]

theorem internalize_internalize (keep : List String) (m : Module) :
    (m.internalize keep).internalize keep = m.internalize keep := by
  rw [internalize_eq_self_iff, hiddenCount, List.length_eq_zero_iff, List.filter_eq_nil_iff]
  intro name hname
  simp [(mem_externalNames_internalize_iff.1 hname).2]

/-! ### Elimination -/

theorem eliminate_eq_self_iff : m.eliminate = m ↔ ¬ m.eliminate.size < m.size := by
  constructor
  · intro hsame
    rw [hsame]
    exact Nat.lt_irrefl _
  · intro hsize
    have hglobals : m.eliminate.globals.Sublist m.globals := List.filter_sublist
    have hfuncs : m.eliminate.funcs.Sublist m.funcs := List.filter_sublist
    have hle := hglobals.length_le
    have hle' := hfuncs.length_le
    simp only [size] at hsize
    calc m.eliminate = ⟨m.id, m.eliminate.globals, m.eliminate.funcs⟩ := rfl
      _ = m := by
        rw [hglobals.eq_of_length_le (by omega), hfuncs.eq_of_length_le (by omega)]

/-- Elimination leaves nothing that is not live. -/
theorem eliminate_eliminate (m : Module) : m.eliminate.eliminate = m.eliminate := by
  have hlive {name : String} (hname : m.live.contains name = true) :
      m.eliminate.live.contains name = true := by
    rw [List.contains_iff_mem, mem_live_iff] at hname ⊢
    exact hname.eliminate
  have hglobals : (m.eliminate.globals.filter fun g => m.eliminate.live.contains g.name) =
      m.eliminate.globals := List.filter_eq_self.2 fun g hg => hlive (List.mem_filter.1 hg).2
  have hfuncs : (m.eliminate.funcs.filter fun f => m.eliminate.live.contains f.name) =
      m.eliminate.funcs := List.filter_eq_self.2 fun f hf => hlive (List.mem_filter.1 hf).2
  rw [eliminate, restrict, hglobals, hfuncs]

/-! ### Expansion -/

theorem eq_of_expand_iff (h : m.expand fixed kernels = .ok m') :
    m' = m ↔ (m.unexpanded kernels).isEmpty = true := by
  obtain ⟨-, rfl⟩ := expand_eq_ok_iff.1 h
  rw [List.isEmpty_iff]
  constructor
  · intro hsame
    simpa using congrArg Module.funcs hsame
  · intro hnone
    rw [hnone, List.map_nil, List.append_nil]

/-- After expansion there is a wrapper for every kernel. -/
theorem unexpanded_of_expand (h : m.expand fixed kernels = .ok m') :
    m'.unexpanded kernels = [] := by
  rw [unexpanded_eq_filter, List.filter_eq_nil_iff]
  intro k hk
  simp [wrapperName_mem_names_of_expand h hk]

end Module

namespace Pass

/-- The outcome that says truly what became of a module. -/
def outcomeOf (before after : Module) : Outcome :=
  if after = before then .unchanged else .changed

variable {before after : Module}

theorem outcomeOf_self (module : Module) : outcomeOf module module = .unchanged :=
  if_pos rfl

theorem outcomeOf_eq_changed_iff : outcomeOf before after = .changed ↔ after ≠ before := by
  unfold outcomeOf
  split_ifs with h <;> simp [h]

theorem ite_eq_outcomeOf {c : Prop} [Decidable c] (h : after = before ↔ ¬ c) :
    (if c then Outcome.changed else .unchanged) = outcomeOf before after := by
  unfold outcomeOf
  by_cases hc : c <;> simp [h, hc]

theorem changed_add_iff {s : Summary} {outcome : Outcome} :
    (s.add outcome).changed = true ↔ s.changed = true ∨ outcome = .changed := by
  cases outcome <;> simp [Summary.add]

variable {m : Type → Type} [Monad m]

/-- A pass answers with a result, and this is what it makes of a module. -/
def Leaves (p : Pass m) (before : Module) (result : Except PassError Outcome) (after : Module) :
    Prop :=
  p.run.run.run before = pure (result, after)

/-- The passes that transform modules. -/
inductive IsTransform : Pass m → Prop where
  | internalize (keep : List String) : IsTransform (.internalize keep)
  | fold : IsTransform .fold
  | eliminate : IsTransform .eliminate
  | expand (fixed : Bool) (kernels : List Kernel) : IsTransform (.expand fixed kernels)

/-- The passes that emit artifacts. -/
inductive IsEmitter : Pass m → Prop where
  | object : IsEmitter .emitObject
  | assembly (triple : String) (level : OptLevel) : IsEmitter (.emitAssembly triple level)

/-- Passes that run one after the other, each with the module that it finds and the one that it
leaves. -/
inductive RunsThrough : List (Pass m) → Module → List (Module × Module) → Module → Prop where
  | nil (last : Module) : RunsThrough [] last [] last
  | cons {p : Pass m} {passes : List (Pass m)} {before after last : Module} {outcome : Outcome}
      {steps : List (Module × Module)} (h : p.Leaves before (.ok outcome) after)
      (hrest : RunsThrough passes after steps last) :
      RunsThrough (p :: passes) before ((before, after) :: steps) last

variable {p : Pass m}

/-! ### Single passes -/

/-- A pass that says truly what it does is settled by running once, if what it does leaves nothing
more of the kind to do. -/
theorem exists_leaves_of_idempotent {f : Module → Module}
    (hrun : ∀ module, p.Leaves module (.ok (outcomeOf module (f module))) (f module))
    (hagain : ∀ module, f (f module) = f module) (before : Module) :
    ∃ result after, p.Leaves before result after ∧ ∀ outcome, result = .ok outcome →
      outcome = outcomeOf before after ∧ p.Leaves after (.ok .unchanged) after := by
  refine ⟨_, _, hrun before, ?_⟩
  rintro outcome ⟨⟩
  have hsecond := hrun (f before)
  rw [hagain, outcomeOf_self] at hsecond
  exact ⟨rfl, hsecond⟩

variable [LawfulMonad m]

theorem leaves_internalize (keep : List String) (module : Module) :
    (Pass.internalize (m := m) keep).Leaves module
      (.ok (outcomeOf module (module.internalize keep))) (module.internalize keep) := by
  have hcount : module.internalize keep = module ↔ ¬ 0 < module.hiddenCount keep := by
    rw [Module.internalize_eq_self_iff, Nat.pos_iff_ne_zero, not_not]
  rw [← ite_eq_outcomeOf hcount]
  exact run_internalize keep module

theorem leaves_fold (module : Module) :
    (Pass.fold (m := m)).Leaves module (.ok (outcomeOf module module.fold)) module.fold := by
  have hcount : module.fold = module ↔ ¬ 0 < module.foldCount := by
    rw [Module.fold_eq_self_iff, Nat.pos_iff_ne_zero, not_not]
  rw [← ite_eq_outcomeOf hcount]
  exact run_fold module

theorem leaves_eliminate (module : Module) :
    (Pass.eliminate (m := m)).Leaves module (.ok (outcomeOf module module.eliminate))
      module.eliminate := by
  rw [← ite_eq_outcomeOf Module.eliminate_eq_self_iff]
  exact run_eliminate module

theorem leaves_expand_of_ok {fixed : Bool} {kernels : List Kernel}
    (h : before.expand fixed kernels = .ok after) :
    (Pass.expand (m := m) fixed kernels).Leaves before (.ok (outcomeOf before after)) after := by
  have hnew : after = before ↔ ¬ ¬ (before.unexpanded kernels).isEmpty = true :=
    (Module.eq_of_expand_iff h).trans not_not.symm
  rw [← ite_eq_outcomeOf hnew, ite_not, Leaves, run_expand, h]

theorem leaves_expand_of_error {fixed : Bool} {kernels : List Kernel} {fault : ExpandFault}
    (h : before.expand fixed kernels = .error fault) :
    (Pass.expand (m := m) fixed kernels).Leaves before
      (.error ⟨"foreach-expand", fault.message⟩) before := by
  rw [Leaves, run_expand, h]

theorem IsTransform.exists_leaves (h : p.IsTransform) (before : Module) :
    ∃ result after, p.Leaves before result after ∧ ∀ outcome, result = .ok outcome →
      outcome = outcomeOf before after ∧ p.Leaves after (.ok .unchanged) after := by
  cases h with
  | internalize keep =>
    exact exists_leaves_of_idempotent (leaves_internalize keep)
      (Module.internalize_internalize keep) before
  | fold => exact exists_leaves_of_idempotent leaves_fold Module.fold_fold before
  | eliminate =>
    exact exists_leaves_of_idempotent leaves_eliminate Module.eliminate_eliminate before
  | expand fixed kernels =>
    rcases hexpand : before.expand fixed kernels with fault | after
    · exact ⟨_, _, leaves_expand_of_error hexpand, nofun⟩
    · refine ⟨_, _, leaves_expand_of_ok hexpand, ?_⟩
      rintro outcome ⟨⟩
      have hagain : after.expand fixed kernels = .ok after := by
        rw [Module.expand, Module.unexpanded_of_expand hexpand]
        simp
      have hsecond := leaves_expand_of_ok (m := m) hagain
      rw [outcomeOf_self] at hsecond
      exact ⟨rfl, hsecond⟩

theorem IsEmitter.exists_leaves (h : p.IsEmitter) (before : Module) :
    ∃ result, p.Leaves before result before ∧ ∀ outcome, result = .ok outcome →
      ∃ bytes, outcome = .emitted bytes := by
  have hemitter (name : String) (f : Module → Except String Bytes) :
      ∃ result, (ofEmitter (m := m) name f).Leaves before result before ∧
        ∀ outcome, result = .ok outcome → ∃ bytes, outcome = .emitted bytes := by
    rcases hf : f before with reason | bytes
    · exact ⟨.error ⟨name, reason⟩, by rw [Leaves, run_ofEmitter, hf], nofun⟩
    · refine ⟨.ok (.emitted bytes), by rw [Leaves, run_ofEmitter, hf], ?_⟩
      rintro outcome ⟨⟩
      exact ⟨bytes, rfl⟩
  cases h with
  | object => exact hemitter _ _
  | assembly triple level => exact hemitter _ _

/-! ### Runs -/

/-- Whatever a pass answers, it is that it changed the module exactly if it did. -/
theorem exists_leaves_honest (h : p.IsTransform ∨ p.IsEmitter) (before : Module) :
    ∃ result after, p.Leaves before result after ∧
      ∀ outcome, result = .ok outcome → (outcome = .changed ↔ after ≠ before) := by
  rcases h with h | h
  · obtain ⟨result, after, hleaves, houtcome⟩ := h.exists_leaves before
    refine ⟨result, after, hleaves, fun outcome hok => ?_⟩
    rw [(houtcome outcome hok).1, outcomeOf_eq_changed_iff]
  · obtain ⟨result, hleaves, houtcome⟩ := h.exists_leaves before
    refine ⟨result, before, hleaves, fun outcome hok => ?_⟩
    obtain ⟨bytes, rfl⟩ := houtcome outcome hok
    exact iff_of_false nofun fun hne => hne rfl

theorem exists_runFrom {passes : List (Pass m)}
    (h : ∀ p ∈ passes, p.IsTransform ∨ p.IsEmitter) (s : Summary) (before : Module) :
    ∃ result last, (runFrom s passes).run.run before = pure (result, last) ∧
      ∀ summary, result = .ok summary → ∃ steps, RunsThrough passes before steps last ∧
        (summary.changed = true ↔ s.changed = true ∨ ∃ step ∈ steps, step.2 ≠ step.1) := by
  induction passes generalizing s before with
  | nil =>
    refine ⟨.ok s, before, rfl, ?_⟩
    rintro summary ⟨⟩
    exact ⟨[], .nil before, by simp⟩
  | cons p passes ih =>
    obtain ⟨hp, hpasses⟩ := List.forall_mem_cons.1 h
    obtain ⟨result, after, hleaves, hhonest⟩ := exists_leaves_honest hp before
    rcases result with e | outcome
    · exact ⟨_, _, run_runFrom_cons_of_error hleaves s passes, nofun⟩
    · obtain ⟨result, last, hrun, hsummary⟩ := ih hpasses (s.add outcome) after
      refine ⟨result, last, (run_runFrom_cons_of_ok hleaves s passes).trans hrun, ?_⟩
      intro summary hok
      obtain ⟨steps, hsteps, hchanged⟩ := hsummary summary hok
      refine ⟨_, .cons hleaves hsteps, ?_⟩
      rw [hchanged, changed_add_iff, hhonest outcome rfl, or_assoc]
      simp

/-- Whatever a module is, verified or not: if a transformation succeeds it answers that it changed
the module exactly if it did, and otherwise that it did not; run once more it changes nothing, and
says so.  An emitter leaves the module as it is.  And a run of any of these passes, if it succeeds,
reports a change exactly if one of its passes changed the module that it found. -/
theorem outcomes_honest (ω : Type) :
    (∀ p : Pass (StateM ω), p.IsTransform → ∀ before, ∃ result after,
      p.Leaves before result after ∧ ∀ outcome, result = .ok outcome →
        outcome = outcomeOf before after ∧ p.Leaves after (.ok .unchanged) after) ∧
      (∀ p : Pass (StateM ω), p.IsEmitter → ∀ before, ∃ result, p.Leaves before result before) ∧
      ∀ passes : List (Pass (StateM ω)), (∀ p ∈ passes, p.IsTransform ∨ p.IsEmitter) →
        ∀ before, ∃ result last, (runAll passes).run.run before = pure (result, last) ∧
          ∀ summary, result = .ok summary → ∃ steps, RunsThrough passes before steps last ∧
            (summary.changed = true ↔ ∃ step ∈ steps, step.2 ≠ step.1) := by
  refine ⟨fun p h before => h.exists_leaves before, fun p h before => ?_, ?_⟩
  · obtain ⟨result, hleaves, -⟩ := h.exists_leaves before
    exact ⟨result, hleaves⟩
  · intro passes h before
    obtain ⟨result, last, hrun, hsummary⟩ := exists_runFrom h {} before
    refine ⟨result, last, hrun, fun summary hok => ?_⟩
    obtain ⟨steps, hsteps, hchanged⟩ := hsummary summary hok
    refine ⟨steps, hsteps, hchanged.trans ?_⟩
    simp

end Pass

end ComputeScript
