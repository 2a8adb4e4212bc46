import ComputeScript.Exec.Validate
import ComputeScript.Proofs.Object.Contents
import ComputeScript.Proofs.Symbols

/-!
# Code that type-checks

Whether a body type-checks depends on what its own references stand for, so it still does where
these are replaced by others that stand for the same (`Context.accepts_of_related`).  Folding keeps
it, in reachable code and behind a branch (`Context.accepts_foldBody`): the operands of a folding
are pushed right before it, and the stack never gets below the start of the block
(`Checker.Nested`).  The loop of a wrapper type-checks wherever its kernel has the type that its
signature asks for (`Kernel.accepts_wrapperBody`).
-/

namespace ComputeScript

variable {σ τ : Type}

/-! ### Other references -/

/-- What is referred to in `ctx` stands for the same in `ctx'`. -/
structure Context.Embeds (func global : σ → τ → Prop) (ctx : Context σ) (ctx' : Context τ) :
    Prop where
  locals : ctx'.locals = ctx.locals
  results : ctx'.results = ctx.results
  func : ∀ {a b t}, func a b → ctx.func? a = some t → ctx'.func? b = some t
  global : ∀ {a b}, global a b → ctx.hasGlobal a → ctx'.hasGlobal b

section

variable {func global : σ → τ → Prop} {ctx : Context σ} {ctx' : Context τ}

theorem Checker.inst_of_related {inst : Inst σ} {inst' : Inst τ} {c c' : Checker}
    (h : ctx.Embeds func global ctx') (hinst : Inst.Related func global inst inst')
    (hmemory : inst.usesMemory → ctx'.hasMemory) (hc : c.inst ctx inst = some c') :
    c.inst ctx' inst' = some c' := by
  cases hinst with
  | localGet | localSet | localTee =>
    rw [inst, h.locals]
    exact hc
  | globalGet htarget | globalSet htarget =>
    rw [inst] at hc ⊢
    split_ifs at hc with hglobal
    rwa [if_pos (h.global htarget hglobal)]
  | load | store =>
    rw [inst] at hc ⊢
    split_ifs at hc
    rwa [if_pos (hmemory rfl)]
  | call htarget =>
    obtain ⟨t, ht, hc⟩ := Option.bind_eq_some_iff.1 hc
    rw [inst, h.func htarget ht]
    exact hc
  | ret =>
    rw [inst, h.results]
    exact hc
  | _ => exact hc

theorem Checker.body_of_related {body : List (Inst σ)} {body' : List (Inst τ)} {c : Checker}
    (h : ctx.Embeds func global ctx') (hbody : List.Forall₂ (Inst.Related func global) body body')
    (hmemory : ∀ inst ∈ body, inst.usesMemory → ctx'.hasMemory) (hc : c.body ctx body) :
    c.body ctx' body' := by
  induction hbody generalizing c with
  | nil =>
    rw [Checker.body, h.results]
    exact hc
  | @cons inst inst' body body' hinst _ ih =>
    obtain ⟨hinstMemory, hmemory⟩ := List.forall_mem_cons.1 hmemory
    rw [Checker.body] at hc
    split at hc
    · rename_i c' hc'
      rw [Checker.body, inst_of_related h hinst hinstMemory hc']
      exact ih hmemory hc
    · cases hc

theorem Context.accepts_of_related {body : List (Inst σ)} {body' : List (Inst τ)}
    (h : ctx.Embeds func global ctx') (hbody : List.Forall₂ (Inst.Related func global) body body')
    (hmemory : ∀ inst ∈ body, inst.usesMemory → ctx'.hasMemory) (haccepts : ctx.accepts body) :
    ctx'.accepts body' := by
  rw [accepts, h.results]
  exact Checker.body_of_related h hbody hmemory haccepts

end

/-- An instruction is related to itself by what its reference has. -/
theorem Inst.related_self {p : σ → Prop} {inst : Inst σ}
    (h : ∀ target, inst.reference? = some target → p target) :
    Inst.Related (fun a b => a = b ∧ p a) (fun a b => a = b ∧ p a) inst inst := by
  cases inst with
  | globalGet target => exact .globalGet ⟨rfl, h target rfl⟩
  | globalSet target => exact .globalSet ⟨rfl, h target rfl⟩
  | call target => exact .call ⟨rfl, h target rfl⟩
  | _ => constructor

/-- A body still type-checks where all that it refers to stands for what it stood for. -/
theorem Context.accepts_of_references {ctx ctx' : Context σ} {body : List (Inst σ)}
    (haccepts : ctx.accepts body) (hlocals : ctx'.locals = ctx.locals)
    (hresults : ctx'.results = ctx.results)
    (hfunc : ∀ target ∈ body.filterMap Inst.reference?, ∀ t,
      ctx.func? target = some t → ctx'.func? target = some t)
    (hglobal : ∀ target ∈ body.filterMap Inst.reference?,
      ctx.hasGlobal target → ctx'.hasGlobal target)
    (hmemory : ∀ inst ∈ body, inst.usesMemory → ctx'.hasMemory) : ctx'.accepts body := by
  refine accepts_of_related ⟨hlocals, hresults, ?_, ?_⟩
    (List.forall₂_same.2 fun inst hinst => Inst.related_self fun target ht =>
      List.mem_filterMap.2 ⟨inst, hinst, ht⟩) hmemory haccepts
  · rintro a _ t ⟨rfl, ha⟩
    exact hfunc a ha t
  · rintro a _ ⟨rfl, ha⟩
    exact hglobal a ha

/-! ### Folding -/

namespace Checker

/-- The stack is not below the start of the innermost block, nor is any block started below the one
around it. -/
def Nested (c : Checker) : Prop :=
  List.IsChain (· ≥ ·) (c.height :: c.inner.height :: c.outer.map Region.height)

variable {ctx : Context σ} {c c' : Checker}

theorem Nested.push (h : c.Nested) (n : Nat) : (c.push n).Nested := by
  unfold Nested at h ⊢
  simp only [Checker.push]
  grind

theorem Nested.pop (h : c.Nested) (hpop : c.pop = some c') : c'.Nested := by
  unfold Checker.pop at hpop
  unfold Nested at h ⊢
  grind

theorem Nested.popMany (h : c.Nested) {n : Nat} (hpop : c.popMany n = some c') : c'.Nested := by
  induction n generalizing c with
  | zero =>
    obtain ⟨rfl⟩ := hpop
    exact h
  | succ n ih =>
    obtain ⟨c₁, hc₁, hpop⟩ := Option.bind_eq_some_iff.1 hpop
    exact ih (h.pop hc₁) hpop

theorem Nested.unreachable (h : c.Nested) : c.unreachable.Nested := by
  unfold Nested at h ⊢
  simp only [Checker.unreachable]
  grind

theorem Nested.enter (h : c.Nested) : c.enter.Nested := by
  unfold Nested at h ⊢
  simp only [Checker.enter]
  grind

theorem Nested.leave (h : c.Nested) (hleave : c.leave = some c') : c'.Nested := by
  unfold Checker.leave at hleave
  unfold Nested at h ⊢
  grind

/-- Every instruction keeps the blocks nested. -/
theorem Nested.inst {inst : Inst σ} (h : c.Nested) (hc : c.inst ctx inst = some c') : c'.Nested := by
  cases inst with
  | const value =>
    obtain ⟨rfl⟩ := hc
    exact h.push 1
  | localGet index | globalGet target =>
    rw [Checker.inst] at hc
    split_ifs at hc
    obtain ⟨rfl⟩ := hc
    exact h.push 1
  | localSet index | globalSet target =>
    rw [Checker.inst] at hc
    split_ifs at hc
    exact h.pop hc
  | localTee index | load offset =>
    rw [Checker.inst] at hc
    split_ifs at hc
    obtain ⟨c₁, hc₁, rfl⟩ := Option.map_eq_some_iff.1 hc
    exact (h.pop hc₁).push 1
  | store offset =>
    rw [Checker.inst] at hc
    split_ifs at hc
    exact h.popMany hc
  | binary op =>
    obtain ⟨c₁, hc₁, rfl⟩ := Option.map_eq_some_iff.1 hc
    exact (h.popMany hc₁).push 1
  | eqz =>
    obtain ⟨c₁, hc₁, rfl⟩ := Option.map_eq_some_iff.1 hc
    exact (h.pop hc₁).push 1
  | call target =>
    obtain ⟨t, -, hc⟩ := Option.bind_eq_some_iff.1 hc
    obtain ⟨c₁, hc₁, rfl⟩ := Option.map_eq_some_iff.1 hc
    exact (h.popMany hc₁).push _
  | block | loop =>
    obtain ⟨rfl⟩ := hc
    exact h.enter
  | close => exact h.leave hc
  | br depth =>
    obtain ⟨n, -, hc⟩ := Option.bind_eq_some_iff.1 hc
    obtain ⟨c₁, hc₁, rfl⟩ := Option.map_eq_some_iff.1 hc
    exact (h.popMany hc₁).unreachable
  | brIf depth =>
    obtain ⟨n, -, hc⟩ := Option.bind_eq_some_iff.1 hc
    obtain ⟨c₁, hc₁, hc⟩ := Option.bind_eq_some_iff.1 hc
    obtain ⟨c₂, hc₂, rfl⟩ := Option.map_eq_some_iff.1 hc
    exact ((h.pop hc₁).popMany hc₂).push n
  | drop => exact h.pop hc
  | ret =>
    obtain ⟨c₁, hc₁, rfl⟩ := Option.map_eq_some_iff.1 hc
    exact (h.popMany hc₁).unreachable

/-- An operand that was just pushed is the one that is taken. -/
theorem Nested.pop_push (h : c.Nested) (n : Nat) : (c.push (n + 1)).pop = some (c.push n) := by
  unfold Nested at h
  simp only [Checker.pop, Checker.push]
  grind

/-- A folding changes nothing of what is known behind it. -/
theorem Nested.body_of_folds (h : c.Nested) {code code' : List (Inst σ)} (hfolds : Folds code code') :
    c.body ctx code' = c.body ctx code := by
  induction hfolds generalizing c with
  | binary code _ =>
    have hpop : ((c.push 1).push 1).popMany 2 = some c := by
      have h₂ := (h.push 1).pop_push 0
      have h₁ := h.pop_push 0
      simp only [Checker.push, Nat.add_zero] at h₁ h₂ ⊢
      simp only [Checker.popMany, h₂, h₁, Option.bind_some]
    simp only [Checker.body, Checker.inst, hpop, Option.map_some]
  | eqz v code =>
    have hpop : (c.push 1).pop = some (c.push 0) := h.pop_push 0
    simp only [Checker.body, Checker.inst, hpop, Option.map_some]
    rfl
  | cons inst _ ih =>
    simp only [Checker.body]
    split
    · exact ih (h.inst ‹_›)
    · rfl

end Checker

/-- Folding keeps whether a body type-checks. -/
theorem Context.accepts_foldBody (ctx : Context σ) (body : List (Inst σ)) :
    ctx.accepts (foldBody body).1 = ctx.accepts body := by
  have hstart : Checker.Nested ⟨0, ⟨0, ctx.results, false⟩, []⟩ := by simp [Checker.Nested]
  refine foldBody_invariant (g := ctx.accepts) (fun h => ?_) body
  exact hstart.body_of_folds h

/-! ### Wrappers -/

/-- The loop of a wrapper type-checks where its kernel has the type that its signature asks for. -/
theorem Kernel.accepts_wrapperBody {ctx : Context String} {k : Kernel} (fixed : Bool)
    (hlocals : ctx.locals = 6) (hresults : ctx.results = 0) (hmemory : ctx.hasMemory = true)
    (hfunc : ctx.func? k.name = some ⟨k.signature.params, k.signature.results⟩) :
    ctx.accepts (k.wrapperBody fixed) := by
  -- the kernel is all that a wrapper refers to, so every name may have its type
  let every : Context String :=
    { locals := 6, results := 0, hasGlobal := ctx.hasGlobal, hasMemory := true
      func? := fun _ => some ⟨k.signature.params, k.signature.results⟩ }
  have hevery : every.accepts (k.wrapperBody fixed) := by
    obtain ⟨name, takesIn, returnsOut, takesIndex⟩ := k
    cases fixed <;> cases takesIn <;> cases returnsOut <;> cases takesIndex <;> rfl
  refine Context.accepts_of_references hevery hlocals hresults (fun target ht t hsome => ?_)
    (fun _ _ h => h) fun _ _ _ => hmemory
  rw [references_wrapperBody, List.mem_singleton] at ht
  rw [ht, hfunc]
  exact hsome

end ComputeScript
