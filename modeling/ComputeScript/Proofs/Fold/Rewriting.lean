import ComputeScript.Pass.Fold
import ComputeScript.Proofs.Exec.Simulation
import Mathlib.Logic.Relation

/-!
# Folding as rewriting

`Folds code code'` rewrites one window of `code`: two constants and an operator with a value on
them, or a constant and a test for zero, become one constant.  `foldBody` does so again and again
(`reflTransGen_foldBody`), and pass `Module.fold` in all functions at once, so it is enough to know
what one rewriting does.  One pass leaves nothing to fold (`foldBody_foldBody`).
-/

namespace ComputeScript

open Relation

variable {σ : Type}

/-- One folding, at any place of a piece of code. -/
inductive Folds : List (Inst σ) → List (Inst σ) → Prop where
  | binary {op : BinOp} {l r v : Int32} (code : List (Inst σ)) (h : op.eval l r = some v) :
      Folds (.const l :: .const r :: .binary op :: code) (.const v :: code)
  | eqz (v : Int32) (code : List (Inst σ)) :
      Folds (.const v :: .eqz :: code) (.const (BinOp.truth (v == 0)) :: code)
  | cons (inst : Inst σ) {code code' : List (Inst σ)} (h : Folds code code') :
      Folds (inst :: code) (inst :: code')

theorem Folds.append_left (before : List (Inst σ)) {code code' : List (Inst σ)}
    (h : Folds code code') : Folds (before ++ code) (before ++ code') := by
  induction before with
  | nil => exact h
  | cons inst before ih => exact .cons inst ih

/-! ### What folding a body does -/

/-- One more instruction is written as it is, or folded with what was written last. -/
theorem foldPush_reflGen (out : List (Inst σ) × Nat) (inst : Inst σ) (code : List (Inst σ)) :
    ReflGen Folds (out.1.reverse ++ inst :: code) ((foldPush out inst).1.reverse ++ code) := by
  unfold foldPush
  split
  · rename_i op r l rest n
    split
    · rename_i v hv
      simp only [List.reverse_cons, List.append_assoc, List.cons_append, List.nil_append]
      exact .single (.append_left _ (.binary code hv))
    · simp only [List.reverse_cons, List.append_assoc, List.cons_append, List.nil_append]
      exact .refl
  · rename_i v rest n
    simp only [List.reverse_cons, List.append_assoc, List.cons_append, List.nil_append]
    exact .single (.append_left _ (.eqz v code))
  · simp only [List.reverse_cons, List.append_assoc, List.cons_append, List.nil_append]
    exact .refl

theorem reflTransGen_foldl_foldPush (out : List (Inst σ) × Nat) (code : List (Inst σ)) :
    ReflTransGen Folds (out.1.reverse ++ code) (code.foldl foldPush out).1.reverse := by
  induction code generalizing out with
  | nil =>
    rw [List.append_nil]
    exact .refl
  | cons inst code ih => exact (foldPush_reflGen out inst code).to_reflTransGen.trans (ih _)

theorem reflTransGen_foldBody (body : List (Inst σ)) :
    ReflTransGen Folds body (foldBody body).1 :=
  reflTransGen_foldl_foldPush ([], 0) body

/-- Folding a body keeps whatever every single folding keeps. -/
theorem foldBody_invariant {α : Type} {g : List (Inst σ) → α}
    (h : ∀ {code code'}, Folds code code' → g code' = g code) (body : List (Inst σ)) :
    g (foldBody body).1 = g body := by
  have hfold := reflTransGen_foldBody body
  generalize (foldBody body).1 = body' at hfold
  induction hfold with
  | refl => rfl
  | tail _ hstep ih => rw [h hstep, ih]

/-! ### Functions and modules -/

/-- Functions that differ by at most one folding in the body. -/
structure Func.Folds (f f' : Func) : Prop where
  rest : f' = { f with body := f'.body }
  body : ReflGen ComputeScript.Folds f.body f'.body

theorem Func.Folds.refl (f : Func) : f.Folds f := ⟨rfl, .refl⟩

/-- Modules that differ by at most one folding in each function. -/
structure Module.Folds (m m' : Module) : Prop where
  rest : m' = { m with funcs := m'.funcs }
  funcs : List.Forall₂ Func.Folds m.funcs m'.funcs

theorem Func.reflTransGen_fold (f : Func) : ReflTransGen Func.Folds f f.fold := by
  have h := (reflTransGen_foldBody f.body).lift (fun body => { f with body })
    fun _ _ h => (⟨rfl, .single h⟩ : Func.Folds _ _)
  exact h

theorem reflTransGen_forall₂_map {α : Type} {r : α → α → Prop} (hr : ∀ a, r a a) {g : α → α}
    (hg : ∀ a, ReflTransGen r a (g a)) (l : List α) :
    ReflTransGen (List.Forall₂ r) l (l.map g) := by
  induction l with
  | nil => exact .refl
  | cons a l ih =>
    have hhead : ReflTransGen (List.Forall₂ r) (a :: l) (g a :: l) :=
      (hg a).lift (· :: l) fun _ _ h => .cons h (List.forall₂_same.2 fun x _ => hr x)
    have htail : ReflTransGen (List.Forall₂ r) (g a :: l) (g a :: l.map g) :=
      ih.lift (g a :: ·) fun _ _ h => .cons (hr (g a)) h
    exact hhead.trans htail

theorem Module.reflTransGen_fold (m : Module) : ReflTransGen Module.Folds m m.fold := by
  have h := reflTransGen_forall₂_map Func.Folds.refl Func.reflTransGen_fold m.funcs
  exact h.lift (fun funcs => { m with funcs }) fun _ _ h => (⟨rfl, h⟩ : Module.Folds _ _)

/-! ### Folding again -/

/-- Code in reverse in which nothing is left to fold: each instruction is written as it is after
what comes before it. -/
inductive Folded : List (Inst σ) → Prop where
  | nil : Folded []
  | cons {inst : Inst σ} {out : List (Inst σ)} (h : Folded out)
      (hinst : ∀ n, foldPush (out, n) inst = (inst :: out, n)) : Folded (inst :: out)

theorem Folded.const {out : List (Inst σ)} (h : Folded out) (v : Int32) :
    Folded (.const v :: out) :=
  .cons h fun _ => rfl

theorem Folded.tail {inst : Inst σ} {out : List (Inst σ)} (h : Folded (inst :: out)) :
    Folded out := by
  cases h
  assumption

theorem folded_foldPush {out : List (Inst σ) × Nat} (h : Folded out.1) (inst : Inst σ) :
    Folded (foldPush out inst).1 := by
  unfold foldPush
  split
  · split
    · exact h.tail.tail.const _
    · next hnone => exact .cons h fun n => by simp only [foldPush, hnone]
  · exact h.tail.const _
  · next hbinary heqz =>
    refine .cons h fun n => ?_
    unfold foldPush
    split
    · next heq =>
      cases heq
      exact (hbinary _ _ _ _ rfl rfl).elim
    · next heq =>
      cases heq
      exact (heqz _ _ rfl rfl).elim
    · next heq =>
      cases heq
      rfl

theorem folded_foldl_foldPush {out : List (Inst σ) × Nat} (h : Folded out.1)
    (code : List (Inst σ)) : Folded (code.foldl foldPush out).1 := by
  induction code generalizing out with
  | nil => exact h
  | cons inst code ih => exact ih (folded_foldPush h inst)

theorem Folded.foldl_reverse {out : List (Inst σ)} (h : Folded out) :
    out.reverse.foldl foldPush ([], 0) = (out, 0) := by
  induction h with
  | nil => rfl
  | cons _ hinst ih => rw [List.reverse_cons, List.foldl_append, ih, List.foldl_cons, hinst]; rfl

/-- A body that was folded has nothing left to fold. -/
theorem foldBody_foldBody (body : List (Inst σ)) :
    foldBody (foldBody body).1 = ((foldBody body).1, 0) := by
  have hfolded : Folded (body.foldl foldPush ([], 0)).1 := folded_foldl_foldPush .nil body
  simp only [foldBody, hfolded.foldl_reverse]

theorem Func.fold_fold (f : Func) : f.fold.fold = f.fold := by
  simp only [fold, foldBody_foldBody]

theorem Module.fold_fold (m : Module) : m.fold.fold = m.fold := by
  simp only [fold, List.map_map, Function.comp_def, Func.fold_fold]

end ComputeScript
