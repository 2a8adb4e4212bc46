import ComputeScript.Proofs.Compile.Stages
import ComputeScript.Proofs.Fold.Soundness
import ComputeScript.Proofs.Symbols

/-!
# Folding any module

A module that is folded need not verify.  Where names repeat, a name does not tell which function
is meant, so a function is given here by its position, and `place` says which position, if any, a
called name stands for.  `Module.EndsAt` is a call in this sense; a call by name
(`Module.Ends`) goes to the first function of the name.  Whatever `place` is, every
function of a folded module comes to the endings that it came to before, and what folding leaves of
a body still refers to the same names and branches through the same blocks.
-/

namespace ComputeScript

open Relation

/-- Whether an instruction opens, closes or leaves a block or a function. -/
def Inst.isControl {σ : Type} : Inst σ → Bool
  | block => true
  | loop => true
  | close => true
  | br _ => true
  | brIf _ => true
  | ret => true
  | _ => false

/-- The blocks of a body and the branches among them, in order. -/
def Func.control (f : Func) : List (Inst String) :=
  f.body.filter Inst.isControl

theorem Folds.control {σ : Type} {code code' : List (Inst σ)} (h : Folds code code') :
    code'.filter Inst.isControl = code.filter Inst.isControl := by
  induction h with
  | binary code _ | eqz v code => rfl
  | cons inst _ ih => rw [List.filter_cons, List.filter_cons, ih]

theorem Func.control_fold (f : Func) : f.fold.control = f.control :=
  foldBody_invariant Folds.control f.body

namespace Module

variable {m m' : Module}

/-- The function that a name stands for, where `place` says at which position it is. -/
def procedureAt? (m : Module) (place : String → Option Nat) (name : String) :
    Option (Procedure String) :=
  (place name).bind fun i => m.funcs[i]?.map Func.procedure

/-- The call of the function at a position comes to an ending and leaves a store. -/
def EndsAt (m : Module) (place : String → Option Nat) (i : Nat) (arguments : List Int32)
    (s : Store String) (e : Ending) (t : Store String) : Prop :=
  ∃ f, m.funcs[i]? = some f ∧ e.isFinal ∧ ∃ fuel calls,
    ComputeScript.call (m.procedureAt? place) fuel ⟨calls, 0⟩ f.procedure arguments.reverse s =
      (e, t)

/-- The call of the function at a position never comes to an end. -/
def DivergesAt (m : Module) (place : String → Option Nat) (i : Nat) (arguments : List Int32)
    (s : Store String) : Prop :=
  ∀ e t, ¬ m.EndsAt place i arguments s e t

theorem words_of_procedureAt? (m : Module) (place : String → Option Nat) (name : String)
    (p : Procedure String) (h : m.procedureAt? place name = some p) : p.words = some 0 := by
  obtain ⟨i, -, hp⟩ := Option.bind_eq_some_iff.1 h
  obtain ⟨f, -, rfl⟩ := Option.map_eq_some_iff.1 hp
  rfl

theorem endsAt_iff {place : String → Option Nat} {i : Nat} {arguments : List Int32}
    {s t : Store String} {e : Ending} :
    m.EndsAt place i arguments s e t ↔
      ∃ f, m.funcs[i]? = some f ∧
        Runs (m.procedureAt? place) f.procedure.results.toNat
          (f.procedure.enter arguments.reverse) s e t := by
  refine exists_congr fun f => and_congr_right fun _ => ?_
  exact isFinal_and_call_iff_runs (m.words_of_procedureAt? place) rfl

/-! ### One folding -/

theorem Folds.getElem?_rel (h : m.Folds m') (i : Nat) :
    Option.Rel Func.Folds m.funcs[i]? m'.funcs[i]? := by
  have hfuncs := h.funcs
  revert hfuncs
  generalize m.funcs = fs
  generalize m'.funcs = fs'
  intro hfuncs
  induction hfuncs generalizing i with
  | nil => exact .none
  | cons hf _ ih =>
    cases i with
    | zero => exact .some hf
    | succ i => exact ih i

theorem Folds.procedureAt?_rel (h : m.Folds m') (place : String → Option Nat) (name : String) :
    Option.Rel (Procedure.Related (ReflGen ComputeScript.Folds)) (m.procedureAt? place name)
      (m'.procedureAt? place name) := by
  unfold procedureAt?
  rcases place name with _ | i
  · exact .none
  · have hrel := h.getElem?_rel i
    simp only [Option.bind_some]
    revert hrel
    generalize m.funcs[i]? = o
    generalize m'.funcs[i]? = o'
    rintro (hf | _)
    · exact .some hf.procedure
    · exact .none

theorem Folds.endsAt_iff (h : m.Folds m') {place : String → Option Nat} {i : Nat}
    {arguments : List Int32} {s t : Store String} {e : Ending} :
    m.EndsAt place i arguments s e t ↔ m'.EndsAt place i arguments s e t := by
  rw [Module.endsAt_iff, Module.endsAt_iff]
  rcases hf : m.funcs[i]? with _ | f <;> rcases hf' : m'.funcs[i]? with _ | f' <;>
    have hrel := h.getElem?_rel i <;> rw [hf, hf'] at hrel
  · simp only [reduceCtorEq, false_and, exists_false]
  · cases hrel
  · cases hrel
  · have hp := (Option.rel_some_some.1 hrel).procedure
    simp only [Option.some.injEq, exists_eq_left', hp.results]
    exact runs_iff_of_folds (h.procedureAt?_rel place) hp arguments.reverse

/-! ### Folding -/

/-- Every function comes to the endings in a folded module that it comes to in the module. -/
theorem fold_endsAt_iff (m : Module) {place : String → Option Nat} {i : Nat}
    {arguments : List Int32} {s t : Store String} {e : Ending} :
    m.fold.EndsAt place i arguments s e t ↔ m.EndsAt place i arguments s e t := by
  have h := m.reflTransGen_fold
  revert h
  generalize m.fold = m'
  intro h
  induction h with
  | refl => rfl
  | tail _ h ih => exact h.endsAt_iff.symm.trans ih

/-- Folding changes bodies only, and neither their names nor their blocks; every function does what
it did, at whatever positions the names are looked for. -/
theorem fold_sound (m : Module) :
    (∀ ω : Type, (Pass.fold (m := StateM ω)).run.run.run m =
      pure (.ok (if 0 < m.foldCount then .changed else .unchanged), m.fold)) ∧
    m.fold = { m with funcs := m.fold.funcs } ∧
    List.Forall₂ (fun f f' => f' = { f with body := f'.body } ∧
      f'.references = f.references ∧ f'.control = f.control) m.funcs m.fold.funcs ∧
    (∀ place i arguments s, (∀ e t, m.fold.EndsAt place i arguments s e t ↔
        m.EndsAt place i arguments s e t) ∧
      (m.fold.DivergesAt place i arguments s ↔ m.DivergesAt place i arguments s)) ∧
    ∀ name arguments s, (∀ e t, m.fold.Ends name arguments s e t ↔ m.Ends name arguments s e t) ∧
      (m.fold.Diverges name arguments s ↔ m.Diverges name arguments s) := by
  refine ⟨fun ω => Pass.run_fold m, rfl, ?_, ?_, ?_⟩
  · refine List.forall₂_map_right_iff.2 (List.forall₂_same.2 fun f _ => ?_)
    exact ⟨rfl, f.references_fold, f.control_fold⟩
  · intro place i arguments s
    exact ⟨fun e t => m.fold_endsAt_iff,
      forall₂_congr fun e t => not_congr m.fold_endsAt_iff⟩
  · intro name arguments s
    exact ⟨fun e t => m.fold_ends_iff, forall₂_congr fun e t => not_congr m.fold_ends_iff⟩

end Module

end ComputeScript
