import ComputeScript.Proofs.Fold.Rewriting

/-!
# The normal form of a body

Foldings (`Folds`) can be made at any place and in any order.  Whatever the order, `foldBody` gives
the same code before and after one of them and counts one folding less after it
(`foldBody_of_folds`).  So all sequences of foldings that cannot go on end in one normal form, after
equally many steps; `foldRestarting` is the sequence that folds the leftmost window and starts over.
`foldBody_normalizes` is the result.
-/

namespace ComputeScript

variable {σ : Type} {code code' body : List (Inst σ)}

/-- Nothing in a piece of code folds. -/
def IsNormal (code : List (Inst σ)) : Prop :=
  ∀ code', ¬ Folds code code'

/-- A number of foldings, one after the other, at any places. -/
inductive FoldsIn : Nat → List (Inst σ) → List (Inst σ) → Prop where
  | refl (code : List (Inst σ)) : FoldsIn 0 code code
  | step {n : Nat} {code code' code'' : List (Inst σ)} (h : Folds code code')
      (hrest : FoldsIn n code' code'') : FoldsIn (n + 1) code code''

theorem Folds.length_lt (h : Folds code code') : code'.length < code.length := by
  induction h with
  | binary code _ | eqz v code =>
    simp only [List.length_cons]
    omega
  | cons inst _ ih => simpa using ih

/-! ### Folding the leftmost window -/

/-- The code with the window at its front folded, if there is one. -/
def foldFront? : List (Inst σ) → Option (List (Inst σ))
  | .const l :: .const r :: .binary op :: code => (op.eval l r).map fun v => .const v :: code
  | .const v :: .eqz :: code => some (.const (BinOp.truth (v == 0)) :: code)
  | _ => none

/-- The code with its leftmost window folded, if there is one. -/
def foldLeftmost? : List (Inst σ) → Option (List (Inst σ))
  | [] => none
  | inst :: code =>
    match foldFront? (inst :: code) with
    | some code' => some code'
    | none => (foldLeftmost? code).map (inst :: ·)

theorem folds_of_foldFront? (h : foldFront? code = some code') : Folds code code' := by
  unfold foldFront? at h
  split at h
  · obtain ⟨v, hv, rfl⟩ := Option.map_eq_some_iff.1 h
    exact .binary _ hv
  · cases h
    exact .eqz _ _
  · cases h

theorem folds_of_foldLeftmost? (h : foldLeftmost? code = some code') : Folds code code' := by
  induction code generalizing code' with
  | nil => cases h
  | cons inst code ih =>
    rw [foldLeftmost?] at h
    rcases hfront : foldFront? (inst :: code) with _ | front <;> rw [hfront] at h
    · obtain ⟨rest, hrest, rfl⟩ := Option.map_eq_some_iff.1 h
      exact .cons inst (ih hrest)
    · cases h
      exact folds_of_foldFront? hfront

theorem isSome_foldLeftmost?_of_folds (h : Folds code code') : (foldLeftmost? code).isSome := by
  induction h with
  | binary code hv => simp [foldLeftmost?, foldFront?, hv]
  | eqz v code => simp [foldLeftmost?, foldFront?]
  | @cons inst code code' _ ih =>
    rw [foldLeftmost?]
    rcases foldFront? (inst :: code) with _ | front
    · simpa using ih
    · rfl

theorem foldLeftmost?_eq_none_iff : foldLeftmost? code = none ↔ IsNormal code := by
  constructor
  · intro h code' hfolds
    have hsome := isSome_foldLeftmost?_of_folds hfolds
    rw [h] at hsome
    cases hsome
  · intro h
    apply Option.eq_none_iff_forall_ne_some.2
    exact fun code' hcode' => h code' (folds_of_foldLeftmost? hcode')

/-- Folds the leftmost window, over and over again, and counts the foldings. -/
def foldRestarting (body : List (Inst σ)) : List (Inst σ) × Nat :=
  match _h : foldLeftmost? body with
  | some code => ((foldRestarting code).1, (foldRestarting code).2 + 1)
  | none => (body, 0)
termination_by body.length
decreasing_by
  all_goals exact (folds_of_foldLeftmost? _h).length_lt

/-! ### What a folding changes of the result -/

/-- What is written does not depend on how many foldings were counted before. -/
theorem foldPush_add (out : List (Inst σ) × Nat) (inst : Inst σ) (k : Nat) :
    foldPush (out.1, out.2 + k) inst = ((foldPush out inst).1, (foldPush out inst).2 + k) := by
  fun_cases foldPush out inst with
  | case1 op r l rest n v hv => simp only [foldPush, hv, Nat.add_right_comm]
  | case2 op r l rest n hv => simp only [foldPush, hv]
  | case3 v rest n => simp only [foldPush, Nat.add_right_comm]
  | case4 inst rest n hbinary heqz => exact foldPush.eq_3 _ _ _ hbinary heqz

theorem foldl_foldPush_add (out : List (Inst σ) × Nat) (code : List (Inst σ)) (k : Nat) :
    code.foldl foldPush (out.1, out.2 + k) =
      ((code.foldl foldPush out).1, (code.foldl foldPush out).2 + k) := by
  induction code generalizing out with
  | nil => rfl
  | cons inst code ih =>
    rw [List.foldl_cons, List.foldl_cons, foldPush_add]
    exact ih (foldPush out inst)

/-- After whatever has been written, code and the code that a folding makes of it are written
alike, and the folding counts. -/
theorem foldl_foldPush_of_folds (h : Folds code code') (out : List (Inst σ) × Nat) :
    code.foldl foldPush out = code'.foldl foldPush (out.1, out.2 + 1) := by
  induction h generalizing out with
  | binary code hv => simp only [List.foldl_cons, foldPush, hv]
  | eqz v code => simp only [List.foldl_cons, foldPush]
  | cons inst _ ih => rw [List.foldl_cons, List.foldl_cons, foldPush_add, ih]

/-- A folding at any place leaves the result of folding the body as it is, with one folding less to
be made. -/
theorem foldBody_of_folds (h : Folds code code') :
    foldBody code = ((foldBody code').1, (foldBody code').2 + 1) := by
  unfold foldBody
  rw [foldl_foldPush_of_folds h, foldl_foldPush_add]

theorem foldBody_of_foldsIn {n : Nat} (h : FoldsIn n code code') :
    foldBody code = ((foldBody code').1, (foldBody code').2 + n) := by
  induction h with
  | refl code => rfl
  | step hfolds _ ih => rw [foldBody_of_folds hfolds, ih, Nat.add_assoc]

/-! ### The normal form -/

theorem isNormal_foldBody (body : List (Inst σ)) : IsNormal (foldBody body).1 := by
  intro code h
  have hcount := congrArg Prod.snd (foldBody_of_folds h)
  rw [foldBody_foldBody] at hcount
  cases hcount

theorem IsNormal.foldBody_eq (h : IsNormal body) : foldBody body = (body, 0) := by
  have hbody : (foldBody body).1 = body := by
    rcases (reflTransGen_foldBody body).cases_head with heq | ⟨code, hcode, -⟩
    · exact heq.symm
    · exact absurd hcode (h code)
  have hagain := foldBody_foldBody body
  rwa [hbody] at hagain

theorem foldRestarting_eq_foldBody (body : List (Inst σ)) :
    foldRestarting body = foldBody body := by
  fun_induction foldRestarting body with
  | case1 body code h ih => rw [ih, foldBody_of_folds (folds_of_foldLeftmost? h)]
  | case2 body h => exact (foldLeftmost?_eq_none_iff.1 h).foldBody_eq.symm

theorem foldsIn_foldBody (body : List (Inst σ)) :
    FoldsIn (foldBody body).2 body (foldBody body).1 := by
  rw [← foldRestarting_eq_foldBody]
  fun_induction foldRestarting body with
  | case1 body code h ih => exact .step (folds_of_foldLeftmost? h) ih
  | case2 body h => exact .refl body

/-- Folding the leftmost window over and over again comes to an end, and to the same one as one pass
over the body: code in which nothing folds.  Every other sequence of foldings can be continued to
this code, and to no other, and the number of foldings is always the one that was counted. -/
theorem foldBody_normalizes (body : List (Inst σ)) :
    foldRestarting body = foldBody body ∧ IsNormal (foldBody body).1 ∧
      FoldsIn (foldBody body).2 body (foldBody body).1 ∧
      ∀ n code, FoldsIn n body code →
        (∃ k, n + k = (foldBody body).2 ∧ FoldsIn k code (foldBody body).1) ∧
          (IsNormal code → code = (foldBody body).1 ∧ n = (foldBody body).2) := by
  refine ⟨foldRestarting_eq_foldBody body, isNormal_foldBody body, foldsIn_foldBody body, ?_⟩
  intro n code h
  have hresult := foldBody_of_foldsIn h
  constructor
  · refine ⟨(foldBody code).2, ?_, ?_⟩
    · rw [hresult, Nat.add_comm]
    · rw [hresult]
      exact foldsIn_foldBody code
  · intro hnormal
    rw [hresult, hnormal.foldBody_eq, Nat.zero_add]
    exact ⟨rfl, rfl⟩

/-- Windows within windows fold from the inside; an operator that traps stays. -/
example : foldBody (σ := String)
    [.const 7, .const 1, .const 2, .const 3, .binary .mul, .binary .add, .eqz, .binary .divS] =
      ([.const 7, .const 0, .binary .divS], 3) := by
  decide

end ComputeScript
