import ComputeScript.Proofs.Exec.Calls
import ComputeScript.Proofs.Fold.Rewriting

/-!
# Folding keeps the meaning of a module

Code and folded code run alike, whatever is run: the two constants and the operator of a window are
three steps that do what one constant does.  While the unfolded code is inside a window it is behind
the folded code (`Trails`); everywhere else their frames are related and they make related steps.
`Module.fold_ends_iff` is the result for whole modules.
-/

namespace ComputeScript

open Relation

variable {σ : Type}

theorem option_rel_behind_of_folds {code code' : List (Inst σ)} (h : Folds code code') (n : Nat) :
    Option.Rel (ReflGen Folds) (behind n code) (behind n code') := by
  have hrefl (o : Option (List (Inst σ))) : Option.Rel (ReflGen Folds) o o := by
    cases o with
    | none => exact .none
    | some c => exact .some .refl
  induction h generalizing n with
  | binary code _ =>
    simp only [behind]
    exact hrefl _
  | eqz v code =>
    simp only [behind]
    exact hrefl _
  | cons inst h ih =>
    cases inst with
    | close =>
      cases n with
      | zero => exact .some (.single h)
      | succ n => exact ih n
    | _ =>
      simp only [behind]
      exact ih _

theorem behindRelated_folds : BehindRelated (σ := σ) (ReflGen Folds) := by
  intro n code code' h
  cases h with
  | refl =>
    rcases behind n code with _ | rest
    · exact .none
    · exact .some .refl
  | single h => exact option_rel_behind_of_folds h n

/-! ### Frames -/

/-- Frames with related code, or a frame inside a window and one at the constant it makes. -/
inductive Trails : Frame σ → Frame σ → Prop where
  | related {f f'} (h : f.Related (ReflGen Folds) f') : Trails f f'
  | second {op : BinOp} {l r v : Int32} {code labels labels'} (stack locals)
      (hv : op.eval l r = some v)
      (hl : List.Forall₂ (Label.Related (ReflGen Folds)) labels labels') :
      Trails ⟨.const r :: .binary op :: code, labels, l :: stack, locals⟩
        ⟨.const v :: code, labels', stack, locals⟩
  | third {op : BinOp} {l r v : Int32} {code labels labels'} (stack locals)
      (hv : op.eval l r = some v)
      (hl : List.Forall₂ (Label.Related (ReflGen Folds)) labels labels') :
      Trails ⟨.binary op :: code, labels, r :: l :: stack, locals⟩
        ⟨.const v :: code, labels', stack, locals⟩
  | test {v : Int32} {code labels labels'} (stack locals)
      (hl : List.Forall₂ (Label.Related (ReflGen Folds)) labels labels') :
      Trails ⟨.eqz :: code, labels, v :: stack, locals⟩
        ⟨.const (BinOp.truth (v == 0)) :: code, labels', stack, locals⟩

variable [BEq σ] {results : Nat} {f f' : Frame σ} {s t : Store σ} {e : Ending}

/-- The steps that two frames make on one store lead to related frames and to one store. -/
def StepsTogether (results : Nat) (f f' : Frame σ) (s : Store σ) : Prop :=
  Step.Related (ReflGen Folds) (fun _ => True) (step results f s).1 (step results f' s).1 ∧
    (step results f s).2 = (step results f' s).2

section

variable {code : List (Inst σ)} {labels labels' : List (Label σ)}
  (hl : List.Forall₂ (Label.Related (ReflGen Folds)) labels labels')

include hl

theorem stepsTogether_cons {code' : List (Inst σ)} (h : ReflGen Folds code code')
    (inst : Inst σ) (stack : List Int32) (locals : Array Int32) :
    StepsTogether results ⟨inst :: code, labels, stack, locals⟩
      ⟨inst :: code', labels', stack, locals⟩ s :=
  step_related behindRelated_folds (storeRelation_eq _) (fun _ _ => trivial) h hl stack locals rfl

theorem stepsTogether_binary {op : BinOp} {l r v : Int32} (hv : op.eval l r = some v)
    (stack : List Int32) (locals : Array Int32) :
    StepsTogether results ⟨.binary op :: code, labels, r :: l :: stack, locals⟩
      ⟨.const v :: code, labels', stack, locals⟩ s := by
  simp only [StepsTogether, step, hv, and_true]
  exact .next ⟨.refl, hl, rfl, rfl⟩

theorem stepsTogether_eqz (v : Int32) (stack : List Int32) (locals : Array Int32) :
    StepsTogether results ⟨.eqz :: code, labels, v :: stack, locals⟩
      ⟨.const (BinOp.truth (v == 0)) :: code, labels', stack, locals⟩ s :=
  ⟨.next ⟨.refl, hl, rfl, rfl⟩, rfl⟩

/-- Frames with related code make their steps together, unless one is in front of a window. -/
theorem stepsTogether_or_window {code' : List (Inst σ)} (h : ReflGen Folds code code')
    (stack : List Int32) (locals : Array Int32) :
    StepsTogether results ⟨code, labels, stack, locals⟩ ⟨code', labels', stack, locals⟩ s ∨
      (∃ op l r v rest, op.eval l r = some v ∧ code = .const l :: .const r :: .binary op :: rest ∧
        code' = .const v :: rest) ∨
      ∃ v rest, code = .const v :: .eqz :: rest ∧
        code' = .const (BinOp.truth (v == 0)) :: rest := by
  cases h with
  | refl =>
    cases code with
    | nil => exact .inl (step_nil_related _ hl stack locals rfl)
    | cons inst code => exact .inl (stepsTogether_cons hl .refl inst stack locals)
  | single h =>
    cases h with
    | cons inst h => exact .inl (stepsTogether_cons hl (.single h) inst stack locals)
    | binary rest hv => exact .inr (.inl ⟨_, _, _, _, rest, hv, rfl, rfl⟩)
    | eqz v rest => exact .inr (.inr ⟨v, rest, rfl, rfl⟩)

end

/-! ### Runs -/

section

variable {procs procs' : σ → Option (Procedure σ)}
  (hp : ∀ n, Option.Rel (Procedure.Related (ReflGen Folds)) (procs n) (procs' n))

include hp

/-- Folded code follows unfolded code; inside a window it waits. -/
theorem isSimulation_fold : IsSimulation procs procs' Trails Eq := by
  have htogether {results : Nat} {f f' : Frame σ} {s : Store σ}
      (h : StepsTogether results f f' s) :
      (step results f s).1.Simulated procs procs' Trails (step results f' s).1 ∧
        (step results f s).2 = (step results f' s).2 :=
    ⟨h.1.simulated (fun n _ => hp n) fun _ _ => .related, h.2⟩
  rintro results f f' s _ hf rfl
  cases hf with
  | related h =>
    obtain ⟨code, labels, stack, locals⟩ := f
    obtain ⟨code', labels', _, _⟩ := f'
    obtain ⟨hcode, hl, hstack, hlocals⟩ := h
    subst hstack hlocals
    rcases stepsTogether_or_window hl hcode stack locals with
      h | ⟨op, l, r, v, rest, hv, rfl, rfl⟩ | ⟨v, rest, rfl, rfl⟩
    · exact .inr ⟨_, fun _ _ hrun => hrun, htogether h⟩
    · exact .inl ⟨_, rfl, .second stack locals hv hl⟩
    · exact .inl ⟨_, rfl, .test stack locals hl⟩
  | second stack locals hv hl => exact .inl ⟨_, rfl, .third stack locals hv hl⟩
  | third stack locals hv hl =>
    exact .inr ⟨_, fun _ _ hrun => hrun, htogether (stepsTogether_binary hl hv stack locals)⟩
  | test stack locals hl =>
    exact .inr ⟨_, fun _ _ hrun => hrun, htogether (stepsTogether_eqz hl _ stack locals)⟩

/-- Unfolded code follows folded code; it goes through a window at once. -/
theorem isSimulation_unfold :
    IsSimulation procs' procs (fun f' f => f.Related (ReflGen Folds) f') Eq := by
  have htogether {results : Nat} {f f' : Frame σ} {s : Store σ}
      (h : StepsTogether results f f' s) :
      (step results f' s).1.Simulated procs' procs (fun f' f => f.Related (ReflGen Folds) f')
          (step results f s).1 ∧
        (step results f' s).2 = (step results f s).2 :=
    ⟨(h.1.simulated (fun n _ => hp n) fun _ _ hf => hf).flip, h.2.symm⟩
  rintro results ⟨code', labels', _, _⟩ ⟨code, labels, stack, locals⟩ s _
    ⟨hcode, hl, hstack, hlocals⟩ rfl
  subst hstack hlocals
  rcases stepsTogether_or_window hl hcode stack locals with
    h | ⟨op, l, r, v, rest, hv, rfl, rfl⟩ | ⟨v, rest, rfl, rfl⟩
  · exact .inr ⟨_, fun _ _ hrun => hrun, htogether h⟩
  · exact .inr ⟨_, fun _ _ hrun => .next rfl (.next rfl hrun),
      htogether (stepsTogether_binary hl hv stack locals)⟩
  · exact .inr ⟨_, fun _ _ hrun => .next rfl hrun, htogether (stepsTogether_eqz hl v stack locals)⟩

theorem runs_iff_of_folds {p p' : Procedure σ} (h : p.Related (ReflGen Folds) p')
    (arguments : List Int32) :
    Runs procs results (p.enter arguments) s e t ↔
      Runs procs' results (p'.enter arguments) s e t := by
  constructor
  · intro hrun
    obtain ⟨_, rfl, hrun'⟩ :=
      hrun.simulate (isSimulation_fold hp) (.related (h.enter arguments)) rfl
    exact hrun'
  · intro hrun
    obtain ⟨_, rfl, hrun'⟩ := hrun.simulate (isSimulation_unfold hp) (h.enter arguments) rfl
    exact hrun'

end

/-! ### Modules -/

theorem Func.Folds.procedure {f f' : Func} (h : f.Folds f') :
    f.procedure.Related (ReflGen ComputeScript.Folds) f'.procedure := by
  obtain ⟨hrest, hbody⟩ := h
  rw [hrest]
  exact ⟨rfl, rfl, rfl, hbody⟩

namespace Module

variable {m m' : Module}

theorem Folds.procedure?_rel (h : m.Folds m') (name : String) :
    Option.Rel (Procedure.Related (ReflGen ComputeScript.Folds)) (m.procedure? name)
      (m'.procedure? name) := by
  have hfuncs := h.funcs
  unfold procedure? func?
  revert hfuncs
  generalize m.funcs = fs
  generalize m'.funcs = fs'
  intro hfuncs
  induction hfuncs with
  | nil => exact .none
  | @cons f f' fs fs' hf _ ih =>
    have hname : f'.name = f.name := by rw [hf.rest]
    simp only [List.find?_cons, hname]
    split
    · exact .some hf.procedure
    · exact ih

theorem Folds.ends_iff (h : m.Folds m') {name : String} {arguments : List Int32}
    {s t : Store String} {e : Ending} :
    m.Ends name arguments s e t ↔ m'.Ends name arguments s e t := by
  have hrel := h.procedure?_rel name
  rcases hp : m.procedure? name with _ | p <;> rcases hp' : m'.procedure? name with _ | p' <;>
    rw [hp, hp'] at hrel
  · simp only [Ends, call, hp, hp']
  · cases hrel
  · cases hrel
  · obtain hrel := Option.rel_some_some.1 hrel
    rw [ends_iff_runs hp, ends_iff_runs hp', hrel.results]
    exact runs_iff_of_folds h.procedure?_rel hrel arguments.reverse

/-- Every call ends in a folded module as it does in the module. -/
theorem fold_ends_iff (m : Module) {name : String} {arguments : List Int32}
    {s t : Store String} {e : Ending} :
    m.fold.Ends name arguments s e t ↔ m.Ends name arguments s e t := by
  have h := m.reflTransGen_fold
  revert h
  generalize m.fold = m'
  intro h
  induction h with
  | refl => rfl
  | tail _ h ih => exact h.ends_iff.symm.trans ih

end Module

end ComputeScript
