import ComputeScript.Proofs.Exec.Runs
import Mathlib.Data.List.Forall2

/-!
# Simulations

Two frames are related if their code is, in all blocks, and their operands and locals are equal.
`step_related` is the one case analysis of `step` on which simulations rest: where both frames stand
at the same instruction, and the stores are related too, their steps lead to related frames and
related stores.  What it asks of a relation between codes is that the code behind a block stays
related (`BehindRelated`), and what it asks of a relation between stores is that equal accesses to
the names in `live` have equal results (`StoreRelation`).

`Runs.simulate` goes from steps to runs: if a frame can only make steps that another one follows
(`IsSimulation`), then the other comes to every ending that it comes to.
-/

namespace ComputeScript

variable {σ : Type}

/-- The code behind the end of a block is related where the code is. -/
def BehindRelated (C : List (Inst σ) → List (Inst σ) → Prop) : Prop :=
  ∀ n c c', C c c' → Option.Rel C (behind n c) (behind n c')

/-- Blocks with related code and equal operands below them. -/
structure Label.Related (C : List (Inst σ) → List (Inst σ) → Prop) (l l' : Label σ) : Prop where
  again : Option.Rel C l.again l'.again
  below : l.below = l'.below

/-- Frames with related code, equal operands and equal locals. -/
structure Frame.Related (C : List (Inst σ) → List (Inst σ) → Prop) (f f' : Frame σ) : Prop where
  code : C f.code f'.code
  labels : List.Forall₂ (Label.Related C) f.labels f'.labels
  stack : f.stack = f'.stack
  locals : f.locals = f'.locals

/-- Steps that lead to related frames; functions are only called by names in `live`. -/
inductive Step.Related (C : List (Inst σ) → List (Inst σ) → Prop) (live : σ → Prop) :
    Step σ → Step σ → Prop where
  | next {f f'} (h : f.Related C f') : Related C live (.next f) (.next f')
  | call {f f'} (target : σ) (ht : live target) (h : f.Related C f') :
      Related C live (.call target f) (.call target f')
  | finish (values : List Int32) : Related C live (.finish values) (.finish values)
  | trap : Related C live .trap .trap
  | stuck : Related C live .stuck .stuck

section

variable [BEq σ]

/-- A relation between stores that accesses to the memory and to the globals in `live` respect. -/
structure StoreRelation (R : Store σ → Store σ → Prop) (live : σ → Prop) : Prop where
  memory : ∀ {s s'}, R s s' → s.memory = s'.memory
  global : ∀ {s s' target}, R s s' → live target → s.global? target = s'.global? target
  write : ∀ {s s'} a w, R s s' → R (s.write a w) (s'.write a w)
  setGlobal : ∀ {s s' target} v, R s s' → live target →
    R (s.setGlobal target v) (s'.setGlobal target v)

theorem storeRelation_eq (live : σ → Prop) : StoreRelation (σ := σ) Eq live where
  memory := by rintro s _ rfl; rfl
  global := by rintro s _ target rfl -; rfl
  write := by rintro s _ a w rfl; rfl
  setGlobal := by rintro s _ target v rfl -; rfl

end

variable {C : List (Inst σ) → List (Inst σ) → Prop} {live : σ → Prop} {results : Nat}

theorem Frame.finish_related {f f' : Frame σ} (h : f.stack = f'.stack) :
    Step.Related C live (f.finish results) (f'.finish results) := by
  unfold Frame.finish
  rw [h]
  split_ifs
  · exact .finish _
  · exact .stuck

theorem Frame.branch_related (hC : BehindRelated C) {f f' : Frame σ} (h : f.Related C f')
    (depth : Nat) :
    Step.Related C live (f.branch results depth) (f'.branch results depth) := by
  have hlabels := List.forall₂_drop depth h.labels
  have hlength := h.labels.length_eq
  unfold Frame.branch
  revert hlabels
  generalize f.labels.drop depth = ls
  generalize f'.labels.drop depth = ls'
  rintro (_ | ⟨hl, hls⟩)
  · simp only [hlength]
    split_ifs
    · exact finish_related h.stack
    · exact .stuck
  · rename_i l l' ls ls'
    obtain ⟨again, below⟩ := l
    obtain ⟨again', below'⟩ := l'
    obtain ⟨hagain, hbelow⟩ := hl
    cases hagain with
    | some hc => exact .next ⟨hc, .cons ⟨.some hc, hbelow⟩ hls, rfl, h.locals⟩
    | none =>
      have hbehind := hC depth f.code f'.code h.code
      revert hbehind
      generalize behind depth f.code = o
      generalize behind depth f'.code = o'
      rintro (hc | _)
      · exact .next ⟨hc, hls, hbelow, h.locals⟩
      · exact .stuck

/-- Procedures of one shape with related code. -/
structure Procedure.Related (C : List (Inst σ) → List (Inst σ) → Prop) (p p' : Procedure σ) :
    Prop where
  params : p.params = p'.params
  results : p.results = p'.results
  locals : p.locals = p'.locals
  body : C p.body p'.body

theorem Procedure.Related.enter {p p' : Procedure σ} (hp : p.Related C p')
    (arguments : List Int32) : (p.enter arguments).Related C (p'.enter arguments) := by
  refine ⟨hp.body, .nil, rfl, ?_⟩
  simp only [Procedure.enter, hp.locals]

theorem Frame.Related.inner {f f' : Frame σ} (hf : f.Related C f') {p p' : Procedure σ}
    (hp : p.Related C p') : (f.inner p).Related C (f'.inner p') := by
  simp only [Frame.inner, hp.params, hf.stack]
  exact hp.enter _

theorem Frame.Related.resume {f f' : Frame σ} (hf : f.Related C f') {p p' : Procedure σ}
    (hp : p.Related C p') (values : List Int32) :
    (f.resume p values).Related C (f'.resume p' values) := by
  refine ⟨hf.code, hf.labels, ?_, hf.locals⟩
  simp only [Frame.resume, hp.params, hf.stack]

theorem Frame.Related.callee? {f f' : Frame σ} (hf : f.Related C f')
    {procs procs' : σ → Option (Procedure σ)} {target : σ}
    (hp : Option.Rel (Procedure.Related C) (procs target) (procs' target)) :
    Option.Rel (Procedure.Related C) (f.callee? procs target) (f'.callee? procs' target) := by
  unfold Frame.callee?
  revert hp
  generalize procs target = o
  generalize procs' target = o'
  rintro (hp | _)
  · simp only [Option.filter_some, hp.params, hf.stack]
    split_ifs
    · exact .some hp
    · exact .none
  · exact .none

variable [BEq σ] {R : Store σ → Store σ → Prop}

/-- Frames at the same instruction make related steps. -/
theorem step_related (hC : BehindRelated C) (hR : StoreRelation R live) {inst : Inst σ}
    {code code' : List (Inst σ)} (hlive : ∀ target, inst.reference? = some target → live target)
    (hcode : C code code') {labels labels' : List (Label σ)}
    (hlabels : List.Forall₂ (Label.Related C) labels labels') (stack : List Int32)
    (locals : Array Int32) {s s' : Store σ} (hs : R s s') :
    Step.Related C live (step results ⟨inst :: code, labels, stack, locals⟩ s).1
        (step results ⟨inst :: code', labels', stack, locals⟩ s').1 ∧
      R (step results ⟨inst :: code, labels, stack, locals⟩ s).2
        (step results ⟨inst :: code', labels', stack, locals⟩ s').2 := by
  have hrel (stack : List Int32) (locals : Array Int32) :
      Frame.Related C ⟨code, labels, stack, locals⟩ ⟨code', labels', stack, locals⟩ :=
    ⟨hcode, hlabels, rfl, rfl⟩
  cases inst with
  | const v => exact ⟨.next (hrel _ _), hs⟩
  | localGet i =>
    simp only [step]
    cases locals[i.toNat]? with
    | none => exact ⟨.stuck, hs⟩
    | some v => exact ⟨.next (hrel _ _), hs⟩
  | localSet i =>
    cases stack with
    | nil => exact ⟨.stuck, hs⟩
    | cons v stack =>
      simp only [step]
      split_ifs
      · exact ⟨.next (hrel _ _), hs⟩
      · exact ⟨.stuck, hs⟩
  | localTee i =>
    cases stack with
    | nil => exact ⟨.stuck, hs⟩
    | cons v stack =>
      simp only [step]
      split_ifs
      · exact ⟨.next (hrel _ _), hs⟩
      · exact ⟨.stuck, hs⟩
  | globalGet target =>
    simp only [step]
    rw [hR.global hs (hlive target rfl)]
    cases s'.global? target with
    | none => exact ⟨.stuck, hs⟩
    | some v => exact ⟨.next (hrel _ _), hs⟩
  | globalSet target =>
    cases stack with
    | nil => exact ⟨.stuck, hs⟩
    | cons v stack =>
      simp only [step]
      rw [hR.global hs (hlive target rfl)]
      split_ifs
      · exact ⟨.next (hrel _ _), hR.setGlobal v hs (hlive target rfl)⟩
      · exact ⟨.stuck, hs⟩
  | load offset =>
    cases stack with
    | nil => exact ⟨.stuck, hs⟩
    | cons base stack =>
      simp only [step]
      rw [hR.memory hs]
      split_ifs
      · exact ⟨.next (hrel _ _), hs⟩
      · exact ⟨.trap, hs⟩
  | store offset =>
    rcases stack with _ | ⟨v, _ | ⟨base, stack⟩⟩
    · exact ⟨.stuck, hs⟩
    · exact ⟨.stuck, hs⟩
    · simp only [step]
      rw [hR.memory hs]
      split_ifs
      · exact ⟨.next (hrel _ _), hR.write _ v hs⟩
      · exact ⟨.trap, hs⟩
  | binary op =>
    rcases stack with _ | ⟨r, _ | ⟨l, stack⟩⟩
    · exact ⟨.stuck, hs⟩
    · exact ⟨.stuck, hs⟩
    · simp only [step]
      cases op.eval l r with
      | none => exact ⟨.trap, hs⟩
      | some v => exact ⟨.next (hrel _ _), hs⟩
  | eqz =>
    cases stack with
    | nil => exact ⟨.stuck, hs⟩
    | cons v stack => exact ⟨.next (hrel _ _), hs⟩
  | call target => exact ⟨.call target (hlive target rfl) (hrel _ _), hs⟩
  | block => exact ⟨.next ⟨hcode, .cons ⟨.none, rfl⟩ hlabels, rfl, rfl⟩, hs⟩
  | loop => exact ⟨.next ⟨hcode, .cons ⟨.some hcode, rfl⟩ hlabels, rfl, rfl⟩, hs⟩
  | close =>
    cases stack with
    | nil =>
      cases hlabels with
      | nil => exact ⟨.stuck, hs⟩
      | cons hl hls => exact ⟨.next ⟨hcode, hls, hl.below, rfl⟩, hs⟩
    | cons v stack => exact ⟨.stuck, hs⟩
  | br depth => exact ⟨Frame.branch_related hC (hrel _ _) _, hs⟩
  | brIf depth =>
    cases stack with
    | nil => exact ⟨.stuck, hs⟩
    | cons v stack =>
      simp only [step]
      split_ifs
      · exact ⟨.next (hrel _ _), hs⟩
      · exact ⟨Frame.branch_related hC (hrel _ _) _, hs⟩
  | drop =>
    cases stack with
    | nil => exact ⟨.stuck, hs⟩
    | cons v stack => exact ⟨.next (hrel _ _), hs⟩
  | ret => exact ⟨Frame.finish_related rfl, hs⟩

/-- Frames at the end of their code make related steps. -/
theorem step_nil_related (live : σ → Prop) {labels labels' : List (Label σ)}
    (hlabels : List.Forall₂ (Label.Related C) labels labels') (stack : List Int32)
    (locals : Array Int32) {s s' : Store σ} (hs : R s s') :
    Step.Related C live (step results ⟨[], labels, stack, locals⟩ s).1
        (step results ⟨[], labels', stack, locals⟩ s').1 ∧
      R (step results ⟨[], labels, stack, locals⟩ s).2
        (step results ⟨[], labels', stack, locals⟩ s').2 := by
  have hempty : labels.isEmpty = labels'.isEmpty := by cases hlabels <;> rfl
  simp only [step, hempty]
  split_ifs
  · exact ⟨.finish _, hs⟩
  · exact ⟨.stuck, hs⟩

/-! ### From steps to runs -/

/-- Steps that lead to simulated frames; of a call, inside the function and behind it. -/
inductive Step.Simulated (procs procs' : σ → Option (Procedure σ))
    (Sim : Frame σ → Frame σ → Prop) : Step σ → Step σ → Prop where
  | next {f f'} (h : Sim f f') : Simulated procs procs' Sim (.next f) (.next f')
  | call {f f'} (target : σ)
      (h : Option.Rel (fun p p' => p.results = p'.results ∧ Sim (f.inner p) (f'.inner p') ∧
        ∀ values, Sim (f.resume p values) (f'.resume p' values))
        (f.callee? procs target) (f'.callee? procs' target)) :
      Simulated procs procs' Sim (.call target f) (.call target f')
  | finish (values : List Int32) : Simulated procs procs' Sim (.finish values) (.finish values)
  | trap : Simulated procs procs' Sim .trap .trap
  | stuck : Simulated procs procs' Sim .stuck .stuck

variable {procs procs' : σ → Option (Procedure σ)} {Sim : Frame σ → Frame σ → Prop}

omit [BEq σ] in
theorem Step.Related.simulated {st st' : Step σ} (h : st.Related C live st')
    (hp : ∀ n, live n → Option.Rel (Procedure.Related C) (procs n) (procs' n))
    (hsim : ∀ f f', f.Related C f' → Sim f f') : st.Simulated procs procs' Sim st' := by
  cases h with
  | next hf => exact .next (hsim _ _ hf)
  | call target ht hf =>
    have hcallee := hf.callee? (hp target ht)
    refine .call target ?_
    revert hcallee
    generalize Frame.callee? procs target _ = o
    generalize Frame.callee? procs' target _ = o'
    rintro (hrel | _)
    · exact .some ⟨hrel.results, hsim _ _ (hf.inner hrel), fun _ => hsim _ _ (hf.resume hrel _)⟩
    · exact .none
  | finish values => exact .finish values
  | trap => exact .trap
  | stuck => exact .stuck

omit [BEq σ] in
theorem Step.Simulated.flip {st st' : Step σ} (h : st.Simulated procs procs' Sim st') :
    st'.Simulated procs' procs (fun f' f => Sim f f') st := by
  cases h with
  | next hf => exact .next hf
  | @call f f' target hcallee =>
    refine .call target ?_
    revert hcallee
    generalize f.callee? procs target = o
    generalize f'.callee? procs' target = o'
    rintro (⟨hresults, hinner, hresume⟩ | _)
    · exact .some ⟨hresults.symm, hinner, hresume⟩
    · exact .none
  | finish values => exact .finish values
  | trap => exact .trap
  | stuck => exact .stuck

omit [BEq σ] in
theorem Step.Simulated.callee?_eq_none {f f' : Frame σ} {target : σ}
    (h : Step.Simulated procs procs' Sim (.call target f) (.call target f'))
    (hc : f.callee? procs target = none) : f'.callee? procs' target = none := by
  cases h with
  | call _ hcallee =>
    cases hc' : f'.callee? procs' target with
    | none => rfl
    | some p' =>
      rw [hc, hc'] at hcallee
      exact absurd hcallee Option.not_rel_none_some

omit [BEq σ] in
theorem Step.Simulated.callee?_eq_some {f f' : Frame σ} {target : σ} {p : Procedure σ}
    (h : Step.Simulated procs procs' Sim (.call target f) (.call target f'))
    (hc : f.callee? procs target = some p) :
    ∃ p', f'.callee? procs' target = some p' ∧ p.results = p'.results ∧
      Sim (f.inner p) (f'.inner p') ∧ ∀ values, Sim (f.resume p values) (f'.resume p' values) := by
  cases h with
  | call _ hcallee =>
    cases hc' : f'.callee? procs' target with
    | none =>
      rw [hc, hc'] at hcallee
      exact absurd hcallee Option.not_rel_some_none
    | some p' =>
      rw [hc, hc'] at hcallee
      have hrel := Option.rel_some_some.1 hcallee
      exact ⟨p', rfl, hrel⟩

/-- `Sim` is a simulation if, of two frames that it relates, the first makes a step that leads
nowhere new, or the second can be run up to a place where both make the same step. -/
def IsSimulation (procs procs' : σ → Option (Procedure σ)) (Sim : Frame σ → Frame σ → Prop)
    (R : Store σ → Store σ → Prop) : Prop :=
  ∀ results f f' s s', Sim f f' → R s s' →
    (∃ g, step results f s = (.next g, s) ∧ Sim g f') ∨
    ∃ g', (∀ e t, Runs procs' results g' s' e t → Runs procs' results f' s' e t) ∧
      (step results f s).1.Simulated procs procs' Sim (step results g' s').1 ∧
      R (step results f s).2 (step results g' s').2

/-- A step that does not just go on is made by the other frame too, at a place that it can be run
up to. -/
theorem IsSimulation.of_step (hsim : IsSimulation procs procs' Sim R) {f f' : Frame σ}
    {s s' s₁ : Store σ} {st : Step σ} (hstep : step results f s = (st, s₁))
    (hst : ∀ g, st ≠ .next g) (hf : Sim f f') (hs : R s s') :
    ∃ g' st' s₁', (∀ e t, Runs procs' results g' s' e t → Runs procs' results f' s' e t) ∧
      step results g' s' = (st', s₁') ∧ st.Simulated procs procs' Sim st' ∧ R s₁ s₁' := by
  rcases hsim results f f' s s' hf hs with ⟨g, hg, -⟩ | ⟨g', hup, hrel, hstore⟩
  · rw [hstep] at hg
    exact absurd (congrArg Prod.fst hg) (hst g)
  · rw [hstep] at hrel hstore
    exact ⟨g', _, _, hup, rfl, hrel, hstore⟩

theorem IsSimulation.of_call (hsim : IsSimulation procs procs' Sim R) {f f' g : Frame σ}
    {s s' s₁ : Store σ} {target : σ} (hstep : step results f s = (.call target g, s₁))
    (hf : Sim f f') (hs : R s s') :
    ∃ g' f₁ s₁', (∀ e t, Runs procs' results g' s' e t → Runs procs' results f' s' e t) ∧
      step results g' s' = (.call target f₁, s₁') ∧
      Step.Simulated procs procs' Sim (.call target g) (.call target f₁) ∧ R s₁ s₁' := by
  obtain ⟨g', st', s₁', hup, hstep', hrel, hstore⟩ :=
    hsim.of_step hstep (fun _ h => nomatch h) hf hs
  cases hrel with
  | @call _ f₁ _ hcallee => exact ⟨g', f₁, s₁', hup, hstep', .call target hcallee, hstore⟩

/-- What a frame comes to, a frame that simulates it comes to. -/
theorem Runs.simulate (hsim : IsSimulation procs procs' Sim R) {f f' : Frame σ}
    {s s' t : Store σ} {e : Ending} (h : Runs procs results f s e t) (hf : Sim f f')
    (hs : R s s') : ∃ t', R t t' ∧ Runs procs' results f' s' e t' := by
  induction h generalizing f' s' with
  | @next results f s g s₁ e t hstep _ ih =>
    rcases hsim results f f' s s' hf hs with ⟨g₁, hg₁, hf₁⟩ | ⟨g', hup, hrel, hstore⟩
    · rw [hstep] at hg₁
      cases hg₁
      exact ih hf₁ hs
    · rcases hstep' : step results g' s' with ⟨st', s₁'⟩
      rw [hstep, hstep'] at hrel hstore
      cases hrel with
      | next hg =>
        obtain ⟨t', ht, hrun⟩ := ih hg hstore
        exact ⟨t', ht, hup _ _ (.next hstep' hrun)⟩
  | @stop results f s st e t hstep he =>
    have hst (g : Frame σ) : st ≠ .next g := by
      rintro rfl
      cases he
    obtain ⟨g', st', t', hup, hstep', hrel, ht⟩ := hsim.of_step hstep hst hf hs
    refine ⟨t', ht, hup _ _ (.stop hstep' ?_)⟩
    cases hrel <;> exact he
  | refuse hstep hc =>
    obtain ⟨g', f₁, t', hup, hstep', hrel, ht⟩ := hsim.of_call hstep hf hs
    exact ⟨t', ht, hup _ _ (.refuse hstep' (hrel.callee?_eq_none hc))⟩
  | @returns _ _ _ _ _ _ _ values _ _ _ hstep hc _ _ ih₁ ih₂ =>
    obtain ⟨g', f₁, s₁', hup, hstep', hrel, hs₁⟩ := hsim.of_call hstep hf hs
    obtain ⟨p', hc', hresults, hinner, hresume⟩ := hrel.callee?_eq_some hc
    obtain ⟨s₂', hs₂, hin⟩ := ih₁ hinner hs₁
    obtain ⟨t', ht, hout⟩ := ih₂ (hresume values) hs₂
    rw [hresults] at hin
    exact ⟨t', ht, hup _ _ (.returns hstep' hc' hin hout)⟩
  | fails hstep hc _ he ih =>
    obtain ⟨g', f₁, s₁', hup, hstep', hrel, hs₁⟩ := hsim.of_call hstep hf hs
    obtain ⟨p', hc', hresults, hinner, -⟩ := hrel.callee?_eq_some hc
    obtain ⟨t', ht, hin⟩ := ih hinner hs₁
    rw [hresults] at hin
    exact ⟨t', ht, hup _ _ (.fails hstep' hc' hin he)⟩

end ComputeScript
