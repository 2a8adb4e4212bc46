import ComputeScript.Exec
import Mathlib.Tactic.SplitIfs

/-!
# Runs without a budget

`run` needs a budget of steps and some room for calls.  `Runs` says how a run ends when there is
enough of both: it relates a frame and a store to an ending that is final and to the store behind
it.  This is what `run` finds with some budget (`Runs.of_run`), and with every budget that is large
enough (`Runs.exists_run`).  A frame that no ending is related to diverges.  Where a step is known,
`Runs` follows it in both directions (`runs_iff_of_next` and the lemmas below it), so that code is
executed by rewriting.
-/

namespace ComputeScript

variable {σ : Type}

/-- Whether a run has come to its own end, rather than to the end of its budget or its room. -/
def Ending.isFinal : Ending → Bool
  | done _ => true
  | trap => true
  | stuck => true
  | outOfFuel => false
  | noRoom => false

/-- The ending that a step leads to, if the function does not go on. -/
def Step.ending? : Step σ → Option Ending
  | finish values => some (.done values)
  | trap => some .trap
  | stuck => some .stuck
  | next _ => none
  | call _ _ => none

/-- The function that a frame calls, if it exists and its arguments are on the stack. -/
def Frame.callee? (procs : σ → Option (Procedure σ)) (target : σ) (f : Frame σ) :
    Option (Procedure σ) :=
  (procs target).filter fun p => decide (p.params.toNat ≤ f.stack.length)

/-- The frame of a function that a frame calls. -/
def Frame.inner (f : Frame σ) (p : Procedure σ) : Frame σ :=
  p.enter (f.stack.take p.params.toNat)

/-- A frame after its call has returned. -/
def Frame.resume (f : Frame σ) (p : Procedure σ) (values : List Int32) : Frame σ :=
  { f with stack := values ++ f.stack.drop p.params.toNat }

theorem Frame.callee?_eq_some_iff {procs : σ → Option (Procedure σ)} {f : Frame σ} {target : σ}
    {p : Procedure σ} :
    f.callee? procs target = some p ↔
      procs target = some p ∧ p.params.toNat ≤ f.stack.length := by
  simp [Frame.callee?, Option.filter_eq_some_iff]

theorem Frame.callee?_eq_none_iff {procs : σ → Option (Procedure σ)} {f : Frame σ} {target : σ} :
    f.callee? procs target = none ↔
      ∀ p, procs target = some p → f.stack.length < p.params.toNat := by
  simp [Frame.callee?, Option.filter_eq_none_iff]

theorem Step.isFinal_of_ending? {st : Step σ} {e : Ending} (h : st.ending? = some e) :
    e.isFinal := by
  cases st <;> simp only [Step.ending?, Option.some.injEq, reduceCtorEq] at h <;> subst h <;> rfl

section

variable [BEq σ]

/-- `Runs procs results f s e t` if the frame `f` of a function with `results` results, run on the
store `s`, comes to the ending `e` and leaves the store `t`. -/
inductive Runs (procs : σ → Option (Procedure σ)) :
    Nat → Frame σ → Store σ → Ending → Store σ → Prop where
  | next {results f s g s₁ e t} (hs : step results f s = (.next g, s₁))
      (h : Runs procs results g s₁ e t) : Runs procs results f s e t
  | stop {results f s st e t} (hs : step results f s = (st, t)) (he : st.ending? = some e) :
      Runs procs results f s e t
  | refuse {results f s target g t} (hs : step results f s = (.call target g, t))
      (hc : g.callee? procs target = none) : Runs procs results f s .stuck t
  | returns {results f s target g s₁ p values s₂ e t}
      (hs : step results f s = (.call target g, s₁)) (hc : g.callee? procs target = some p)
      (hi : Runs procs p.results.toNat (g.inner p) s₁ (.done values) s₂)
      (h : Runs procs results (g.resume p values) s₂ e t) : Runs procs results f s e t
  | fails {results f s target g s₁ p e t}
      (hs : step results f s = (.call target g, s₁)) (hc : g.callee? procs target = some p)
      (hi : Runs procs p.results.toNat (g.inner p) s₁ e t) (he : ∀ values, e ≠ .done values) :
      Runs procs results f s e t

variable {procs : σ → Option (Procedure σ)} {results : Nat} {f g : Frame σ} {s s₁ t : Store σ}
  {e : Ending}

theorem Runs.isFinal (h : Runs procs results f s e t) : e.isFinal := by
  induction h with
  | next _ _ ih => exact ih
  | stop _ he => exact Step.isFinal_of_ending? he
  | refuse _ _ => rfl
  | returns _ _ _ _ _ ih => exact ih
  | fails _ _ _ _ ih => exact ih

/-! ### Runs and budgets -/

/-- What a run finds within a budget, it finds without. -/
theorem Runs.of_run {fuel : Nat} {room : Room} (h : run procs fuel room results f s = (e, t))
    (he : e.isFinal) : Runs procs results f s e t := by
  induction fuel generalizing room results f s e t with
  | zero =>
    rw [run, Prod.mk.injEq] at h
    rw [← h.1] at he
    cases he
  | succ fuel ih =>
    rw [run] at h
    rcases hs : step results f s with ⟨st, s₁⟩
    rw [hs] at h
    cases st with
    | next g => exact .next hs (ih h he)
    | finish values =>
      obtain ⟨rfl, rfl⟩ := Prod.mk.inj h
      exact .stop hs rfl
    | trap =>
      obtain ⟨rfl, rfl⟩ := Prod.mk.inj h
      exact .stop hs rfl
    | stuck =>
      obtain ⟨rfl, rfl⟩ := Prod.mk.inj h
      exact .stop hs rfl
    | call target g =>
      rcases hp : procs target with _ | p
      · simp only [hp] at h
        obtain ⟨rfl, rfl⟩ := Prod.mk.inj h
        exact .refuse hs (by simp [Frame.callee?, hp])
      · simp only [hp] at h
        split_ifs at h with hlt
        · obtain ⟨rfl, rfl⟩ := Prod.mk.inj h
          exact .refuse hs (by simpa [Frame.callee?, hp] using hlt)
        · have hc : g.callee? procs target = some p :=
            Frame.callee?_eq_some_iff.2 ⟨hp, Nat.le_of_not_lt hlt⟩
          rcases hroom : room.enter? p with _ | inner
          · simp only [hroom] at h
            rw [← (Prod.mk.inj h).1] at he
            cases he
          · rcases hi : run procs fuel inner p.results.toNat
              (p.enter (g.stack.take p.params.toNat)) s₁ with ⟨e₁, s₂⟩
            simp only [hroom, hi] at h
            cases e₁ with
            | done values => exact .returns hs hc (ih hi rfl) (ih h he)
            | _ =>
              obtain ⟨rfl, rfl⟩ := Prod.mk.inj h
              exact .fails hs hc (ih hi he) (by simp)

omit [BEq σ] in
theorem Room.enter?_of_words {room : Room} {p : Procedure σ} (hwords : p.words = some 0)
    (hcalls : 0 < room.calls) : room.enter? p = some ⟨room.calls - 1, room.words⟩ := by
  simp [Room.enter?, hwords, hcalls]

/-- Whatever comes to an end does so within every budget that is large enough. -/
theorem Runs.exists_run (hw : ∀ n p, procs n = some p → p.words = some 0)
    (h : Runs procs results f s e t) :
    ∃ n, ∀ (fuel : Nat) (room : Room), n ≤ fuel → n ≤ room.calls →
      run procs fuel room results f s = (e, t) := by
  induction h with
  | next hs _ ih =>
    obtain ⟨n, hn⟩ := ih
    refine ⟨n + 1, fun fuel room hf hr => ?_⟩
    obtain ⟨fuel, rfl⟩ : ∃ k, fuel = k + 1 := ⟨fuel - 1, by omega⟩
    rw [run, hs]
    exact hn fuel room (by omega) (by omega)
  | @stop _ _ _ st _ _ hs he =>
    refine ⟨1, fun fuel room hf hr => ?_⟩
    obtain ⟨fuel, rfl⟩ : ∃ k, fuel = k + 1 := ⟨fuel - 1, by omega⟩
    rw [run, hs]
    cases st <;> simp_all [Step.ending?]
  | @refuse _ _ _ target g t hs hc =>
    refine ⟨1, fun fuel room hf hr => ?_⟩
    obtain ⟨fuel, rfl⟩ : ∃ k, fuel = k + 1 := ⟨fuel - 1, by omega⟩
    rw [run, hs]
    rcases hp : procs target with _ | p
    · simp only [hp]
    · simp only [hp]
      rw [if_pos (Frame.callee?_eq_none_iff.1 hc p hp)]
  | @returns _ _ _ target g s₁ p values s₂ e t hs hc _ _ ih₁ ih₂ =>
    obtain ⟨n₁, hn₁⟩ := ih₁
    obtain ⟨n₂, hn₂⟩ := ih₂
    obtain ⟨hp, hlen⟩ := Frame.callee?_eq_some_iff.1 hc
    refine ⟨n₁ + n₂ + 1, fun fuel room hf hr => ?_⟩
    obtain ⟨fuel, rfl⟩ : ∃ k, fuel = k + 1 := ⟨fuel - 1, by omega⟩
    have hroom := Room.enter?_of_words (hw _ _ hp) (show 0 < room.calls by omega)
    have hi := hn₁ fuel ⟨room.calls - 1, room.words⟩ (by omega) (by simp only; omega)
    have ho := hn₂ fuel room (by omega) (by omega)
    rw [Frame.inner] at hi
    rw [Frame.resume] at ho
    rw [run, hs]
    simp only [hp, if_neg (Nat.not_lt.2 hlen), hroom, hi, ho]
  | @fails _ _ _ target g s₁ p e t hs hc _ he ih =>
    obtain ⟨n, hn⟩ := ih
    obtain ⟨hp, hlen⟩ := Frame.callee?_eq_some_iff.1 hc
    refine ⟨n + 1, fun fuel room hf hr => ?_⟩
    obtain ⟨fuel, rfl⟩ : ∃ k, fuel = k + 1 := ⟨fuel - 1, by omega⟩
    have hroom := Room.enter?_of_words (hw _ _ hp) (show 0 < room.calls by omega)
    have hi := hn fuel ⟨room.calls - 1, room.words⟩ (by omega) (by simp only; omega)
    rw [Frame.inner] at hi
    rw [run, hs]
    simp only [hp, if_neg (Nat.not_lt.2 hlen), hroom, hi]
    cases e with
    | done values => exact absurd rfl (he values)
    | _ => rfl

/-! ### Following known steps -/

theorem runs_iff_of_next (hs : step results f s = (.next g, s₁)) :
    Runs procs results f s e t ↔ Runs procs results g s₁ e t := by
  constructor
  · intro h
    cases h with
    | next hs' h =>
      rw [hs] at hs'
      cases hs'
      exact h
    | stop hs' he =>
      rw [hs] at hs'
      cases hs'
      cases he
    | refuse hs' _ | returns hs' _ _ _ | fails hs' _ _ _ =>
      rw [hs] at hs'
      cases hs'
  · exact .next hs

theorem runs_iff_of_stop {st : Step σ} {e₁ : Ending} (hs : step results f s = (st, s₁))
    (he : st.ending? = some e₁) : Runs procs results f s e t ↔ e = e₁ ∧ t = s₁ := by
  constructor
  · intro h
    cases h with
    | stop hs' he' =>
      rw [hs] at hs'
      cases hs'
      rw [he] at he'
      exact ⟨(Option.some.inj he').symm, rfl⟩
    | next hs' _ | refuse hs' _ | returns hs' _ _ _ | fails hs' _ _ _ =>
      rw [hs] at hs'
      cases hs'
      cases he
  · rintro ⟨rfl, rfl⟩
    exact .stop hs he

theorem runs_iff_of_call {target : σ} {p : Procedure σ}
    (hs : step results f s = (.call target g, s₁)) (hc : g.callee? procs target = some p) :
    Runs procs results f s e t ↔
      (∃ values s₂, Runs procs p.results.toNat (g.inner p) s₁ (.done values) s₂ ∧
        Runs procs results (g.resume p values) s₂ e t) ∨
      (Runs procs p.results.toNat (g.inner p) s₁ e t ∧ ∀ values, e ≠ .done values) := by
  constructor
  · intro h
    cases h with
    | returns hs' hc' hi h =>
      rw [hs] at hs'
      cases hs'
      rw [hc] at hc'
      cases hc'
      exact .inl ⟨_, _, hi, h⟩
    | fails hs' hc' hi he =>
      rw [hs] at hs'
      cases hs'
      rw [hc] at hc'
      cases hc'
      exact .inr ⟨hi, he⟩
    | refuse hs' hc' =>
      rw [hs] at hs'
      cases hs'
      rw [hc] at hc'
      cases hc'
    | next hs' _ =>
      rw [hs] at hs'
      cases hs'
    | stop hs' he =>
      rw [hs] at hs'
      cases hs'
      cases he
  · rintro (⟨values, s₂, hi, h⟩ | ⟨hi, he⟩)
    · exact .returns hs hc hi h
    · exact .fails hs hc hi he

/-! ### Following single instructions -/

section

variable {code : List (Inst σ)} {labels : List (Label σ)} {stack : List Int32}
  {locals : Array Int32}

theorem runs_const_iff (v : Int32) :
    Runs procs results ⟨.const v :: code, labels, stack, locals⟩ s e t ↔
      Runs procs results ⟨code, labels, v :: stack, locals⟩ s e t :=
  runs_iff_of_next rfl

theorem runs_localGet_iff {index : UInt32} {v : Int32} (h : locals[index.toNat]? = some v) :
    Runs procs results ⟨.localGet index :: code, labels, stack, locals⟩ s e t ↔
      Runs procs results ⟨code, labels, v :: stack, locals⟩ s e t :=
  runs_iff_of_next (by simp only [step, h])

theorem runs_localSet_iff {index : UInt32} (h : index.toNat < locals.size) (v : Int32) :
    Runs procs results ⟨.localSet index :: code, labels, v :: stack, locals⟩ s e t ↔
      Runs procs results ⟨code, labels, stack, locals.setIfInBounds index.toNat v⟩ s e t :=
  runs_iff_of_next (by simp only [step, if_pos h])

theorem runs_binary_iff {op : BinOp} {l r v : Int32} (h : op.eval l r = some v) :
    Runs procs results ⟨.binary op :: code, labels, r :: l :: stack, locals⟩ s e t ↔
      Runs procs results ⟨code, labels, v :: stack, locals⟩ s e t :=
  runs_iff_of_next (by simp only [step, h])

theorem runs_load_iff (base : Int32) (offset : UInt32) :
    Runs procs results ⟨.load offset :: code, labels, base :: stack, locals⟩ s e t ↔
      if s.memory.holds (address base offset) then
        Runs procs results
          ⟨code, labels, s.memory.read (address base offset) :: stack, locals⟩ s e t
      else e = .trap ∧ t = s := by
  split_ifs with h
  · exact runs_iff_of_next (by simp only [step, if_pos h])
  · refine runs_iff_of_stop (?_ : _ = (.trap, s)) rfl
    simp only [step, if_neg h]

theorem runs_store_iff (v base : Int32) (offset : UInt32) :
    Runs procs results ⟨.store offset :: code, labels, v :: base :: stack, locals⟩ s e t ↔
      if s.memory.holds (address base offset) then
        Runs procs results ⟨code, labels, stack, locals⟩ (s.write (address base offset) v) e t
      else e = .trap ∧ t = s := by
  split_ifs with h
  · exact runs_iff_of_next (by simp only [step, if_pos h])
  · refine runs_iff_of_stop (?_ : _ = (.trap, s)) rfl
    simp only [step, if_neg h]

theorem runs_brIf_iff (b : Bool) (depth : UInt32) {f : Frame σ}
    (hf : Frame.branch results depth.toNat ⟨code, labels, stack, locals⟩ = .next f) :
    Runs procs results ⟨.brIf depth :: code, labels, BinOp.truth b :: stack, locals⟩ s e t ↔
      if b then Runs procs results f s e t
      else Runs procs results ⟨code, labels, stack, locals⟩ s e t := by
  cases b with
  | false => exact runs_iff_of_next rfl
  | true => exact runs_iff_of_next (congrArg (·, s) hf)

theorem runs_block_iff :
    Runs procs results ⟨.block :: code, labels, stack, locals⟩ s e t ↔
      Runs procs results ⟨code, ⟨none, stack⟩ :: labels, [], locals⟩ s e t :=
  runs_iff_of_next rfl

theorem runs_close_iff (label : Label σ) :
    Runs procs results ⟨.close :: code, label :: labels, [], locals⟩ s e t ↔
      Runs procs results ⟨code, labels, label.below, locals⟩ s e t :=
  runs_iff_of_next rfl

theorem runs_globalGet_iff {target : σ} {v : Int32} (h : s.global? target = some v) :
    Runs procs results ⟨.globalGet target :: code, labels, stack, locals⟩ s e t ↔
      Runs procs results ⟨code, labels, v :: stack, locals⟩ s e t :=
  runs_iff_of_next (by simp only [step, h])

theorem runs_globalSet_iff {target : σ} (h : (s.global? target).isSome) (v : Int32) :
    Runs procs results ⟨.globalSet target :: code, labels, v :: stack, locals⟩ s e t ↔
      Runs procs results ⟨code, labels, stack, locals⟩ (s.setGlobal target v) e t :=
  runs_iff_of_next (by simp only [step, h, if_true])

/-- Behind its code, a function ends with what is on the stack. -/
theorem runs_nil_iff (h : stack.length = results) :
    Runs procs results ⟨[], [], stack, locals⟩ s e t ↔ e = .done stack ∧ t = s := by
  refine runs_iff_of_stop (?_ : _ = (.finish stack, s)) rfl
  simp [step, h]

end

/-! ### The number of results -/

omit [BEq σ] in
theorem Frame.length_of_finish {values : List Int32} (h : f.finish results = .finish values) :
    values.length = results := by
  unfold Frame.finish at h
  split_ifs at h with hle
  cases h
  exact List.length_take_of_le hle

omit [BEq σ] in
theorem Frame.length_of_branch {depth : Nat} {values : List Int32}
    (h : f.branch results depth = .finish values) : values.length = results := by
  unfold Frame.branch at h
  split at h
  · split_ifs at h
    exact length_of_finish h
  · split at h
    · cases h
    · split at h <;> cases h

theorem length_of_step {values : List Int32} (h : (step results f s).1 = .finish values) :
    values.length = results := by
  obtain ⟨code, labels, stack, locals⟩ := f
  cases code with
  | nil =>
    simp only [step] at h
    split_ifs at h with hc
    cases h
    exact eq_of_beq (Bool.and_eq_true_iff.1 hc).2
  | cons inst code =>
    cases inst with
    | ret => exact Frame.length_of_finish h
    | br depth => exact Frame.length_of_branch h
    | brIf depth =>
      cases stack with
      | nil => cases h
      | cons v stack =>
        simp only [step] at h
        split_ifs at h
        exact Frame.length_of_branch h
    | close => rcases stack with _ | ⟨v, stack⟩ <;> rcases labels with _ | ⟨l, labels⟩ <;> cases h
    | const v | call target | block | loop => cases h
    | localGet index | globalGet target =>
      simp only [step] at h
      split at h <;> cases h
    | eqz | drop => rcases stack with _ | ⟨v, stack⟩ <;> cases h
    | localSet index | localTee index | globalSet target | load offset =>
      rcases stack with _ | ⟨v, stack⟩
      · cases h
      · simp only [step] at h
        split_ifs at h
    | store offset | binary op =>
      rcases stack with _ | ⟨v, _ | ⟨w, stack⟩⟩
      · cases h
      · cases h
      · simp only [step] at h
        split at h <;> cases h

/-- A function that ends normally ends with as many values as it has results. -/
theorem Runs.length_eq {values : List Int32} (h : Runs procs results f s (.done values) t) :
    values.length = results := by
  generalize he : Ending.done values = e at h
  induction h with
  | next _ _ ih => exact ih he
  | @stop results f s st e t hs hst =>
    cases st with
    | finish values' =>
      cases he
      cases hst
      exact length_of_step (congrArg Prod.fst hs)
    | _ => cases he; cases hst
  | refuse _ _ => cases he
  | returns _ _ _ _ _ ih => exact ih he
  | fails _ _ _ hne => exact absurd he.symm (hne values)

end

end ComputeScript
