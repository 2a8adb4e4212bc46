import ComputeScript.Module
import ComputeScript.Proofs.Exec.Runs

/-!
# Calling a function of a module

`Module.call` calls a function of a module within a budget of steps and a number of nested calls;
functions and globals are looked up by name.  `Module.Ends` says how a call ends when there is
enough of both, and `Module.Diverges` that it never does.
-/

namespace ComputeScript

/-- A function as it is run. -/
def Func.procedure (f : Func) : Procedure String where
  params := f.params
  results := f.results
  locals := f.locals
  body := f.body

section

variable {σ : Type} [BEq σ] {procs : σ → Option (Procedure σ)} {p : Procedure σ}

theorem call_of_words (hp : p.words = some 0) (fuel calls : Nat) (arguments : List Int32)
    (s : Store σ) :
    call procs fuel ⟨calls + 1, 0⟩ p arguments s =
      run procs fuel ⟨calls, 0⟩ p.results.toNat (p.enter arguments) s := by
  have hroom : (Room.mk (calls + 1) 0).enter? p = some ⟨calls, 0⟩ := by
    simp [Room.enter?, hp]
  simp only [call, hroom]

/-- A call comes to the endings that the function comes to when it is run from its start. -/
theorem isFinal_and_call_iff_runs (hw : ∀ n p, procs n = some p → p.words = some 0)
    (hp : p.words = some 0) {arguments : List Int32} {s t : Store σ} {e : Ending} :
    (e.isFinal ∧ ∃ fuel calls, call procs fuel ⟨calls, 0⟩ p arguments s = (e, t)) ↔
      Runs procs p.results.toNat (p.enter arguments) s e t := by
  constructor
  · rintro ⟨he, fuel, calls, h⟩
    cases calls with
    | zero =>
      have hroom : (Room.mk 0 0).enter? p = none := by
        simp [Room.enter?, hp]
      simp only [call, hroom, Prod.mk.injEq] at h
      rw [← h.1] at he
      cases he
    | succ calls =>
      rw [call_of_words hp] at h
      exact .of_run h he
  · intro h
    obtain ⟨n, hn⟩ := h.exists_run hw
    refine ⟨h.isFinal, n, n + 1, ?_⟩
    rw [call_of_words hp]
    exact hn n ⟨n, 0⟩ (Nat.le_refl n) (Nat.le_refl n)

end

namespace Module

/-- The function of a name, as it is run. -/
def procedure? (m : Module) (name : String) : Option (Procedure String) :=
  (m.func? name).map Func.procedure

/-- The store of a module with a memory and values of its globals. -/
def store (m : Module) (memory : Memory) (values : String → Int32) : Store String where
  memory := memory
  globals := m.globals.map fun g => (g.name, values g.name)

/-- Calls the function of a name with arguments, in the order of its parameters. -/
def call (m : Module) (fuel calls : Nat) (name : String) (arguments : List Int32)
    (s : Store String) : Ending × Store String :=
  match m.procedure? name with
  | none => (.stuck, s)
  | some p => ComputeScript.call m.procedure? fuel ⟨calls, 0⟩ p arguments.reverse s

/-- The call of a function comes to an ending and leaves a store. -/
def Ends (m : Module) (name : String) (arguments : List Int32) (s : Store String) (e : Ending)
    (t : Store String) : Prop :=
  e.isFinal ∧ ∃ fuel calls, m.call fuel calls name arguments s = (e, t)

/-- The call of a function never comes to an end. -/
def Diverges (m : Module) (name : String) (arguments : List Int32) (s : Store String) : Prop :=
  ∀ e t, ¬ m.Ends name arguments s e t

theorem words_of_procedure? (m : Module) (name : String) (p : Procedure String)
    (h : m.procedure? name = some p) : p.words = some 0 := by
  obtain ⟨f, -, rfl⟩ := Option.map_eq_some_iff.1 h
  rfl

theorem call_of_procedure? {m : Module} {name : String} {p : Procedure String}
    (hp : m.procedure? name = some p) (fuel calls : Nat) (arguments : List Int32)
    (s : Store String) :
    m.call fuel (calls + 1) name arguments s =
      run m.procedure? fuel ⟨calls, 0⟩ p.results.toNat (p.enter arguments.reverse) s := by
  simp only [call, hp, call_of_words (m.words_of_procedure? name p hp)]

/-- A call is a run of the function from its start. -/
theorem ends_iff_runs {m : Module} {name : String} {p : Procedure String}
    (hp : m.procedure? name = some p) {arguments : List Int32} {s t : Store String} {e : Ending} :
    m.Ends name arguments s e t ↔
      Runs m.procedure? p.results.toNat (p.enter arguments.reverse) s e t := by
  rw [← isFinal_and_call_iff_runs m.words_of_procedure? (m.words_of_procedure? name p hp)]
  simp only [Ends, call, hp]

/-- A call that ends does so within every budget that is large enough. -/
theorem Ends.exists_call {m : Module} {name : String} {p : Procedure String}
    (hp : m.procedure? name = some p) {arguments : List Int32} {s t : Store String} {e : Ending}
    (h : m.Ends name arguments s e t) :
    ∃ n, ∀ fuel calls, n ≤ fuel → n ≤ calls → m.call fuel calls name arguments s = (e, t) := by
  obtain ⟨n, hn⟩ := ((ends_iff_runs hp).1 h).exists_run m.words_of_procedure?
  refine ⟨n + 1, fun fuel calls hf hc => ?_⟩
  obtain ⟨calls, rfl⟩ : ∃ k, calls = k + 1 := ⟨calls - 1, by omega⟩
  rw [call_of_procedure? hp]
  exact hn fuel ⟨calls, 0⟩ (by omega) (by simp only; omega)

theorem Ends.length_eq {m : Module} {name : String} {p : Procedure String}
    (hp : m.procedure? name = some p) {arguments values : List Int32} {s t : Store String}
    (h : m.Ends name arguments s (.done values) t) : values.length = p.results.toNat :=
  ((ends_iff_runs hp).1 h).length_eq

/-- Inside a function of the module, a call whose arguments are on the stack ends the function, or
the function goes on with its values. -/
theorem runs_call_iff {m : Module} {name : String} {p : Procedure String}
    (hp : m.procedure? name = some p) {arguments : List Int32}
    (hlen : arguments.length = p.params.toNat) {results : Nat} {code : List (Inst String)}
    {labels : List (Label String)} {stack : List Int32} {locals : Array Int32}
    {s t : Store String} {e : Ending} :
    Runs m.procedure? results ⟨.call name :: code, labels, arguments.reverse ++ stack, locals⟩
        s e t ↔
      (∃ values s₁, m.Ends name arguments s (.done values) s₁ ∧
        Runs m.procedure? results ⟨code, labels, values ++ stack, locals⟩ s₁ e t) ∨
      (m.Ends name arguments s e t ∧ ∀ values, e ≠ .done values) := by
  let f : Frame String := ⟨code, labels, arguments.reverse ++ stack, locals⟩
  have hreverse : arguments.reverse.length = p.params.toNat := by rw [List.length_reverse, hlen]
  have hcallee : f.callee? m.procedure? name = some p := by
    refine Frame.callee?_eq_some_iff.2 ⟨hp, ?_⟩
    rw [List.length_append, hreverse]
    exact Nat.le_add_right _ _
  have hinner : f.inner p = p.enter arguments.reverse := by
    rw [Frame.inner, ← hreverse, List.take_left]
  have hresume (values : List Int32) :
      f.resume p values = ⟨code, labels, values ++ stack, locals⟩ := by
    rw [Frame.resume, ← hreverse, List.drop_left]
  rw [runs_iff_of_call (g := f) rfl hcallee, hinner]
  simp only [hresume, ends_iff_runs hp]

end Module

end ComputeScript
