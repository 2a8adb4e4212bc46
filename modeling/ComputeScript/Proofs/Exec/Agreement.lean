import ComputeScript.Proofs.Exec.Calls
import ComputeScript.Proofs.Exec.Simulation

/-!
# Agreement on some names

Procedures agree on the names in `live` if they are the same there and their code refers to nothing
else; stores agree on them if they have the same memory and the same values of globals there.  What
starts in such code then runs alike: what procedures and globals are elsewhere is never seen.
`Module.Ends.of_agree` says so of the functions of two modules.
-/

namespace ComputeScript

variable {σ : Type} {live : σ → Prop}

/-- A piece of code refers to nothing but names in `live`. -/
def RefersTo (live : σ → Prop) (code : List (Inst σ)) : Prop :=
  ∀ inst ∈ code, ∀ target, inst.reference? = some target → live target

/-- Equal pieces of code that refer to nothing but names in `live`. -/
def SameCode (live : σ → Prop) (code code' : List (Inst σ)) : Prop :=
  code = code' ∧ RefersTo live code

theorem RefersTo.tail {inst : Inst σ} {code : List (Inst σ)} (h : RefersTo live (inst :: code)) :
    RefersTo live code :=
  fun i hi => h i (List.mem_cons_of_mem _ hi)

theorem RefersTo.behind {n : Nat} {code rest : List (Inst σ)} (h : RefersTo live code)
    (hb : behind n code = some rest) : RefersTo live rest := by
  fun_induction ComputeScript.behind n code with
  | case1 => cases hb
  | case4 code =>
    cases hb
    exact h.tail
  | case2 _ _ ih | case3 _ _ ih | case5 _ _ ih => exact ih h.tail hb
  | case6 _ _ _ _ _ _ _ ih => exact ih h.tail hb

theorem behindRelated_sameCode : BehindRelated (SameCode live) := by
  rintro n c _ ⟨rfl, h⟩
  rcases hb : behind n c with _ | rest
  · exact .none
  · exact .some ⟨rfl, h.behind hb⟩

/-- Procedures agree on the names in `live`, and their code there does not leave them. -/
def Agree (live : σ → Prop) (procs procs' : σ → Option (Procedure σ)) : Prop :=
  ∀ n, live n → Option.Rel (Procedure.Related (SameCode live)) (procs n) (procs' n)

variable {procs procs' : σ → Option (Procedure σ)}

theorem agree_of_eq (hsame : ∀ n, live n → procs n = procs' n)
    (hclosed : ∀ n p, live n → procs n = some p → RefersTo live p.body) :
    Agree live procs procs' := by
  intro n hn
  rw [← hsame n hn]
  rcases hp : procs n with _ | p
  · exact .none
  · exact .some ⟨rfl, rfl, rfl, rfl, hclosed n p hn hp⟩

variable [BEq σ] {R : Store σ → Store σ → Prop} {results : Nat}

theorem isSimulation_of_agree (ha : Agree live procs procs') (hR : StoreRelation R live) :
    IsSimulation procs procs' (Frame.Related (SameCode live)) R := by
  rintro results ⟨code, labels, stack, locals⟩ ⟨_, labels', _, _⟩ s s'
    ⟨⟨hcode, hlive⟩, hlabels, hstack, hlocals⟩ hs
  subst hcode hstack hlocals
  refine .inr ⟨_, fun _ _ hrun => hrun, ?_⟩
  cases code with
  | nil =>
    obtain ⟨hstep, ht⟩ := step_nil_related live hlabels stack locals hs
    exact ⟨hstep.simulated ha fun _ _ hf => hf, ht⟩
  | cons inst code =>
    obtain ⟨hstep, ht⟩ := step_related behindRelated_sameCode hR (hlive inst List.mem_cons_self)
      ⟨rfl, hlive.tail⟩ hlabels stack locals hs
    exact ⟨hstep.simulated ha fun _ _ hf => hf, ht⟩

/-- Where procedures agree, a function runs alike. -/
theorem Runs.of_agree (ha : Agree live procs procs') (hR : StoreRelation R live)
    {p : Procedure σ} (hp : RefersTo live p.body) {arguments : List Int32} {s s' t : Store σ}
    {e : Ending} (h : Runs procs results (p.enter arguments) s e t) (hs : R s s') :
    ∃ t', R t t' ∧ Runs procs' results (p.enter arguments) s' e t' :=
  h.simulate (isSimulation_of_agree ha hR)
    (Procedure.Related.enter ⟨rfl, rfl, rfl, rfl, hp⟩ arguments) hs

/-! ### Stores -/

namespace Store

/-- Stores with the same memory and the same values of the globals in `live`. -/
def AgreeOn (live : σ → Prop) (s s' : Store σ) : Prop :=
  s.memory = s'.memory ∧ ∀ n, live n → s.global? n = s'.global? n

theorem AgreeOn.symm {s s' : Store σ} (h : AgreeOn live s s') : AgreeOn live s' s :=
  ⟨h.1.symm, fun n hn => (h.2 n hn).symm⟩

variable [LawfulBEq σ]

theorem global?_setGlobal (s : Store σ) (target n : σ) (v : Int32) :
    (s.setGlobal target v).global? n =
      if n == target then (s.global? n).map fun _ => v else s.global? n := by
  obtain ⟨memory, globals⟩ := s
  simp only [setGlobal, global?]
  induction globals with
  | nil => simp
  | cons g globals ih =>
    by_cases ht : g.1 = target <;> by_cases hn : g.1 = n
    · subst ht hn
      simp
    · have hnt : n ≠ target := fun h => hn (ht.trans h.symm)
      simpa [ht, hn, hnt, hnt.symm] using ih
    · have hnt : n ≠ target := fun h => ht (hn.trans h)
      simp [hn, hnt]
    · simpa [ht, hn] using ih

theorem storeRelation_agreeOn : StoreRelation (AgreeOn (σ := σ) live) live where
  memory h := h.1
  global h hn := h.2 _ hn
  write a w h := by
    refine ⟨?_, h.2⟩
    simp only [write, h.1]
  setGlobal v h _ := by
    refine ⟨h.1, fun n hn => ?_⟩
    rw [global?_setGlobal, global?_setGlobal, h.2 n hn]

end Store

/-! ### Modules -/

namespace Module

theorem refersTo_of_references {live : String → Prop} {f : Func}
    (h : ∀ target ∈ f.references, live target) : RefersTo live f.procedure.body :=
  fun inst hi target ht => h target (List.mem_filterMap.2 ⟨inst, hi, ht⟩)

/-- Where modules have the same functions, which refer to nothing else, calls end alike. -/
theorem Ends.of_agree {live : String → Prop} {R : Store String → Store String → Prop}
    {m m' : Module} (hR : StoreRelation R live)
    (hsame : ∀ n, live n → m.procedure? n = m'.procedure? n)
    (hclosed : ∀ n f, live n → m.func? n = some f → ∀ target ∈ f.references, live target)
    {name : String} (hname : live name) {arguments : List Int32} {s s' t : Store String}
    {e : Ending} (h : m.Ends name arguments s e t) (hs : R s s') :
    ∃ t', R t t' ∧ m'.Ends name arguments s' e t' := by
  have hbody (n : String) (p : Procedure String) (hn : live n) (hp : m.procedure? n = some p) :
      RefersTo live p.body := by
    obtain ⟨f, hf, rfl⟩ := Option.map_eq_some_iff.1 hp
    exact refersTo_of_references (hclosed n f hn hf)
  rcases hp : m.procedure? name with _ | p
  · have hp' : m'.procedure? name = none := by rw [← hsame name hname, hp]
    obtain ⟨he, fuel, calls, h⟩ := h
    simp only [call, hp, Prod.mk.injEq] at h
    obtain ⟨rfl, rfl⟩ := h
    exact ⟨s', hs, he, fuel, calls, by simp only [call, hp']⟩
  · have hp' : m'.procedure? name = some p := by rw [← hsame name hname, hp]
    rw [ends_iff_runs hp] at h
    obtain ⟨t', ht, hrun⟩ := h.of_agree (agree_of_eq hsame hbody) hR (hbody name p hname hp) hs
    exact ⟨t', ht, (ends_iff_runs hp').2 hrun⟩

end Module

end ComputeScript
