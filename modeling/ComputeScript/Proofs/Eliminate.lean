import ComputeScript.Pass.Eliminate
import ComputeScript.Proofs.Exec.Agreement

/-!
# What elimination keeps

`Module.Reachable` is the least set of names that holds the external ones and, with a function, what
its body refers to.  The live names are these (`mem_live_iff`), so a live function refers to nothing
that elimination drops, and it runs as before (`ends_eliminate`, `ends_of_eliminate`).
-/

namespace ComputeScript

namespace Module

/-- A name is external, or a reachable function refers to it. -/
inductive Reachable (m : Module) : String → Prop where
  | external {name} (h : name ∈ m.externalNames) : m.Reachable name
  | reference {name target} (h : m.Reachable name) (ht : target ∈ m.referencesOf name) :
      m.Reachable target

variable {m : Module}

/-! ### The live names -/

theorem reachable_of_mem_reach {todo live : List String} (htodo : ∀ n ∈ todo, m.Reachable n)
    (hlive : ∀ n ∈ live, m.Reachable n) : ∀ n ∈ m.reach todo live, m.Reachable n := by
  fun_induction Module.reach m todo live with
  | case1 live => exact hlive
  | case2 live name names _ ih => exact ih (fun n hn => htodo n (List.mem_cons_of_mem _ hn)) hlive
  | case3 live name names _ ih =>
    have hname := htodo name List.mem_cons_self
    refine ih (fun n hn => ?_) (fun n hn => ?_)
    · rcases List.mem_append.1 hn with hn | hn
      · exact .reference hname hn
      · exact htodo n (List.mem_cons_of_mem _ hn)
    · rcases List.mem_cons.1 hn with rfl | hn
      · exact hname
      · exact hlive n hn

theorem subset_reach (todo live : List String) :
    (∀ n ∈ todo, n ∈ m.reach todo live) ∧ ∀ n ∈ live, n ∈ m.reach todo live := by
  fun_induction Module.reach m todo live with
  | case1 live => exact ⟨fun n hn => absurd hn List.not_mem_nil, fun n hn => hn⟩
  | case2 live name names h ih =>
    refine ⟨fun n hn => ?_, ih.2⟩
    rcases List.mem_cons.1 hn with rfl | hn
    · exact ih.2 n (List.contains_iff_mem.1 h)
    · exact ih.1 n hn
  | case3 live name names _ ih =>
    refine ⟨fun n hn => ?_, fun n hn => ih.2 n (List.mem_cons_of_mem _ hn)⟩
    rcases List.mem_cons.1 hn with rfl | hn
    · exact ih.2 n List.mem_cons_self
    · exact ih.1 n (List.mem_append_right _ hn)

/-- The collected names are closed under references if those of the names collected so far are
collected or still to visit. -/
theorem reach_closed {todo live : List String}
    (h : ∀ n ∈ live, ∀ target ∈ m.referencesOf n, target ∈ live ∨ target ∈ todo) :
    ∀ n ∈ m.reach todo live, ∀ target ∈ m.referencesOf n, target ∈ m.reach todo live := by
  fun_induction Module.reach m todo live with
  | case1 live =>
    intro n hn target ht
    exact (h n hn target ht).resolve_right List.not_mem_nil
  | case2 live name names hname ih =>
    refine ih fun n hn target ht => ?_
    rcases h n hn target ht with hl | hl
    · exact .inl hl
    · rcases List.mem_cons.1 hl with rfl | hl
      · exact .inl (List.contains_iff_mem.1 hname)
      · exact .inr hl
  | case3 live name names _ ih =>
    refine ih fun n hn target ht => ?_
    rcases List.mem_cons.1 hn with rfl | hn
    · exact .inr (List.mem_append_left _ ht)
    · rcases h n hn target ht with hl | hl
      · exact .inl (List.mem_cons_of_mem _ hl)
      · rcases List.mem_cons.1 hl with rfl | hl
        · exact .inl List.mem_cons_self
        · exact .inr (List.mem_append_right _ hl)

theorem mem_live_iff (m : Module) (name : String) : name ∈ m.live ↔ m.Reachable name := by
  constructor
  · exact reachable_of_mem_reach (fun n hn => .external hn)
      (fun n hn => absurd hn List.not_mem_nil) name
  · intro h
    induction h with
    | external h => exact (subset_reach _ _).1 _ h
    | reference _ ht ih => exact reach_closed (fun n hn => absurd hn List.not_mem_nil) _ ih _ ht

theorem live_references {name : String} {f : Func} (hname : name ∈ m.live)
    (hf : m.func? name = some f) : ∀ target ∈ f.references, target ∈ m.live := by
  intro target ht
  rw [mem_live_iff] at hname ⊢
  refine .reference hname ?_
  rw [referencesOf, hf]
  exact ht

/-! ### Restriction to some names -/

theorem restrict_func? (m : Module) {names : List String} {name : String} (h : name ∈ names) :
    (m.restrict names).func? name = m.func? name := by
  simp only [restrict, func?, List.find?_filter]
  congr 1
  funext f
  by_cases hn : f.name = name
  · simp [hn, h]
  · simp [hn]

theorem restrict_global? (m : Module) {names : List String} {name : String} (h : name ∈ names) :
    (m.restrict names).global? name = m.global? name := by
  simp only [restrict, global?, List.find?_filter]
  congr 1
  funext g
  by_cases hn : g.name = name
  · simp [hn, h]
  · simp [hn]

theorem global?_store (m : Module) (memory : Memory) (values : String → Int32) (name : String) :
    (m.store memory values).global? name = (m.global? name).map fun _ => values name := by
  simp only [store, Store.global?, Module.global?]
  induction m.globals with
  | nil => rfl
  | cons g globals ih =>
    by_cases hn : g.name = name
    · simp [hn]
    · simpa [hn] using ih

theorem agreeOn_store_restrict (m : Module) (names : List String) (memory : Memory)
    (values : String → Int32) :
    Store.AgreeOn (· ∈ names) (m.store memory values)
      ((m.restrict names).store memory values) := by
  refine ⟨rfl, fun n hn => ?_⟩
  rw [global?_store, global?_store, restrict_global? m hn]

/-! ### Calls -/

section

variable {name : String} {arguments : List Int32} {s s' t t' : Store String} {e : Ending}

theorem procedure?_eliminate (n : String) (hn : n ∈ m.live) :
    m.eliminate.procedure? n = m.procedure? n := by
  rw [procedure?, procedure?, Module.eliminate, restrict_func? m hn]

/-- What the call of a live function comes to, it comes to without the dropped definitions. -/
theorem Ends.eliminate (h : m.Ends name arguments s e t) (hname : name ∈ m.live)
    (hs : Store.AgreeOn (· ∈ m.live) s s') :
    ∃ t', Store.AgreeOn (· ∈ m.live) t t' ∧ m.eliminate.Ends name arguments s' e t' :=
  h.of_agree Store.storeRelation_agreeOn (fun n hn => (procedure?_eliminate n hn).symm)
    (fun _ _ hn hf => live_references hn hf) hname hs

theorem Ends.of_eliminate (h : m.eliminate.Ends name arguments s' e t') (hname : name ∈ m.live)
    (hs : Store.AgreeOn (· ∈ m.live) s s') :
    ∃ t, Store.AgreeOn (· ∈ m.live) t t' ∧ m.Ends name arguments s e t := by
  have hclosed (n : String) (f : Func) (hn : n ∈ m.live) (hf : m.eliminate.func? n = some f) :
      ∀ target ∈ f.references, target ∈ m.live := by
    rw [Module.eliminate, restrict_func? m hn] at hf
    exact live_references hn hf
  obtain ⟨t, ht, hends⟩ := h.of_agree Store.storeRelation_agreeOn procedure?_eliminate hclosed
    hname hs.symm
  exact ⟨t, ht.symm, hends⟩

end

end Module

end ComputeScript
