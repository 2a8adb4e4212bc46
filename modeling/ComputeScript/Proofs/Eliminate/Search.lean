import ComputeScript.Proofs.Compile.Stages
import ComputeScript.Proofs.Verified
import Mathlib.Data.Finset.Card
import Mathlib.Logic.Relation
import Mathlib.Order.Bounds.Defs

/-!
# The search for what is live

What is live can be searched for in many orders.  A `Search` knows some names to be live and has
some of them still to visit; to visit a name is to note what its function refers to
(`Search.visit`), and any of the names may be next (`Module.Visits`).  Every visit keeps
`Search.UnderWay` and makes `Search.remaining` smaller, so that each search comes to an end, and
has found then what is reachable (`Search.UnderWay.mem_live_iff`).  `Module.eliminate_exact` puts
this together: in whatever order, elimination keeps the definitions of the least set of names that
holds the external ones and what its functions refer to.
-/

namespace ComputeScript

/-- A stage of a search: the names that are known to be live, and those that are to be visited. -/
structure Search where
  live : List String
  work : List String

namespace Search

variable {m : Module} {s : Search} {name : String} {names : List String}

/-- A name is live; it is to be visited if this was not known. -/
def note (s : Search) (name : String) : Search :=
  if name ∈ s.live then s else ⟨name :: s.live, name :: s.work⟩

/-- Whatever the function of a name refers to is live. -/
def visit (m : Module) (s : Search) (name : String) : Search :=
  (m.referencesOf name).foldl note s

/-! ### One name after the other -/

theorem mem_live_note {n : String} : n ∈ (s.note name).live ↔ n ∈ s.live ∨ n = name := by
  unfold note
  split_ifs with h
  · exact ⟨.inl, fun hn => hn.elim id fun heq => heq ▸ h⟩
  · rw [List.mem_cons, or_comm]

theorem mem_work_note {n : String} :
    n ∈ (s.note name).work ↔ n ∈ s.work ∨ (n = name ∧ n ∉ s.live) := by
  unfold note
  split_ifs with h
  · refine ⟨.inl, fun hn => hn.elim id ?_⟩
    rintro ⟨rfl, hnew⟩
    exact absurd h hnew
  · rw [List.mem_cons, or_comm]
    refine or_congr_right (and_iff_left_of_imp ?_).symm
    rintro rfl
    exact h

theorem mem_live_foldl_note {n : String} :
    n ∈ (names.foldl note s).live ↔ n ∈ s.live ∨ n ∈ names := by
  induction names generalizing s with
  | nil => simp
  | cons name names ih => rw [List.foldl_cons, ih, mem_live_note, List.mem_cons, or_assoc]

theorem mem_work_foldl_note {n : String} :
    n ∈ (names.foldl note s).work ↔ n ∈ s.work ∨ (n ∈ names ∧ n ∉ s.live) := by
  induction names generalizing s with
  | nil => simp
  | cons name names ih =>
    rw [List.foldl_cons, ih, mem_work_note, mem_live_note, List.mem_cons]
    tauto

theorem mem_live_visit {n : String} :
    n ∈ (s.visit m name).live ↔ n ∈ s.live ∨ n ∈ m.referencesOf name :=
  mem_live_foldl_note

theorem mem_work_visit {n : String} :
    n ∈ (s.visit m name).work ↔ n ∈ s.work ∨ (n ∈ m.referencesOf name ∧ n ∉ s.live) :=
  mem_work_foldl_note

/-- An upper bound on the visits that are still to come, if only these names can become live: each
is visited at most once. -/
def remaining (names : Finset String) (s : Search) : Nat :=
  s.work.length + (names \ s.live.toFinset).card

theorem remaining_note {names : Finset String} (h : name ∈ names) :
    (s.note name).remaining names = s.remaining names := by
  unfold note
  split_ifs with hlive
  · rfl
  · have hmem : name ∈ names \ s.live.toFinset := by simp [h, hlive]
    have hcard := Finset.card_erase_add_one hmem
    simp only [remaining, List.length_cons, List.toFinset_cons, Finset.sdiff_insert]
    omega

theorem remaining_foldl_note {names : Finset String} {targets : List String}
    (h : ∀ target ∈ targets, target ∈ names) :
    (targets.foldl note s).remaining names = s.remaining names := by
  induction targets generalizing s with
  | nil => rfl
  | cons target targets ih =>
    obtain ⟨htarget, htargets⟩ := List.forall_mem_cons.1 h
    rw [List.foldl_cons, ih htargets, remaining_note htarget]

end Search

namespace Module

open Relation

variable {m : Module} {s t : Search} {name : String}

/-- A search starts with the external names, in any order. -/
structure Starts (m : Module) (s : Search) : Prop where
  live : ∀ name, name ∈ s.live ↔ name ∈ m.externalNames
  work : ∀ name, name ∈ s.work ↔ name ∈ m.externalNames

/-- One step of a search: any of the names to be visited is visited. -/
inductive Visits (m : Module) : Search → Search → Prop where
  | visit (live before after : List String) (name : String) :
      m.Visits ⟨live, before ++ name :: after⟩ (Search.visit m ⟨live, before ++ after⟩ name)

/-! ### Every search comes to an end -/

theorem mem_references_of_mem_referencesOf {target : String} (h : target ∈ m.referencesOf name) :
    target ∈ m.funcs.flatMap Func.references := by
  rw [referencesOf] at h
  rcases hf : m.func? name with _ | f <;> rw [hf] at h
  · cases h
  · exact List.mem_flatMap.2 ⟨f, List.mem_of_find?_eq_some hf, h⟩

theorem Visits.remaining_lt (h : m.Visits s t) :
    t.remaining (m.funcs.flatMap Func.references).toFinset <
      s.remaining (m.funcs.flatMap Func.references).toFinset := by
  obtain ⟨live, before, after, name⟩ := h
  rw [Search.visit, Search.remaining_foldl_note fun target ht =>
    List.mem_toFinset.2 (mem_references_of_mem_referencesOf ht)]
  simp only [Search.remaining, List.length_append, List.length_cons]
  omega

theorem wellFounded_visits (m : Module) : WellFounded fun t s => m.Visits s t :=
  Subrelation.wf (fun h => h.remaining_lt)
    (measure (Search.remaining (m.funcs.flatMap Func.references).toFinset)).wf

/-- A search can go on until there is nothing left to be visited. -/
theorem forall_not_visits_iff : (∀ t, ¬ m.Visits s t) ↔ s.work = [] := by
  obtain ⟨live, work⟩ := s
  constructor
  · intro hlast
    cases work with
    | nil => rfl
    | cons name work => exact absurd (.visit live [] work name) (hlast _)
  · rintro rfl t hvisit
    generalize hs : Search.mk live [] = s at hvisit
    obtain ⟨_, before, after, name⟩ := hvisit
    simp at hs

end Module

/-! ### What a search finds -/

/-- What holds all through a search: all that is live is reachable, and has been visited or is to be
visited. -/
structure Search.UnderWay (m : Module) (s : Search) : Prop where
  external : ∀ name ∈ m.externalNames, name ∈ s.live
  reachable : ∀ name ∈ s.live, m.Reachable name
  work : ∀ name ∈ s.work, name ∈ s.live
  visited : ∀ name ∈ s.live, name ∉ s.work → ∀ target ∈ m.referencesOf name, target ∈ s.live

namespace Search.UnderWay

variable {m : Module} {s t : Search}

theorem of_starts (h : m.Starts s) : s.UnderWay m where
  external name hname := (h.live name).2 hname
  reachable name hname := .external ((h.live name).1 hname)
  work name hname := (h.live name).2 ((h.work name).1 hname)
  visited name hname hwork := absurd ((h.work name).2 ((h.live name).1 hname)) hwork

theorem visits (h : s.UnderWay m) (hvisit : m.Visits s t) : t.UnderWay m := by
  obtain ⟨live, before, after, name⟩ := hvisit
  have hname : name ∈ live := h.work name (by simp)
  have hrest {n : String} (hn : n ∈ before ++ after) : n ∈ live := by
    refine h.work n ?_
    rcases List.mem_append.1 hn with hn | hn <;> simp [hn]
  constructor
  · intro n hn
    exact mem_live_visit.2 (.inl (h.external n hn))
  · intro n hn
    rcases mem_live_visit.1 hn with hn | hn
    · exact h.reachable n hn
    · exact .reference (h.reachable name hname) hn
  · intro n hn
    rcases mem_work_visit.1 hn with hn | ⟨hn, -⟩
    · exact mem_live_visit.2 (.inl (hrest hn))
    · exact mem_live_visit.2 (.inr hn)
  · intro n hn hwork target ht
    rw [mem_work_visit, not_or, not_and_not_right] at hwork
    have hlive : n ∈ live := (mem_live_visit.1 hn).elim id hwork.2
    by_cases hsame : n = name
    · subst hsame
      exact mem_live_visit.2 (.inr ht)
    · refine mem_live_visit.2 (.inl (h.visited n hlive ?_ target ht))
      intro hn
      apply hwork.1
      simpa [hsame] using hn

theorem of_reflTransGen (h : s.UnderWay m) (hrun : Relation.ReflTransGen m.Visits s t) :
    t.UnderWay m := by
  induction hrun with
  | refl => exact h
  | tail _ hvisit ih => exact ih.visits hvisit

/-- When nothing is left to be visited, the live names are the reachable ones. -/
theorem mem_live_iff (h : s.UnderWay m) (hwork : s.work = []) (name : String) :
    name ∈ s.live ↔ m.Reachable name := by
  refine ⟨h.reachable name, fun hreachable => ?_⟩
  induction hreachable with
  | external hname => exact h.external _ hname
  | reference _ ht ih => exact h.visited _ ih (by simp [hwork]) _ ht

end Search.UnderWay

namespace Module

variable {m : Module}

/-- A set of names holds the external ones and, with each function, what its body refers to. -/
structure ClosedUnder (m : Module) (names : Set String) : Prop where
  external : ∀ name ∈ m.externalNames, name ∈ names
  references : ∀ f ∈ m.funcs, f.name ∈ names → ∀ target ∈ f.references, target ∈ names

theorem isLeast_reachable (hnodup : m.names.Nodup) :
    IsLeast {names | m.ClosedUnder names} {name | m.Reachable name} := by
  constructor
  · refine ⟨fun name hname => .external hname, fun f hf hreachable target ht => ?_⟩
    refine .reference hreachable ?_
    rwa [referencesOf, func?_of_mem hnodup hf]
  · intro names hclosed name hreachable
    induction hreachable with
    | external hname => exact hclosed.external _ hname
    | @reference name target _ ht ih =>
      rw [referencesOf] at ht
      rcases hf : m.func? name with _ | f <;> rw [hf] at ht
      · cases ht
      · refine hclosed.references f (List.mem_of_find?_eq_some hf) ?_ target ht
        rwa [name_of_func? hf]

theorem restrict_congr {names names' : List String} (h : ∀ name, name ∈ names ↔ name ∈ names') :
    m.restrict names = m.restrict names' := by
  have hcontains (name : String) : names.contains name = names'.contains name := by
    rw [Bool.eq_iff_iff, List.contains_iff_mem, List.contains_iff_mem, h]
  simp only [restrict, hcontains]

open scoped Classical in
/-- Elimination keeps the definitions, as they are and in their order, of the least set of names
that holds the external ones and what its functions refer to.  Every search for these names comes to
an end, and to the same result. -/
theorem eliminate_exact (m : Module) (hnodup : m.names.Nodup) :
    (∃ live, IsLeast {names | m.ClosedUnder names} live ∧
      m.eliminate = { m with
        globals := m.globals.filter fun g => g.name ∈ live
        funcs := m.funcs.filter fun f => f.name ∈ live }) ∧
      (WellFounded (fun t s => m.Visits s t) ∧
        ∀ start last, m.Starts start → Relation.ReflTransGen m.Visits start last →
          (∀ next, ¬ m.Visits last next) → m.restrict last.live = m.eliminate) ∧
      (m.verify = .ok () → m.eliminate.verify = .ok ()) ∧
      ∀ ω : Type, (Pass.eliminate (m := StateM ω)).run.run.run m =
        pure (.ok (if m.eliminate.size < m.size then .changed else .unchanged), m.eliminate) := by
  refine ⟨⟨_, isLeast_reachable hnodup, ?_⟩, ⟨wellFounded_visits m, ?_⟩, verify_eliminate,
    fun ω => Pass.run_eliminate m⟩
  · have hlive (name : String) : m.live.contains name = decide (m.Reachable name) := by
      rw [Bool.eq_iff_iff, List.contains_iff_mem, mem_live_iff, decide_eq_true_iff]
    simp only [eliminate, restrict, hlive, Set.mem_ofPred_eq]
  · intro start last hstart hrun hlast
    have hunderWay := (Search.UnderWay.of_starts hstart).of_reflTransGen hrun
    apply restrict_congr
    intro name
    rw [hunderWay.mem_live_iff (forall_not_visits_iff.1 hlast), mem_live_iff]

/-- A module with a function that calls itself and one that is not there, and with two functions
that call each other and are not called. -/
def circling : Module where
  id := "circling"
  globals := [{ name := "used", linkage := .internal }, { name := "unused", linkage := .internal }]
  funcs :=
    [{ name := "pong", linkage := .internal, body := [.call "ping", .globalGet "unused"] },
     { name := "leaf", linkage := .internal, body := [.call "leaf", .call "root"] },
     { name := "root", body := [.call "leaf", .call "missing", .globalGet "used"] },
     { name := "ping", linkage := .internal, body := [.call "pong"] }]

theorem eliminate_exact_circling :
    circling.names.Nodup ∧
      circling.eliminate = { circling with
        globals := circling.globals.take 1
        funcs := (circling.funcs.drop 1).take 2 } := by
  have hnodup : circling.names.Nodup := by decide
  have hroot : circling.Visits ⟨["root"], ["root"]⟩
      ⟨["used", "missing", "leaf", "root"], ["used", "missing", "leaf"]⟩ :=
    .visit ["root"] [] [] "root"
  have hmissing : circling.Visits
      ⟨["used", "missing", "leaf", "root"], ["used", "missing", "leaf"]⟩
      ⟨["used", "missing", "leaf", "root"], ["used", "leaf"]⟩ :=
    .visit _ ["used"] ["leaf"] "missing"
  have hleaf : circling.Visits ⟨["used", "missing", "leaf", "root"], ["used", "leaf"]⟩
      ⟨["used", "missing", "leaf", "root"], ["used"]⟩ :=
    .visit _ ["used"] [] "leaf"
  have hused : circling.Visits ⟨["used", "missing", "leaf", "root"], ["used"]⟩
      ⟨["used", "missing", "leaf", "root"], []⟩ :=
    .visit _ [] [] "used"
  have hstart : circling.Starts ⟨["root"], ["root"]⟩ := ⟨fun _ => Iff.rfl, fun _ => Iff.rfl⟩
  have hrun := (((Relation.ReflTransGen.single hroot).tail hmissing).tail hleaf).tail hused
  have hsearch := (eliminate_exact circling hnodup).2.1.2 _ _ hstart hrun
    (forall_not_visits_iff.2 rfl)
  exact ⟨hnodup, hsearch.symm.trans (by decide)⟩

end Module

end ComputeScript
