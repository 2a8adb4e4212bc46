import ComputeScript.Pass

/-!
# Dead-code elimination

A symbol is live if it is external or if the body of a live function refers to it.  `Module.live`
collects the live names with a list of names still to visit, and `Module.eliminate` drops every
definition that is not live.  A name stands for its first function; an undefined name may be live.
-/

namespace ComputeScript

namespace Module

/-- The names that the function of this name refers to. -/
def referencesOf (m : Module) (name : String) : List String :=
  match m.func? name with
  | some f => f.references
  | none => []

/-- The number of references in functions that are not yet live. -/
def pendingIn (live : List String) : List Func → Nat
  | [] => 0
  | f :: fs => (if live.contains f.name then 0 else f.references.length) + pendingIn live fs

theorem pendingIn_cons_le (live : List String) (name : String) (fs : List Func) :
    pendingIn (name :: live) fs ≤ pendingIn live fs := by
  induction fs with
  | nil => exact Nat.le_refl _
  | cons f fs ih =>
    simp only [pendingIn, List.contains_cons]
    by_cases h : live.contains f.name = true
    · simp only [h, Bool.or_true, if_true]
      omega
    · split <;> omega

/-- A name that becomes live takes the references of its function off the pending ones. -/
theorem length_referencesOf_add_pendingIn_le (m : Module) (live : List String) (name : String)
    (h : live.contains name = false) :
    (m.referencesOf name).length + pendingIn (name :: live) m.funcs ≤ pendingIn live m.funcs := by
  unfold referencesOf func?
  induction m.funcs with
  | nil => exact Nat.le_refl _
  | cons f fs ih =>
    have hle := pendingIn_cons_le live name fs
    simp only [pendingIn, List.contains_cons, List.find?_cons]
    by_cases hn : f.name = name
    · subst hn
      simp only [beq_self_eq_true, Bool.true_or, if_true, h, Bool.false_eq_true, if_false]
      omega
    · have hb : (f.name == name) = false := beq_false_of_ne hn
      simp only [hb, Bool.false_or]
      omega

/-- The live names, given names still to visit and names that are live already. -/
def reach (m : Module) (todo live : List String) : List String :=
  match todo with
  | [] => live
  | name :: names =>
    if _h : live.contains name then m.reach names live
    else m.reach (m.referencesOf name ++ names) (name :: live)
termination_by todo.length + pendingIn live m.funcs
decreasing_by
  · simp
  · have := m.length_referencesOf_add_pendingIn_le live name (by simpa using _h)
    simp only [List.length_append, List.length_cons]
    omega

/-- The names of the live symbols. -/
def live (m : Module) : List String :=
  m.reach m.externalNames []

/-- The definitions of `m` whose names are in `names`. -/
def restrict (names : List String) (m : Module) : Module where
  id := m.id
  globals := m.globals.filter fun g => names.contains g.name
  funcs := m.funcs.filter fun f => names.contains f.name

/-- The module without the definitions that are not live. -/
def eliminate (m : Module) : Module :=
  m.restrict m.live

end Module

/-- Drops every definition that nothing external needs. -/
def Pass.eliminate {m : Type → Type} [Monad m] : Pass m :=
  .ofFunction "global-dce" fun module =>
    .ok (module.eliminate, decide (module.eliminate.size < module.size))

end ComputeScript
