import ComputeScript.Export
import ComputeScript.Proofs.Exec.Calls
import Mathlib.Tactic.SplitIfs

/-!
# Launching a kernel over a range

`Kernel.launch` is the loop that the wrapper of a kernel stands for: it calls the kernel once for
every index of a range, in order, and moves the input and output elements by fixed steps.  It runs
within a budget, like `Module.call`, and `Kernel.LaunchEnds` says how it ends when the budget is
large enough.  `Kernel.indices` lists the indices of a range; there are as many as the range is long
(`length_indices`).
-/

namespace ComputeScript

namespace Kernel

/-! ### Indices -/

theorem toInt_add_one {x stop : Int32} (h : x < stop) : (x + 1).toInt = x.toInt + 1 := by
  have hlt : x.toInt < stop.toInt := Int32.lt_iff_toInt_lt.1 h
  have hstop := stop.toInt_lt
  have hx := x.le_toInt
  rw [Int32.toInt_add, show (1 : Int32).toInt = 1 from rfl]
  exact Int.bmod_eq_of_le (by omega) (by omega)

/-- The indices from `first` on, as long as they are below `stop` in the signed order. -/
def indices (first stop : Int32) : List Int32 :=
  if first < stop then first :: indices (first + 1) stop else []
termination_by (stop.toInt - first.toInt).toNat
decreasing_by
  rename_i h
  have hlt : first.toInt < stop.toInt := Int32.lt_iff_toInt_lt.1 h
  have hsucc := toInt_add_one h
  omega

theorem length_indices (first stop : Int32) :
    (indices first stop).length = (stop.toInt - first.toInt).toNat := by
  fun_induction indices first stop with
  | case1 first h ih =>
    have hlt : first.toInt < stop.toInt := Int32.lt_iff_toInt_lt.1 h
    have hsucc := toInt_add_one h
    rw [List.length_cons, ih]
    omega
  | case2 first h =>
    have hle : stop.toInt ≤ first.toInt := Int32.le_iff_toInt_le.1 (Int32.not_lt.1 h)
    rw [List.length_nil]
    omega

theorem getElem_indices (first stop : Int32) (i : Nat) (h : i < (indices first stop).length) :
    (indices first stop)[i] = first + Int32.ofNat i := by
  fun_induction indices first stop generalizing i with
  | case1 first hlt ih =>
    cases i with
    | zero => exact (Int32.add_zero first).symm
    | succ i =>
      have hone : Int32.ofNat 1 = 1 := rfl
      rw [List.getElem_cons_succ, ih, Int32.ofNat_add, hone]
      grind
  | case2 first _ => cases h

example : indices 2147483645 2147483647 = [2147483645, 2147483646] := by decide +kernel

/-! ### The loop -/

/-- What a kernel is called with: the input element, then the index, as far as it takes them. -/
def arguments (k : Kernel) (word x : Int32) : List Int32 :=
  (if k.signature.takesIn then [word] else []) ++ if k.signature.takesIndex then [x] else []

/-- What is done after a call of a kernel: its result becomes the output element. -/
def put (k : Kernel) (target : Int32) : Ending × Store String → Ending × Store String
  | (.done values, s) =>
    match k.signature.returnsOut, values with
    | false, _ => (.done [], s)
    | true, value :: _ =>
      if s.memory.holds (address target 0) then (.done [], s.write (address target 0) value)
      else (.trap, s)
    | true, [] => (.stuck, s)
  | ending => ending

/-- One call of a kernel of `m`, with the input element at `source` and the output element at
`target`. -/
def round (k : Kernel) (m : Module) (fuel calls : Nat) (source target x : Int32)
    (s : Store String) : Ending × Store String :=
  if k.signature.takesIn && !s.memory.holds (address source 0) then (.trap, s)
  else
    k.put target
      (m.call fuel calls k.name (k.arguments (s.memory.read (address source 0)) x) s)

/-- The calls of a kernel of `m` on some indices, up to the first one that fails; `source` and
`target` say where the elements of an index are. -/
def rounds (k : Kernel) (m : Module) (fuel calls : Nat) (source target : Int32 → Int32) :
    List Int32 → Store String → Ending × Store String
  | [], s => (.done [], s)
  | x :: xs, s =>
    match k.round m fuel calls (source x) (target x) x s with
    | (.done _, s) => k.rounds m fuel calls source target xs s
    | ending => ending

/-- Where the element of an index is, if the element of `first` is at `base`. -/
def element (base step first x : Int32) : Int32 :=
  base + (x - first) * step

/-- The launch of a kernel of `m` over a range. -/
def launch (k : Kernel) (m : Module) (fuel calls : Nat)
    (inPtr outPtr first stop inStep outStep : Int32) (s : Store String) : Ending × Store String :=
  k.rounds m fuel calls (element inPtr inStep first) (element outPtr outStep first)
    (indices first stop) s

/-- The launch of a kernel comes to an ending and leaves a store. -/
def LaunchEnds (k : Kernel) (m : Module) (inPtr outPtr first stop inStep outStep : Int32)
    (s : Store String) (e : Ending) (t : Store String) : Prop :=
  e.isFinal ∧ ∃ fuel calls, k.launch m fuel calls inPtr outPtr first stop inStep outStep s = (e, t)

/-! ### Without a budget -/

section

variable {k : Kernel} {m : Module} {p : Procedure String}

theorem isFinal_put (k : Kernel) (target : Int32) (r : Ending × Store String) :
    (k.put target r).1.isFinal = r.1.isFinal := by
  obtain ⟨e, s⟩ := r
  cases e with
  | done values =>
    simp only [put]
    split
    · rfl
    · split_ifs <;> rfl
    · rfl
  | _ => rfl

/-- A round comes to an ending and leaves a store. -/
def RoundEnds (k : Kernel) (m : Module) (source target x : Int32) (s : Store String) (e : Ending)
    (t : Store String) : Prop :=
  e.isFinal ∧ ∃ fuel calls, k.round m fuel calls source target x s = (e, t)

/-- Some rounds come to an ending and leave a store. -/
def RoundsEnd (k : Kernel) (m : Module) (source target : Int32 → Int32) (xs : List Int32)
    (s : Store String) (e : Ending) (t : Store String) : Prop :=
  e.isFinal ∧ ∃ fuel calls, k.rounds m fuel calls source target xs s = (e, t)

theorem roundEnds_iff {source target x : Int32} {s t : Store String} {e : Ending} :
    k.RoundEnds m source target x s e t ↔
      if k.signature.takesIn && !s.memory.holds (address source 0) then e = .trap ∧ t = s
      else ∃ e' t', m.Ends k.name (k.arguments (s.memory.read (address source 0)) x) s e' t' ∧
        k.put target (e', t') = (e, t) := by
  unfold RoundEnds round
  split_ifs
  · constructor
    · rintro ⟨-, _, _, h⟩
      obtain ⟨rfl, rfl⟩ := Prod.mk.inj h
      exact ⟨rfl, rfl⟩
    · rintro ⟨rfl, rfl⟩
      exact ⟨rfl, 0, 0, rfl⟩
  · constructor
    · rintro ⟨he, fuel, calls, h⟩
      have hput := isFinal_put k target
        (m.call fuel calls k.name (k.arguments (s.memory.read (address source 0)) x) s)
      rw [h, he] at hput
      exact ⟨_, _, ⟨hput.symm, fuel, calls, rfl⟩, h⟩
    · rintro ⟨e', t', ⟨he, fuel, calls, hcall⟩, hput⟩
      refine ⟨?_, fuel, calls, by rw [hcall, hput]⟩
      have hfinal := isFinal_put k target (e', t')
      rwa [hput, he] at hfinal

/-- A round that ends does so within every budget that is large enough. -/
theorem RoundEnds.exists_round (hp : m.procedure? k.name = some p) {source target x : Int32}
    {s t : Store String} {e : Ending} (h : k.RoundEnds m source target x s e t) :
    ∃ n, ∀ fuel calls, n ≤ fuel → n ≤ calls →
      k.round m fuel calls source target x s = (e, t) := by
  rw [roundEnds_iff] at h
  unfold round
  split_ifs at h ⊢
  · obtain ⟨rfl, rfl⟩ := h
    exact ⟨0, fun _ _ _ _ => rfl⟩
  · obtain ⟨e', t', hends, hput⟩ := h
    obtain ⟨n, hn⟩ := hends.exists_call hp
    exact ⟨n, fun fuel calls hf hc => by rw [hn fuel calls hf hc, hput]⟩

theorem RoundsEnd.exists_rounds (hp : m.procedure? k.name = some p)
    {source target : Int32 → Int32} {xs : List Int32} {s t : Store String} {e : Ending}
    (h : k.RoundsEnd m source target xs s e t) :
    ∃ n, ∀ fuel calls, n ≤ fuel → n ≤ calls →
      k.rounds m fuel calls source target xs s = (e, t) := by
  obtain ⟨he, fuel, calls, h⟩ := h
  induction xs generalizing s with
  | nil => exact ⟨0, fun _ _ _ _ => h⟩
  | cons x xs ih =>
    rw [rounds] at h
    rcases hr : k.round m fuel calls (source x) (target x) x s with ⟨e₁, s₁⟩
    rw [hr] at h
    cases e₁ with
    | done values =>
      obtain ⟨n₁, hn₁⟩ := RoundEnds.exists_round hp ⟨rfl, fuel, calls, hr⟩
      obtain ⟨n₂, hn₂⟩ := ih h
      refine ⟨n₁ + n₂, fun fuel calls hf hc => ?_⟩
      rw [rounds, hn₁ fuel calls (by omega) (by omega)]
      exact hn₂ fuel calls (by omega) (by omega)
    | _ =>
      obtain ⟨rfl, rfl⟩ := Prod.mk.inj h
      obtain ⟨n, hn⟩ := RoundEnds.exists_round hp ⟨he, fuel, calls, hr⟩
      refine ⟨n, fun fuel calls hf hc => ?_⟩
      rw [rounds, hn fuel calls hf hc]

theorem roundsEnd_nil {source target : Int32 → Int32} {s t : Store String} {e : Ending} :
    k.RoundsEnd m source target [] s e t ↔ e = .done [] ∧ t = s := by
  constructor
  · rintro ⟨-, _, _, h⟩
    obtain ⟨rfl, rfl⟩ := Prod.mk.inj h
    exact ⟨rfl, rfl⟩
  · rintro ⟨rfl, rfl⟩
    exact ⟨rfl, 0, 0, rfl⟩

/-- Rounds end as their first one does, or as the others do after it. -/
theorem roundsEnd_cons (hp : m.procedure? k.name = some p) {source target : Int32 → Int32}
    {x : Int32} {xs : List Int32} {s t : Store String} {e : Ending} :
    k.RoundsEnd m source target (x :: xs) s e t ↔
      (∃ values s₁, k.RoundEnds m (source x) (target x) x s (.done values) s₁ ∧
        k.RoundsEnd m source target xs s₁ e t) ∨
      (k.RoundEnds m (source x) (target x) x s e t ∧ ∀ values, e ≠ .done values) := by
  constructor
  · rintro ⟨he, fuel, calls, h⟩
    rw [rounds] at h
    rcases hr : k.round m fuel calls (source x) (target x) x s with ⟨e₁, s₁⟩
    rw [hr] at h
    cases e₁ with
    | done values => exact .inl ⟨values, s₁, ⟨rfl, fuel, calls, hr⟩, he, fuel, calls, h⟩
    | _ =>
      obtain ⟨rfl, rfl⟩ := Prod.mk.inj h
      exact .inr ⟨⟨he, fuel, calls, hr⟩, by simp⟩
  · rintro (⟨values, s₁, hround, hrounds⟩ | ⟨hround, hne⟩)
    · obtain ⟨n₁, hn₁⟩ := hround.exists_round hp
      obtain ⟨n₂, hn₂⟩ := hrounds.exists_rounds hp
      refine ⟨hrounds.1, n₁ + n₂, n₁ + n₂, ?_⟩
      rw [rounds, hn₁ _ _ (by omega) (by omega)]
      exact hn₂ _ _ (by omega) (by omega)
    · obtain ⟨he, fuel, calls, h⟩ := hround
      refine ⟨he, fuel, calls, ?_⟩
      rw [rounds, h]
      cases e with
      | done values => exact absurd rfl (hne values)
      | _ => rfl

/-- Rounds end alike in modules where the calls of the kernel do. -/
theorem roundsEnd_congr {m' : Module} {p' : Procedure String} (hp : m.procedure? k.name = some p)
    (hp' : m'.procedure? k.name = some p')
    (h : ∀ {arguments s e t}, m'.Ends k.name arguments s e t ↔ m.Ends k.name arguments s e t)
    {source target : Int32 → Int32} {xs : List Int32} {s t : Store String} {e : Ending} :
    k.RoundsEnd m' source target xs s e t ↔ k.RoundsEnd m source target xs s e t := by
  induction xs generalizing s with
  | nil => rw [roundsEnd_nil, roundsEnd_nil]
  | cons x xs ih =>
    rw [roundsEnd_cons hp, roundsEnd_cons hp']
    simp only [roundEnds_iff, h, ih]

end

end Kernel

end ComputeScript
