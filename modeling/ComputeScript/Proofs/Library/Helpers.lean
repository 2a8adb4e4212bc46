import ComputeScript.Library.Bundled
import ComputeScript.Proofs.BinOp
import ComputeScript.Proofs.Exec.Agreement

/-!
# The bundled helpers compute what they are named for

The helpers of both libraries are the same code behind another beginning, so each of them is run
once, in any module that has them (`Library.Provides`): of the beginning it matters only what it
does to the store.  A helper branches out of a block or calls other helpers, and every step of it is
followed in both directions, so that there is no other ending.  `Library.helpers_compute` is the
result for the two libraries.
-/

namespace ComputeScript

namespace Store

variable {σ : Type} [BEq σ]

theorem setGlobal_setGlobal (s : Store σ) (target : σ) (v w : Int32) :
    (s.setGlobal target v).setGlobal target w = s.setGlobal target w := by
  simp only [setGlobal, List.map_map, mk.injEq, true_and]
  refine List.map_congr_left fun g _ => ?_
  by_cases hg : (g.1 == target) = true <;> simp [hg]

end Store

namespace Module

variable {m : Module} {name : String} {arguments values : List Int32} {s s₁ t : Store String}
  {e : Ending}

/-- The call of a function comes to an end with these values and this store, and to no other. -/
def Yields (m : Module) (name : String) (arguments : List Int32) (s : Store String)
    (values : List Int32) (t : Store String) : Prop :=
  ∀ e u, m.Ends name arguments s e u ↔ e = .done values ∧ u = t

/-- A function whose run from its start is known. -/
theorem yields_of_runs_iff {p : Procedure String} (hp : m.procedure? name = some p)
    (h : ∀ e u, Runs m.procedure? p.results.toNat (p.enter arguments.reverse) s e u ↔
      e = .done values ∧ u = t) :
    m.Yields name arguments s values t :=
  fun e u => (ends_iff_runs hp).trans (h e u)

/-- Inside a function of the module, a call whose values are known puts them on the stack. -/
theorem Yields.runs_call_iff {p : Procedure String} (h : m.Yields name arguments s values s₁)
    (hp : m.procedure? name = some p) (hlen : arguments.length = p.params.toNat) {results : Nat}
    {code : List (Inst String)} {labels : List (Label String)} {stack : List Int32}
    {locals : Array Int32} :
    Runs m.procedure? results ⟨.call name :: code, labels, arguments.reverse ++ stack, locals⟩
        s e t ↔
      Runs m.procedure? results ⟨code, labels, values ++ stack, locals⟩ s₁ e t := by
  rw [Module.runs_call_iff hp hlen]
  constructor
  · rintro (⟨values', s', hends, hruns⟩ | ⟨hends, hne⟩)
    · obtain ⟨hvalues, rfl⟩ := (h _ _).1 hends
      cases hvalues
      exact hruns
    · exact absurd ((h _ _).1 hends).1 (hne values)
  · exact fun hruns => .inl ⟨values, s₁, (h _ _).2 ⟨rfl, rfl⟩, hruns⟩

end Module

namespace Library

/-! ### Words -/

theorem toInt_minimum (a b : Int32) :
    (if decide (a ≤ b) then a else b).toInt = min a.toInt b.toInt := by
  by_cases h : a ≤ b
  · rw [if_pos (decide_eq_true h), min_eq_left (Int32.le_iff_toInt_le.1 h)]
  · rw [if_neg (by simpa using h), min_eq_right (Int32.lt_iff_toInt_lt.1 (Int32.not_le.1 h)).le]

theorem toInt_maximum (a b : Int32) :
    (if decide (b ≤ a) then a else b).toInt = max a.toInt b.toInt := by
  by_cases h : b ≤ a
  · rw [if_pos (decide_eq_true h), max_eq_left (Int32.le_iff_toInt_le.1 h)]
  · rw [if_neg (by simpa using h), max_eq_right (Int32.lt_iff_toInt_lt.1 (Int32.not_le.1 h)).le]

/-- The sign bit of a word, spread over the word. -/
def spread (a : Int32) : Int32 :=
  a >>> 31

theorem toInt_spread (a : Int32) : (spread a).toInt = a.toInt / 2 ^ 31 := by
  have hdistance : BinOp.distance (31 : Int32).toInt = 31 := rfl
  rw [spread, BinOp.toInt_shiftRight, hdistance, Int.fdiv_eq_ediv_of_nonneg _ (by decide)]

theorem spread_of_nonneg {a : Int32} (h : 0 ≤ a.toInt) : spread a = 0 := by
  have hlt := a.toInt_lt
  rw [← Int32.toInt_inj, toInt_spread, Int32.toInt_zero]
  omega

theorem spread_of_neg {a : Int32} (h : a.toInt < 0) : spread a = -1 := by
  have hle := a.le_toInt
  rw [← Int32.toInt_inj, toInt_spread, show (-1 : Int32).toInt = -1 from rfl]
  omega

theorem flip_sub_neg_one (a : Int32) : (a ^^^ (-1)) - (-1) = -a := by
  have hones : (-1 : Int32).toBitVec = BitVec.allOnes 32 := rfl
  have hone : -BitVec.allOnes 32 = 1#32 := rfl
  rw [← Int32.toBitVec_inj, Int32.toBitVec_sub, Int32.toBitVec_xor, hones, BitVec.xor_allOnes,
    BitVec.sub_eq_add_neg, hone, Int32.toBitVec_neg, BitVec.neg_eq_not_add]

theorem toInt_neg_of_ne_minValue {a : Int32} (h : a ≠ Int32.minValue) :
    (-a).toInt = -a.toInt := by
  have hle := a.le_toInt
  have hlt := a.toInt_lt
  have hne : a.toInt ≠ -2 ^ 31 := fun heq => h (Int32.toInt_inj.1 heq)
  rw [Int32.toInt_neg]
  exact Int.bmod_eq_of_le (by omega) (by omega)

/-- Flipping the sign bit out of a word and subtracting it gives the absolute value, except for the
least word, whose absolute value is no word. -/
theorem toInt_absolute (a : Int32) :
    ((a ^^^ spread a) - spread a).toInt = if a = Int32.minValue then -2 ^ 31 else |a.toInt| := by
  by_cases hmin : a = Int32.minValue
  · rw [if_pos hmin, hmin]
    decide
  rw [if_neg hmin]
  by_cases hsign : 0 ≤ a.toInt
  · rw [spread_of_nonneg hsign, Int32.xor_zero, Int32.sub_zero, abs_of_nonneg hsign]
  · rw [spread_of_neg (not_le.1 hsign), flip_sub_neg_one, abs_of_neg (not_le.1 hsign),
      toInt_neg_of_ne_minValue hmin]

/-! ### Running the pieces -/

section

variable {procs : String → Option (Procedure String)} {s t : Store String} {e : Ending}

/-- The first argument is kept where the comparison holds, by a branch out of the block that would
replace it. -/
theorem runs_choose_iff {comparison : BinOp} {a b : Int32} {holds : Bool}
    (h : comparison.eval a b = some (BinOp.truth holds)) :
    Runs procs 1 ⟨choose comparison, [], [], #[a, b, 0]⟩ s e t ↔
      e = .done [if holds then a else b] ∧ t = s := by
  have hsize (v : Int32) : (2 : UInt32).toNat < #[a, b, v].size := Nat.lt_add_one 2
  let rest : List (Inst String) := [.localGet 1, .localSet 2, .close, .localGet 2]
  have hkept (v : Int32) : Runs procs 1 ⟨[.localGet 2], [], [], #[a, b, v]⟩ s e t ↔
      e = .done [v] ∧ t = s :=
    (runs_localGet_iff rfl).trans (runs_nil_iff rfl)
  calc Runs procs 1 ⟨choose comparison, [], [], #[a, b, 0]⟩ s e t
    _ ↔ Runs procs 1 ⟨.localGet 0 :: .localGet 1 :: .binary comparison :: .brIf 0 :: rest,
          [⟨none, []⟩], [], #[a, b, a]⟩ s e t :=
      (runs_localGet_iff rfl).trans ((runs_localSet_iff (hsize 0) a).trans runs_block_iff)
    _ ↔ Runs procs 1 ⟨.brIf 0 :: rest, [⟨none, []⟩], [BinOp.truth holds], #[a, b, a]⟩ s e t :=
      (runs_localGet_iff rfl).trans ((runs_localGet_iff rfl).trans (runs_binary_iff h))
    _ ↔ if holds then Runs procs 1 ⟨[.localGet 2], [], [], #[a, b, a]⟩ s e t
          else Runs procs 1 ⟨rest, [⟨none, []⟩], [], #[a, b, a]⟩ s e t :=
      runs_brIf_iff holds 0 rfl
    _ ↔ e = .done [if holds then a else b] ∧ t = s := by
      cases holds with
      | true => exact hkept a
      | false =>
        exact (runs_localGet_iff rfl).trans ((runs_localSet_iff (hsize a) b).trans
          ((runs_close_iff _).trans (hkept b)))

theorem runs_absolute_iff (a : Int32) :
    Runs procs 1 ⟨absolute, [], [], #[a, 0]⟩ s e t ↔
      e = .done [(a ^^^ spread a) - spread a] ∧ t = s := by
  have hsize : (1 : UInt32).toNat < #[a, 0].size := Nat.lt_add_one 1
  calc Runs procs 1 ⟨absolute, [], [], #[a, 0]⟩ s e t
    _ ↔ Runs procs 1 ⟨[.localGet 0, .localGet 1, .binary .xor, .localGet 1, .binary .sub], [], [],
          #[a, spread a]⟩ s e t :=
      (runs_localGet_iff rfl).trans ((runs_const_iff 31).trans
        ((runs_binary_iff rfl).trans (runs_localSet_iff hsize (spread a))))
    _ ↔ Runs procs 1 ⟨[.localGet 1, .binary .sub], [], [a ^^^ spread a], #[a, spread a]⟩ s e t :=
      (runs_localGet_iff rfl).trans ((runs_localGet_iff rfl).trans (runs_binary_iff rfl))
    _ ↔ e = .done [(a ^^^ spread a) - spread a] ∧ t = s :=
      (runs_localGet_iff rfl).trans ((runs_binary_iff rfl).trans (runs_nil_iff rfl))

end

/-! ### Modules that have the helpers -/

/-- A module has the helpers, and where a store is `fit`, their beginning does to it what `entered`
says and to the frame nothing. -/
structure Provides (m : Module) (enter : List (Inst String)) (fit : Store String → Prop)
    (entered : Store String → Store String) : Prop where
  funcs : ∀ f ∈ helpers enter, m.func? f.name = some f
  fit_entered : ∀ s, fit s → fit (entered s)
  runs_enter_iff : ∀ (code : List (Inst String)) (locals : Array Int32) (s t : Store String)
    (e : Ending), fit s →
      (Runs m.procedure? 1 ⟨enter ++ code, [], [], locals⟩ s e t ↔
        Runs m.procedure? 1 ⟨code, [], [], locals⟩ (entered s) e t)

namespace Provides

variable {m : Module} {enter : List (Inst String)} {fit : Store String → Prop}
  {entered : Store String → Store String} {s : Store String}

theorem procedure?_eq (h : Provides m enter fit entered) {f : Func} (hf : f ∈ helpers enter) :
    m.procedure? f.name = some f.procedure := by
  rw [Module.procedure?, h.funcs f hf, Option.map_some]

theorem yields_min (h : Provides m enter fit entered) (hs : fit s) (a b : Int32) :
    m.Yields "rs_min" [a, b] s [if decide (a ≤ b) then a else b] (entered s) := by
  have hp := h.procedure?_eq (f := helper "rs_min" 2 1 (enter ++ choose .leS)) (by simp [helpers])
  exact Module.yields_of_runs_iff hp fun e u =>
    (h.runs_enter_iff _ #[a, b, 0] s u e hs).trans (runs_choose_iff rfl)

theorem yields_max (h : Provides m enter fit entered) (hs : fit s) (a b : Int32) :
    m.Yields "rs_max" [a, b] s [if decide (b ≤ a) then a else b] (entered s) := by
  have hp := h.procedure?_eq (f := helper "rs_max" 2 1 (enter ++ choose .geS)) (by simp [helpers])
  exact Module.yields_of_runs_iff hp fun e u =>
    (h.runs_enter_iff _ #[a, b, 0] s u e hs).trans (runs_choose_iff rfl)

theorem yields_abs (h : Provides m enter fit entered) (hs : fit s) (a : Int32) :
    m.Yields "rs_abs" [a] s [(a ^^^ spread a) - spread a] (entered s) := by
  have hp := h.procedure?_eq (f := helper "rs_abs" 1 1 (enter ++ absolute)) (by simp [helpers])
  exact Module.yields_of_runs_iff hp fun e u =>
    (h.runs_enter_iff _ #[a, 0] s u e hs).trans (runs_absolute_iff a)

/-- Clamping calls two helpers, each of which begins as the helpers do. -/
theorem yields_clamp (h : Provides m enter fit entered) (hs : fit s) (a b c : Int32) :
    let v := if decide (b ≤ a) then a else b
    m.Yields "rs_clamp" [a, b, c] s [if decide (v ≤ c) then v else c] (entered (entered s)) := by
  intro v
  have hp := h.procedure?_eq (f := helper "rs_clamp" 3 0 clamp) (by simp [helpers])
  have hmax := h.procedure?_eq (f := helper "rs_max" 2 1 (enter ++ choose .geS)) (by simp [helpers])
  have hmin := h.procedure?_eq (f := helper "rs_min" 2 1 (enter ++ choose .leS)) (by simp [helpers])
  refine Module.yields_of_runs_iff hp fun e u => ?_
  calc Runs m.procedure? 1 ⟨clamp, [], [], #[a, b, c]⟩ s e u
    _ ↔ Runs m.procedure? 1 ⟨[.call "rs_max", .localGet 2, .call "rs_min"], [], [b, a], #[a, b, c]⟩
          s e u :=
      (runs_localGet_iff rfl).trans (runs_localGet_iff rfl)
    _ ↔ Runs m.procedure? 1 ⟨[.localGet 2, .call "rs_min"], [], [v], #[a, b, c]⟩ (entered s) e u :=
      (h.yields_max hs a b).runs_call_iff hmax rfl
    _ ↔ Runs m.procedure? 1 ⟨[.call "rs_min"], [], [c, v], #[a, b, c]⟩ (entered s) e u :=
      runs_localGet_iff rfl
    _ ↔ Runs m.procedure? 1 ⟨[], [], [if decide (v ≤ c) then v else c], #[a, b, c]⟩
          (entered (entered s)) e u :=
      (h.yields_min (h.fit_entered s hs) v c).runs_call_iff hmin rfl
    _ ↔ e = .done [if decide (v ≤ c) then v else c] ∧ u = entered (entered s) :=
      runs_nil_iff rfl

end Provides

/-! ### The two libraries -/

theorem provides_core : Provides core [] (fun _ => True) id where
  funcs := by decide
  fit_entered _ hs := hs
  runs_enter_iff _ _ _ _ _ _ := Iff.rfl

/-- The name of the global that counts calls. -/
def counter : String := "rs_calls"

/-- The store after one more call has been counted. -/
def counted (s : Store String) : Store String :=
  s.setGlobal counter ((s.global? counter).getD 0 + 1)

theorem counted_eq {s : Store String} {n : Int32} (h : s.global? counter = some n) :
    counted s = s.setGlobal counter (n + 1) := by
  rw [counted, h, Option.getD_some]

theorem global?_counted {s : Store String} {n : Int32} (h : s.global? counter = some n) :
    (counted s).global? counter = some (n + 1) := by
  rw [counted_eq h, Store.global?_setGlobal, beq_self_eq_true, if_pos rfl, h, Option.map_some]

theorem yields_count {s : Store String} (h : (s.global? counter).isSome) :
    coreDebug.Yields "rs_count" [] s [] (counted s) := by
  obtain ⟨n, hn⟩ := Option.isSome_iff_exists.1 h
  refine Module.yields_of_runs_iff (p := count.procedure) rfl fun e u => ?_
  rw [counted_eq hn]
  exact (runs_globalGet_iff hn).trans ((runs_const_iff 1).trans ((runs_binary_iff rfl).trans
    ((runs_globalSet_iff h (n + 1)).trans (runs_nil_iff rfl))))

theorem provides_coreDebug :
    Provides coreDebug [.call "rs_count"] (fun s => (s.global? counter).isSome) counted where
  funcs := by decide
  fit_entered s hs := by
    obtain ⟨n, hn⟩ := Option.isSome_iff_exists.1 hs
    rw [global?_counted hn, Option.isSome_some]
  runs_enter_iff code locals s t e hs :=
    (yields_count hs).runs_call_iff (p := count.procedure) rfl rfl

/-- In both libraries, a call comes to the word of this integer.  The one leaves every store as it
was; the other adds the number of calls to its counter, where there is one, and changes nothing
else. -/
def Computes (name : String) (arguments : List Int32) (value : Int) (calls : Int32) : Prop :=
  ∃ v : Int32, v.toInt = value ∧
    (∀ s, core.Yields name arguments s [v] s) ∧
    ∀ s n, s.global? counter = some n →
      coreDebug.Yields name arguments s [v] (s.setGlobal counter (n + calls))

theorem computes_of_yields {name : String} {arguments : List Int32} {v : Int32}
    (h : ∀ {m enter fit entered} {s : Store String}, Provides m enter fit entered → fit s →
      m.Yields name arguments s [v] (entered s)) :
    Computes name arguments v.toInt 1 := by
  refine ⟨v, rfl, fun s => h provides_core trivial, fun s n hn => ?_⟩
  rw [← counted_eq hn]
  exact h provides_coreDebug (Option.isSome_iff_exists.2 ⟨n, hn⟩)

/-- Whatever its arguments and the store are, a call of a helper comes to an end, and to no other
than that with the minimum, the maximum, the clamped word or the absolute value.  The least word has
no absolute value and is left as it is. -/
theorem helpers_compute (a b c : Int32) :
    Computes "rs_min" [a, b] (min a.toInt b.toInt) 1 ∧
      Computes "rs_max" [a, b] (max a.toInt b.toInt) 1 ∧
      Computes "rs_clamp" [a, b, c] (min (max a.toInt b.toInt) c.toInt) 2 ∧
      Computes "rs_abs" [a] (if a = Int32.minValue then -2 ^ 31 else |a.toInt|) 1 := by
  refine ⟨?_, ?_, ?_, ?_⟩
  · rw [← toInt_minimum]
    exact computes_of_yields fun h hs => h.yields_min hs a b
  · rw [← toInt_maximum]
    exact computes_of_yields fun h hs => h.yields_max hs a b
  · rw [← toInt_maximum, ← toInt_minimum]
    refine ⟨_, rfl, fun s => provides_core.yields_clamp trivial a b c, fun s n hn => ?_⟩
    have htwice : s.setGlobal counter (n + 2) = counted (counted s) := by
      rw [counted_eq (global?_counted hn), counted_eq hn, Store.setGlobal_setGlobal]
      rw [Int32.add_assoc]
      rfl
    rw [htwice]
    exact provides_coreDebug.yields_clamp (Option.isSome_iff_exists.2 ⟨n, hn⟩) a b c
  · rw [← toInt_absolute]
    exact computes_of_yields fun h hs => h.yields_abs hs a

/-- The store of the counting library has its counter. -/
example (memory : Memory) (values : String → Int32) :
    (coreDebug.store memory values).global? counter = some (values counter) := rfl

end Library

end ComputeScript
