import ComputeScript.Proofs.Expand
import ComputeScript.Proofs.Launch.Loop
import ComputeScript.Proofs.Nesting

/-!
# A wrapper is the loop that it stands for

The body of a wrapper is run piece by piece: what is pushed before the kernel is called, the call,
what is done with its result, and the steps to the next element.  `runs_round_iff` puts these
together to one round, and `runs_loop_iff` follows all rounds, with the elements of the current
index as the invariant.  `Module.wrapper_ends_iff` is the result: in an expanded module, the call of
a wrapper ends exactly as the launch of its kernel does in the module before.
-/

namespace ComputeScript

theorem behind_append_of_plain {σ : Type} {code : List (Inst σ)}
    (h : code.all Inst.isPlain = true) (n : Nat) (rest : List (Inst σ)) :
    behind n (code ++ rest) = behind n rest := by
  induction code with
  | nil => rfl
  | cons inst code ih =>
    obtain ⟨hinst, hcode⟩ := Bool.and_eq_true_iff.1 h
    cases inst with
    | block | loop | close => cases hinst
    | _ =>
      rw [List.cons_append, behind.eq_def]
      exact ih hcode

namespace Kernel

/-! ### The pieces of a wrapper -/

/-- What is done for one index. -/
def roundBody (fixed : Bool) (k : Kernel) : List (Inst String) :=
  (if k.signature.returnsOut then [Inst.localGet outPtr] else []) ++
    ((if k.signature.takesIn then [Inst.localGet inPtr, .load 0] else []) ++
      ((if k.signature.takesIndex then [Inst.localGet first] else []) ++
        Inst.call k.name ::
          ((if k.signature.returnsOut then [Inst.store 0] else []) ++
            ((if k.signature.takesIn then advance inPtr (step fixed inStep) else []) ++
              ((if k.signature.returnsOut then advance outPtr (step fixed outStep) else []) ++
                advance first (Inst.const 1))))))

/-- The loop of a wrapper, from its start. -/
def loopBody (fixed : Bool) (k : Kernel) : List (Inst String) :=
  .localGet first :: .localGet stop :: .binary .geS :: .brIf 1 ::
    (k.roundBody fixed ++ [.br 0, .close, .close])

theorem wrapperBody_eq (fixed : Bool) (k : Kernel) :
    k.wrapperBody fixed = .block :: .loop :: k.loopBody fixed := by
  simp only [wrapperBody, loopBody, roundBody, List.append_assoc, List.cons_append,
    List.nil_append]

theorem isPlain_roundBody (fixed : Bool) (k : Kernel) :
    (k.roundBody fixed).all Inst.isPlain = true := by
  obtain ⟨name, takesIn, returnsOut, takesIndex⟩ := k
  cases fixed <;> cases takesIn <;> cases returnsOut <;> cases takesIndex <;> rfl

/-- The blocks around the loop of a wrapper. -/
def loopLabels (fixed : Bool) (k : Kernel) : List (Label String) :=
  [⟨some (k.loopBody fixed), []⟩, ⟨none, []⟩]

/-- A wrapper at the start of its loop. -/
def loopFrame (fixed : Bool) (k : Kernel) (locals : Array Int32) : Frame String :=
  ⟨k.loopBody fixed, k.loopLabels fixed, [], locals⟩

/-! ### Running the pieces -/

section

variable {procs : String → Option (Procedure String)} {results : Nat} {code : List (Inst String)}
  {labels : List (Label String)} {stack : List Int32} {locals : Array Int32}
  {s t : Store String} {e : Ending}

theorem runs_push_iff (b : Bool) {index : UInt32} {v : Int32}
    (h : locals[index.toNat]? = some v) :
    Runs procs results ⟨(if b then [.localGet index] else []) ++ code, labels, stack, locals⟩
        s e t ↔
      Runs procs results ⟨code, labels, (if b then [v] else []) ++ stack, locals⟩ s e t := by
  cases b with
  | false => exact Iff.rfl
  | true => exact runs_localGet_iff h

theorem runs_pushElement_iff (b : Bool) {base : Int32} (h : locals[inPtr.toNat]? = some base) :
    Runs procs results
        ⟨(if b then [.localGet inPtr, .load 0] else []) ++ code, labels, stack, locals⟩ s e t ↔
      if b && !s.memory.holds (address base 0) then e = .trap ∧ t = s
      else Runs procs results
        ⟨code, labels, (if b then [s.memory.read (address base 0)] else []) ++ stack, locals⟩
        s e t := by
  cases b with
  | false => exact Iff.rfl
  | true =>
    refine (runs_localGet_iff h).trans ((runs_load_iff base 0).trans ?_)
    cases s.memory.holds (address base 0) <;> rfl

theorem runs_advance_iff {index : UInt32} {inst : Inst String} {v w : Int32}
    (hv : locals[index.toNat]? = some v)
    (hinst : ∀ code stack, Runs procs results ⟨inst :: code, labels, stack, locals⟩ s e t ↔
      Runs procs results ⟨code, labels, w :: stack, locals⟩ s e t) :
    Runs procs results ⟨advance index inst ++ code, labels, stack, locals⟩ s e t ↔
      Runs procs results ⟨code, labels, stack, locals.setIfInBounds index.toNat (v + w)⟩ s e t := by
  obtain ⟨hsize, -⟩ := Array.getElem?_eq_some_iff.1 hv
  have hadd : BinOp.eval .add v w = some (v + w) := rfl
  exact (runs_localGet_iff hv).trans ((hinst _ _).trans
    ((runs_binary_iff hadd).trans (runs_localSet_iff hsize _)))

theorem runs_move_iff (b fixed : Bool) {index param : UInt32} {v w : Int32}
    (hv : locals[index.toNat]? = some v) (hw : locals[param.toNat]? = some w) :
    Runs procs results
        ⟨(if b then advance index (step fixed param) else []) ++ code, labels, stack, locals⟩
        s e t ↔
      Runs procs results ⟨code, labels, stack,
        if b then locals.setIfInBounds index.toNat (v + if fixed then elementSize else w)
        else locals⟩ s e t := by
  cases b with
  | false => exact Iff.rfl
  | true =>
    refine runs_advance_iff hv fun code stack => ?_
    cases fixed with
    | true => exact runs_const_iff _
    | false => exact runs_localGet_iff hw

/-- What goes on as `P` says where `r` has ended normally, and ends as `r` does otherwise. -/
def Proceeds (r : Ending × Store String) (P : Store String → Prop) (e : Ending)
    (t : Store String) : Prop :=
  match r with
  | (.done _, s) => P s
  | (e', s) => e = e' ∧ t = s

/-- After the call of a kernel, its values are put into the element that was saved. -/
theorem runs_put_iff (k : Kernel) {values : List Int32}
    (hvalues : values.length = k.signature.results.toNat) (target : Int32) :
    Runs procs results ⟨(if k.signature.returnsOut then [.store 0] else []) ++ code, labels,
        values ++ ((if k.signature.returnsOut then [target] else []) ++ stack), locals⟩ s e t ↔
      Proceeds (k.put target (.done values, s))
        (Runs procs results ⟨code, labels, stack, locals⟩ · e t) e t := by
  unfold Signature.results at hvalues
  cases hout : k.signature.returnsOut with
  | false =>
    rw [hout] at hvalues
    obtain rfl : values = [] := List.length_eq_zero_iff.1 hvalues
    have hput : k.put target (.done [], s) = (.done [], s) := by simp only [put, hout]
    rw [hput]
    exact Iff.rfl
  | true =>
    rw [hout] at hvalues
    obtain ⟨v, rfl⟩ : ∃ v, values = [v] := List.length_eq_one_iff.1 hvalues
    have hput : k.put target (.done [v], s) =
        if s.memory.holds (address target 0) then (.done [], s.write (address target 0) v)
        else (.trap, s) := by
      simp only [put, hout]
    rw [hput]
    refine (runs_store_iff v target 0).trans ?_
    split_ifs <;> exact Iff.rfl

/-- With the result of a kernel put away, a round is the call of the kernel and what follows. -/
theorem proceeds_put_iff {k : Kernel} {target : Int32} {ends : Ending → Store String → Prop}
    {P : Store String → Prop} :
    (∃ values s₁, ends (.done values) s₁ ∧ Proceeds (k.put target (.done values, s₁)) P e t) ∨
        (ends e t ∧ ∀ values, e ≠ .done values) ↔
      (∃ values s₁, (∃ e' t', ends e' t' ∧ k.put target (e', t') = (.done values, s₁)) ∧ P s₁) ∨
        ((∃ e' t', ends e' t' ∧ k.put target (e', t') = (e, t)) ∧
          ∀ values, e ≠ .done values) := by
  have hfail (e : Ending) (s : Store String) (he : ∀ values, e ≠ .done values) :
      k.put target (e, s) = (e, s) := by
    cases e with
    | done values => exact absurd rfl (he values)
    | _ => rfl
  constructor
  · rintro (⟨values, s₁, hends, hp⟩ | ⟨hends, hne⟩)
    · rcases hput : k.put target (.done values, s₁) with ⟨e', s₂⟩
      rw [hput] at hp
      cases e' with
      | done values' => exact .inl ⟨values', s₂, ⟨_, _, hends, hput⟩, hp⟩
      | _ =>
        obtain ⟨rfl, rfl⟩ := hp
        exact .inr ⟨⟨_, _, hends, hput⟩, nofun⟩
    · exact .inr ⟨⟨e, t, hends, hfail e t hne⟩, hne⟩
  · rintro (⟨values, s₁, ⟨e', t', hends, hput⟩, hp⟩ | ⟨⟨e', t', hends, hput⟩, hne⟩)
    · cases e' with
      | done values' => exact .inl ⟨values', t', hends, by rw [hput]; exact hp⟩
      | _ => cases (Prod.mk.inj hput).1
    · cases e' with
      | done values' =>
        refine .inl ⟨values', t', hends, ?_⟩
        rw [hput]
        cases e with
        | done values => exact absurd rfl (hne values)
        | _ => exact ⟨rfl, rfl⟩
      | _ =>
        obtain ⟨rfl, rfl⟩ := Prod.mk.inj hput
        exact .inr ⟨hends, hne⟩

end

/-! ### Rounds -/

section

variable {m : Module} {p : Procedure String} {fixed : Bool} {k : Kernel}
  {source target x last inStride outStride : Int32} {s t : Store String} {e : Ending}

/-- The locals of a wrapper in front of an index. -/
def loopLocals (source target x last inStride outStride : Int32) : Array Int32 :=
  #[source, target, x, last, inStride, outStride]

/-- The distance between two elements. -/
def stride (fixed : Bool) (param : Int32) : Int32 :=
  if fixed then elementSize else param

/-- Where the next element is, if elements are used at all. -/
def nextElement (used fixed : Bool) (base param : Int32) : Int32 :=
  if used then base + stride fixed param else base

/-- Behind the kernel, a wrapper moves its elements and its index on and starts its loop again. -/
theorem runs_moves_iff {procs : String → Option (Procedure String)} :
    Runs procs 0
        ⟨(if k.signature.takesIn then advance inPtr (step fixed inStep) else []) ++
          ((if k.signature.returnsOut then advance outPtr (step fixed outStep) else []) ++
            (advance first (.const 1) ++ [.br 0, .close, .close])),
          k.loopLabels fixed, [], loopLocals source target x last inStride outStride⟩ s e t ↔
      Runs procs 0 (k.loopFrame fixed (loopLocals
        (nextElement k.signature.takesIn fixed source inStride)
        (nextElement k.signature.returnsOut fixed target outStride)
        (x + 1) last inStride outStride)) s e t := by
  have hin (b : Bool) : (if b then
      (loopLocals source target x last inStride outStride).setIfInBounds inPtr.toNat
        (source + stride fixed inStride)
      else loopLocals source target x last inStride outStride) =
        loopLocals (nextElement b fixed source inStride) target x last inStride outStride := by
    cases b <;> rfl
  have hout (b : Bool) (source : Int32) : (if b then
      (loopLocals source target x last inStride outStride).setIfInBounds outPtr.toNat
        (target + stride fixed outStride)
      else loopLocals source target x last inStride outStride) =
        loopLocals source (nextElement b fixed target outStride) x last inStride outStride := by
    cases b <;> rfl
  refine (runs_move_iff _ fixed (v := source) (w := inStride) rfl rfl).trans ?_
  rw [← stride, hin]
  refine (runs_move_iff _ fixed (v := target) (w := outStride) rfl rfl).trans ?_
  rw [← stride, hout]
  refine (runs_advance_iff (v := x) (w := 1) rfl fun _ _ => runs_const_iff 1).trans ?_
  exact runs_iff_of_next rfl

/-- From the first instruction of a round, a wrapper makes the round and goes on with the next
index, or ends as the round does. -/
theorem runs_round_iff (hp : m.procedure? k.name = some p)
    (hparams : p.params = k.signature.params) (hresults : p.results = k.signature.results) :
    Runs m.procedure? 0
        ⟨k.roundBody fixed ++ [.br 0, .close, .close], k.loopLabels fixed, [],
          loopLocals source target x last inStride outStride⟩ s e t ↔
      (∃ values s₁, k.RoundEnds m source target x s (.done values) s₁ ∧
        Runs m.procedure? 0 (k.loopFrame fixed (loopLocals
          (nextElement k.signature.takesIn fixed source inStride)
          (nextElement k.signature.returnsOut fixed target outStride)
          (x + 1) last inStride outStride)) s₁ e t) ∨
      (k.RoundEnds m source target x s e t ∧ ∀ values, e ≠ .done values) := by
  let locals := loopLocals source target x last inStride outStride
  let word := s.memory.read (address source 0)
  have hin : locals[inPtr.toNat]? = some source := rfl
  have hout : locals[outPtr.toNat]? = some target := rfl
  have hfirst : locals[first.toNat]? = some x := rfl
  have hlength : (k.arguments word x).length = p.params.toNat := by
    rw [hparams]
    unfold arguments Signature.params
    cases k.signature.takesIn <;> cases k.signature.takesIndex <;> rfl
  have hstack (stack : List Int32) :
      (if k.signature.takesIndex then [x] else []) ++
        ((if k.signature.takesIn then [word] else []) ++ stack) =
          (k.arguments word x).reverse ++ stack := by
    unfold arguments
    cases k.signature.takesIn <;> cases k.signature.takesIndex <;> rfl
  simp only [roundBody, List.append_assoc, List.cons_append, roundEnds_iff]
  rw [runs_push_iff k.signature.returnsOut hout, runs_pushElement_iff k.signature.takesIn hin]
  by_cases hread : (k.signature.takesIn && !s.memory.holds (address source 0)) = true
  · simp only [if_pos hread]
    constructor
    · rintro ⟨rfl, rfl⟩
      exact .inr ⟨⟨rfl, rfl⟩, nofun⟩
    · rintro (⟨values, s₁, ⟨h, -⟩, -⟩ | ⟨h, -⟩)
      · cases h
      · exact h
  · simp only [if_neg hread]
    rw [runs_push_iff k.signature.takesIndex hfirst, hstack, Module.runs_call_iff hp hlength,
      ← proceeds_put_iff]
    refine or_congr (exists₂_congr fun values s₁ => and_congr_right fun hends => ?_) Iff.rfl
    have hvalues : values.length = k.signature.results.toNat := by
      rw [hends.length_eq hp, hresults]
    rw [runs_put_iff k hvalues]
    unfold Proceeds
    split
    · exact runs_moves_iff
    · exact Iff.rfl

/-- At the start of its loop, a wrapper ends if the index has reached the end of the range. -/
theorem runs_loopFrame_iff {procs : String → Option (Procedure String)} :
    Runs procs 0 (k.loopFrame fixed (loopLocals source target x last inStride outStride)) s e t ↔
      if x < last then
        Runs procs 0
          ⟨k.roundBody fixed ++ [.br 0, .close, .close], k.loopLabels fixed, [],
            loopLocals source target x last inStride outStride⟩ s e t
      else e = .done [] ∧ t = s := by
  let locals := loopLocals source target x last inStride outStride
  have hbehind : behind 1 (k.roundBody fixed ++ [.br 0, .close, .close]) = some [] := by
    rw [behind_append_of_plain (isPlain_roundBody fixed k)]
    rfl
  have hbranch : Frame.branch 0 (1 : UInt32).toNat
      ⟨k.roundBody fixed ++ [.br 0, .close, .close], k.loopLabels fixed, [], locals⟩ =
        .next ⟨[], [], [], locals⟩ := by
    simp only [Frame.branch, loopLabels, UInt32.toNat_one, List.drop_succ_cons, List.drop_zero,
      hbehind]
  have hguard : BinOp.eval .geS x last = some (BinOp.truth (decide (last ≤ x))) := rfl
  refine (runs_localGet_iff (v := x) rfl).trans ((runs_localGet_iff (v := last) rfl).trans
    ((runs_binary_iff hguard).trans ((runs_brIf_iff _ 1 hbranch).trans ?_)))
  by_cases hlt : x < last
  · rw [if_pos hlt, if_neg (by simpa using hlt)]
  · rw [if_neg hlt, if_pos (by simpa using hlt)]
    exact runs_iff_of_stop rfl rfl

/-- A round depends on its elements only as far as the kernel uses them. -/
theorem roundEnds_congr {source' target' : Int32}
    (hsource : k.signature.takesIn = true → source = source')
    (htarget : k.signature.returnsOut = true → target = target') :
    k.RoundEnds m source target x s e t ↔ k.RoundEnds m source' target' x s e t := by
  have hput (r : Ending × Store String) : k.put target r = k.put target' r := by
    cases hout : k.signature.returnsOut with
    | true => rw [htarget hout]
    | false =>
      obtain ⟨e, s⟩ := r
      cases e with
      | done values => simp only [put, hout]
      | _ => rfl
  have hround (fuel calls : Nat) :
      k.round m fuel calls source target x s = k.round m fuel calls source' target' x s := by
    cases hin : k.signature.takesIn with
    | true => simp only [round, hsource hin, hput]
    | false => simp only [round, arguments, hin, hput, Bool.false_and, Bool.false_eq_true, if_false]
  simp only [RoundEnds, hround]

theorem element_add_one (base step first x : Int32) :
    element base step first (x + 1) = element base step first x + step := by
  unfold element
  grind

variable (fixed) in
/-- From the start of its loop, a wrapper makes all rounds that are left. -/
theorem runs_loop_iff (hp : m.procedure? k.name = some p)
    (hparams : p.params = k.signature.params) (hresults : p.results = k.signature.results)
    {inPtr outPtr first : Int32}
    (hsource : k.signature.takesIn = true →
      source = element inPtr (stride fixed inStride) first x)
    (htarget : k.signature.returnsOut = true →
      target = element outPtr (stride fixed outStride) first x) :
    Runs m.procedure? 0 (k.loopFrame fixed (loopLocals source target x last inStride outStride))
        s e t ↔
      k.RoundsEnd m (element inPtr (stride fixed inStride) first)
        (element outPtr (stride fixed outStride) first) (indices x last) s e t := by
  fun_induction indices x last generalizing source target s with
  | case1 x hlt ih =>
    rw [runs_loopFrame_iff, if_pos hlt, runs_round_iff hp hparams hresults, roundsEnd_cons hp]
    refine or_congr (exists₂_congr fun values s₁ => and_congr ?_ ?_) (and_congr_left' ?_)
    · exact roundEnds_congr hsource htarget
    · refine ih (fun hin => ?_) (fun hout => ?_)
      · rw [element_add_one, ← hsource hin, hin]
        rfl
      · rw [element_add_one, ← htarget hout, hout]
        rfl
    · exact roundEnds_congr hsource htarget
  | case2 x hlt => rw [runs_loopFrame_iff, if_neg hlt, roundsEnd_nil]

end

end Kernel

/-! ### Expanded modules -/

namespace Module

theorem exists_func?_of_fault? {m : Module} {k : Kernel} (h : k.fault? m = none) :
    ∃ f, m.func? k.name = some f ∧ f.params = k.signature.params ∧
      f.results = k.signature.results :=
  Kernel.fault?_eq_none_iff.1 h

/-- In a module that was expanded, a wrapper is the loop that it stands for: from every store, its
call ends as the launch of its kernel in the module before does, and diverges where that does.
There is one round for every index of the range, in order. -/
theorem wrapper_ends_iff {m m' : Module} {fixed : Bool} {kernels : List Kernel}
    (hm : m.verify = .ok ()) (hdistinct : (kernels.map Kernel.name).Nodup)
    (hexpand : m.expand fixed kernels = .ok m') {k : Kernel} (hk : k ∈ m.unexpanded kernels)
    (inPtr outPtr first stop inStep outStep : Int32) :
    (∀ s e t, m'.Ends k.wrapperName [inPtr, outPtr, first, stop, inStep, outStep] s e t ↔
      k.LaunchEnds m inPtr outPtr first stop (if fixed then 4 else inStep)
        (if fixed then 4 else outStep) s e t) ∧
      (Kernel.indices first stop).length = (stop.toInt - first.toInt).toNat ∧
      ∀ i (h : i < (Kernel.indices first stop).length),
        (Kernel.indices first stop)[i] = first + Int32.ofNat i := by
  refine ⟨fun s e t => ?_, Kernel.length_indices first stop, Kernel.getElem_indices first stop⟩
  obtain ⟨f, hf, hparams, hresults⟩ := exists_func?_of_fault? ((expand_eq_ok_iff.1 hexpand).1 k hk)
  have hdefines : m.defines k.name := by simp [defines, hf]
  have hp : m.procedure? k.name = some f.procedure := by rw [procedure?, hf, Option.map_some]
  have hp' : m'.procedure? k.name = some f.procedure := by
    rw [procedure?, func?_of_expand hexpand hdefines, hf, Option.map_some]
  have hwrapper : m'.procedure? k.wrapperName = some (k.wrapper fixed).procedure := by
    rw [procedure?, func?_wrapperName hexpand hdistinct hk, Option.map_some]
  have hsource (base step : Int32) : base = Kernel.element base step first first := by
    unfold Kernel.element
    grind
  have hcode : (k.wrapper fixed).procedure.enter
      [inPtr, outPtr, first, stop, inStep, outStep].reverse =
        ⟨.block :: .loop :: k.loopBody fixed, [], [],
          Kernel.loopLocals inPtr outPtr first stop inStep outStep⟩ := by
    rw [← Kernel.wrapperBody_eq]
    rfl
  rw [ends_iff_runs hwrapper, hcode, runs_iff_of_next rfl, runs_iff_of_next rfl]
  refine (Kernel.runs_loop_iff fixed hp' hparams hresults
    (fun _ => hsource inPtr _) (fun _ => hsource outPtr _)).trans ?_
  exact Kernel.roundsEnd_congr hp hp' (ends_iff_of_expand hexpand hm hdefines)

/-- A kernel that stores ten times its input element plus its index. -/
def scaleKernel : Kernel := ⟨"scale", ⟨true, true, true⟩⟩

/-- The module of that kernel. -/
def scaleModule : Module where
  id := "scale"
  funcs :=
    [{ name := "scale", params := 2, results := 1,
       body := [.localGet 0, .const 10, .binary .mul, .localGet 1, .binary .add] }]

theorem wrapper_ends_iff_scale :
    ∃ m', scaleModule.expand true [scaleKernel] = .ok m' ∧
      ∀ s e t, m'.Ends "scale.expand" [16, 32, -1, 2, 0, 0] s e t ↔
        scaleKernel.LaunchEnds scaleModule 16 32 (-1) 2 4 4 s e t := by
  have hverify : scaleModule.verify = .ok () := by decide
  have hdistinct : ([scaleKernel].map Kernel.name).Nodup := by decide
  have hk : scaleKernel ∈ scaleModule.unexpanded [scaleKernel] := by decide
  exact ⟨_, rfl, (wrapper_ends_iff hverify hdistinct rfl hk 16 32 (-1) 2 0 0).1⟩

end Module

end ComputeScript
