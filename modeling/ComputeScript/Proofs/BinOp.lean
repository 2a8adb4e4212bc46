import ComputeScript.BinOp
import Mathlib.Algebra.Order.Ring.Int
import Mathlib.Data.Int.Bitwise
import Mathlib.Data.Int.ModEq
import Mathlib.Tactic.SplitIfs

/-!
# Operators compute exact integers

`BinOp.exact` is the exact result of an operator on two integers, which need not fit into a word,
and `BinOp.Traps` says where there is none.  Every word is the value of one integer up to a multiple
of `2 ^ 32`, and an operator gives the word of its exact result (`eval_exact`).  The cases that need
an argument are those that are defined on bits: the bits of a word are the lowest ones of its
integer, and a shift is by the remainder modulo 32.
-/

namespace ComputeScript

namespace BinOp

/-- Whether an operator has no result on two integers, so that running code traps. -/
def Traps : BinOp → Int → Int → Prop
  | divS, l, r => r = 0 ∨ (l = -2 ^ 31 ∧ r = -1)
  | remS, _, r => r = 0
  | _, _, _ => False

/-- The integer of a truth value. -/
def truthInt (p : Prop) [Decidable p] : Int :=
  if p then 1 else 0

/-- How far a shift by an integer goes. -/
def distance (r : Int) : Nat :=
  (r % 32).toNat

/-- The exact result of an operator: integers are read as two's complement with infinitely many
bits, a division is truncated toward zero and its remainder has the sign of the dividend, and a
shift to the right rounds toward minus infinity. -/
def exact : BinOp → Int → Int → Int
  | add, l, r => l + r
  | sub, l, r => l - r
  | mul, l, r => l * r
  | divS, l, r => l.tdiv r
  | remS, l, r => l.tmod r
  | and, l, r => l.land r
  | or, l, r => l.lor r
  | xor, l, r => l.xor r
  | shl, l, r => l * 2 ^ distance r
  | shrS, l, r => l.fdiv (2 ^ distance r)
  | eq, l, r => truthInt (l = r)
  | ne, l, r => truthInt (l ≠ r)
  | ltS, l, r => truthInt (l < r)
  | leS, l, r => truthInt (l ≤ r)
  | gtS, l, r => truthInt (r < l)
  | geS, l, r => truthInt (r ≤ l)

/-! ### Words of integers -/

/-- An integer is congruent to exactly one word. -/
theorem toInt_modEq_iff {v : Int32} {n : Int} : v.toInt ≡ n [ZMOD 2 ^ 32] ↔ v = Int32.ofInt n := by
  have hemod (i : Int) : i.bmod Int32.size % 2 ^ 32 = i % 2 ^ 32 := Int.bmod_emod
  constructor
  · intro h
    have hbmod : v.toInt.bmod Int32.size = n.bmod Int32.size := by
      rw [← Int.emod_bmod v.toInt, ← Int.emod_bmod n]
      exact congrArg (Int.bmod · Int32.size) h
    rw [← Int32.toInt_inj, Int32.toInt_ofInt, ← hbmod]
    exact (Int32.toInt_bmod v).symm
  · rintro rfl
    rw [Int32.toInt_ofInt]
    exact hemod n

theorem existsUnique_toInt_modEq (n : Int) : ∃! v : Int32, v.toInt ≡ n [ZMOD 2 ^ 32] :=
  ⟨Int32.ofInt n, toInt_modEq_iff.2 rfl, fun _ h => toInt_modEq_iff.1 h⟩

/-! ### Bits -/

theorem getLsbD_ofInt (w : Nat) (i : Int) (k : Nat) :
    (BitVec.ofInt w i).getLsbD k = (decide (k < w) && i.testBit k) := by
  cases i with
  | ofNat n => exact BitVec.getLsbD_ofNat w n k
  | negSucc n =>
    rw [BitVec.ofInt_negSucc_eq_not_ofNat, BitVec.getLsbD_not, BitVec.getLsbD_ofNat]
    by_cases hk : k < w <;> simp [hk, Int.testBit]

/-- The bits of a word are the lowest bits of its integer. -/
theorem getLsbD_toBitVec (v : Int32) {k : Nat} (hk : k < 32) :
    v.toBitVec.getLsbD k = v.toInt.testBit k := by
  have hbits := getLsbD_ofInt 32 v.toInt k
  rw [← Int32.toBitVec_ofInt, Int32.ofInt_toInt] at hbits
  simpa only [hk, decide_true, Bool.true_and] using hbits

/-- Two words whose bits are those of an integer. -/
theorem eq_ofInt_of_bits {v : Int32} {n : Int}
    (h : ∀ k < 32, v.toBitVec.getLsbD k = n.testBit k) : v = Int32.ofInt n := by
  rw [← Int32.toBitVec_inj, Int32.toBitVec_ofInt]
  refine BitVec.eq_of_getLsbD_eq fun k hk => ?_
  rw [h k hk, getLsbD_ofInt]
  simp only [hk, decide_true, Bool.true_and]

theorem and_eq_ofInt (l r : Int32) : l &&& r = Int32.ofInt (l.toInt.land r.toInt) := by
  refine eq_ofInt_of_bits fun k hk => ?_
  rw [Int32.toBitVec_and, BitVec.getLsbD_and, Int.testBit_land, getLsbD_toBitVec l hk,
    getLsbD_toBitVec r hk]

theorem or_eq_ofInt (l r : Int32) : l ||| r = Int32.ofInt (l.toInt.lor r.toInt) := by
  refine eq_ofInt_of_bits fun k hk => ?_
  rw [Int32.toBitVec_or, BitVec.getLsbD_or, Int.testBit_lor, getLsbD_toBitVec l hk,
    getLsbD_toBitVec r hk]

theorem xor_eq_ofInt (l r : Int32) : l ^^^ r = Int32.ofInt (l.toInt.xor r.toInt) := by
  refine eq_ofInt_of_bits fun k hk => ?_
  rw [Int32.toBitVec_xor, BitVec.getLsbD_xor, Int.testBit_lxor, getLsbD_toBitVec l hk,
    getLsbD_toBitVec r hk]

/-! ### Shifts -/

/-- A word stands for a shift by its remainder modulo 32, also if it is negative. -/
theorem toNat_smod (r : Int32) : (r.toBitVec.smod 32).toNat = distance r.toInt := by
  have htoInt : (r.toBitVec.smod 32).toInt = r.toInt % 32 := by
    rw [BitVec.toInt_smod]
    exact Int.fmod_eq_emod_of_nonneg r.toInt (by decide)
  have hcast := BitVec.toInt_eq_toNat_bmod (r.toBitVec.smod 32)
  have hlt := (r.toBitVec.smod 32).isLt
  rw [htoInt, Int.bmod_def] at hcast
  unfold distance
  omega

theorem shiftLeft_eq_ofInt (l r : Int32) :
    l <<< r = Int32.ofInt (l.toInt * 2 ^ distance r.toInt) := by
  have hpower (k : Nat) : BitVec.ofInt 32 (2 ^ k) = BitVec.twoPow 32 k := by
    rw [BitVec.twoPow_eq, show (2 : Int) ^ k = ((2 ^ k : Nat) : Int) by simp, BitVec.ofInt_natCast]
    apply BitVec.eq_of_toNat_eq
    simp [Nat.shiftLeft_eq]
  rw [← Int32.toBitVec_inj, Int32.toBitVec_shiftLeft, Int32.toBitVec_ofInt, BitVec.ofInt_mul,
    hpower, ← BitVec.shiftLeft_eq_mul_twoPow, ← Int32.toBitVec_ofInt, Int32.ofInt_toInt,
    BitVec.shiftLeft_eq', toNat_smod]

theorem toInt_shiftRight (l r : Int32) :
    (l >>> r).toInt = l.toInt.fdiv (2 ^ distance r.toInt) := by
  have hpower : (0 : Int) ≤ 2 ^ distance r.toInt := Int.pow_nonneg (by decide)
  rw [← Int32.toInt_toBitVec, Int32.toBitVec_shiftRight, BitVec.sshiftRight_eq',
    BitVec.toInt_sshiftRight, toNat_smod, Int.shiftRight_eq_div_pow,
    Int.fdiv_eq_ediv_of_nonneg _ hpower, Int.natCast_pow]
  rfl

/-! ### Operators -/

theorem traps_divS_iff (l r : Int32) :
    divS.Traps l.toInt r.toInt ↔ r = 0 ∨ (l = Int32.minValue ∧ r = -1) := by
  simp only [Traps, ← Int32.toInt_inj, Int32.toInt_minValue]
  rfl

theorem traps_remS_iff (l r : Int32) : remS.Traps l.toInt r.toInt ↔ r = 0 := by
  simp only [Traps, ← Int32.toInt_inj]
  rfl

theorem eval_eq_none_iff {op : BinOp} {l r : Int32} :
    op.eval l r = none ↔ op.Traps l.toInt r.toInt := by
  cases op with
  | divS =>
    rw [traps_divS_iff, eval]
    split_ifs with h <;> simp [h]
  | remS =>
    rw [traps_remS_iff, eval]
    split_ifs with h <;> simp [h]
  | _ => simp [eval, Traps]

theorem truth_eq_ofInt {b : Bool} {p : Prop} [Decidable p] (h : b = true ↔ p) :
    truth b = Int32.ofInt (truthInt p) := by
  by_cases hp : p
  · rw [h.2 hp, truthInt, if_pos hp]
    rfl
  · rw [Bool.eq_false_iff.2 (mt h.1 hp), truthInt, if_neg hp]
    rfl

/-- Where an operator does not trap, it gives the word of its exact result. -/
theorem eval_of_not_traps {op : BinOp} {l r : Int32} (h : ¬ op.Traps l.toInt r.toInt) :
    op.eval l r = some (Int32.ofInt (op.exact l.toInt r.toInt)) := by
  have hl := Int32.ofInt_toInt l
  have hr := Int32.ofInt_toInt r
  cases op with
  | add => rw [exact, Int32.ofInt_add, hl, hr, eval]
  | sub => rw [exact, Int32.ofInt_sub, hl, hr, eval]
  | mul => rw [exact, Int32.ofInt_mul, hl, hr, eval]
  | divS =>
    rw [traps_divS_iff] at h
    rw [eval, if_neg h, exact, Int32.ofInt_tdiv l.minValue_le_toInt l.toInt_le
      r.minValue_le_toInt r.toInt_le, hl, hr]
  | remS =>
    rw [traps_remS_iff] at h
    rw [eval, if_neg h, exact, ← Int32.toInt_mod, Int32.ofInt_toInt]
  | and => rw [eval, exact, and_eq_ofInt]
  | or => rw [eval, exact, or_eq_ofInt]
  | xor => rw [eval, exact, xor_eq_ofInt]
  | shl => rw [eval, exact, shiftLeft_eq_ofInt]
  | shrS => rw [eval, exact, ← toInt_shiftRight, Int32.ofInt_toInt]
  | eq => rw [eval, exact, truth_eq_ofInt (beq_iff_eq.trans Int32.toInt_inj.symm)]
  | ne => rw [eval, exact, truth_eq_ofInt (bne_iff_ne.trans (not_congr Int32.toInt_inj.symm))]
  | ltS => rw [eval, exact, truth_eq_ofInt (decide_eq_true_iff.trans Int32.lt_iff_toInt_lt)]
  | leS => rw [eval, exact, truth_eq_ofInt (decide_eq_true_iff.trans Int32.le_iff_toInt_le)]
  | gtS => rw [eval, exact, truth_eq_ofInt (decide_eq_true_iff.trans Int32.lt_iff_toInt_lt)]
  | geS => rw [eval, exact, truth_eq_ofInt (decide_eq_true_iff.trans Int32.le_iff_toInt_le)]

theorem eval_eq_some_iff {op : BinOp} {l r v : Int32} :
    op.eval l r = some v ↔
      ¬ op.Traps l.toInt r.toInt ∧ v.toInt ≡ op.exact l.toInt r.toInt [ZMOD 2 ^ 32] := by
  by_cases htraps : op.Traps l.toInt r.toInt
  · simp [eval_eq_none_iff.2 htraps, htraps]
  · rw [eval_of_not_traps htraps, toInt_modEq_iff, Option.some.injEq]
    simp [htraps, eq_comm]

/-! ### Laws of exact results -/

theorem eval_divS_eq_some_iff {l r q : Int32} :
    divS.eval l r = some q ↔ ¬ divS.Traps l.toInt r.toInt ∧ q.toInt = l.toInt.tdiv r.toInt := by
  rw [traps_divS_iff, eval]
  split_ifs with htraps
  · simp [htraps]
  · have hquotient : (l / r).toInt = l.toInt.tdiv r.toInt := by
      obtain hl | hr := not_and_or.1 (not_or.1 htraps).2
      · exact Int32.toInt_div_of_ne_left l r hl
      · exact Int32.toInt_div_of_ne_right l r hr
    rw [← hquotient, Int32.toInt_inj, Option.some.injEq, eq_comm, and_iff_right htraps]

theorem eval_remS_eq_some_iff {l r m : Int32} :
    remS.eval l r = some m ↔ r ≠ 0 ∧ m.toInt = l.toInt.tmod r.toInt := by
  rw [eval]
  split_ifs with hzero
  · simp [hzero]
  · rw [← Int32.toInt_mod, Int32.toInt_inj, Option.some.injEq, eq_comm, and_iff_right hzero]

/-- A remainder is smaller than the divisor, and has the sign of the dividend unless it is zero. -/
theorem remainder_of_eval {l r m : Int32} (h : remS.eval l r = some m) :
    m.toInt.natAbs < r.toInt.natAbs ∧ 0 ≤ l.toInt * m.toInt := by
  obtain ⟨hzero, hm⟩ := eval_remS_eq_some_iff.1 h
  have hpos : 0 < r.toInt.natAbs :=
    Int.natAbs_pos.2 fun hr => hzero (Int32.toInt_inj.1 hr)
  rw [hm]
  refine ⟨?_, ?_⟩
  · rw [Int.natAbs_tmod]
    exact Nat.mod_lt _ hpos
  · apply Int.sign_nonneg_iff.1
    rw [Int.sign_mul, Int.sign_tmod]
    split_ifs
    · simp
    · exact mul_self_nonneg _

/-- A shift to the right rounds down. -/
theorem rounded_of_eval {l r v : Int32} (h : shrS.eval l r = some v) :
    v.toInt * 2 ^ distance r.toInt ≤ l.toInt ∧
      l.toInt < (v.toInt + 1) * 2 ^ distance r.toInt := by
  have hpos : (0 : Int) < 2 ^ distance r.toInt := Int.pow_pos (by decide)
  have hv : v.toInt = l.toInt / 2 ^ distance r.toInt := by
    rw [eval, Option.some.injEq] at h
    rw [← h, toInt_shiftRight, Int.fdiv_eq_ediv_of_nonneg _ hpos.le]
  rw [hv]
  exact ⟨Int.ediv_mul_le _ hpos.ne', Int.lt_ediv_add_one_mul_self _ hpos⟩

theorem distance_spec (r : Int) : distance r < 32 ∧ (distance r : Int) ≡ r [ZMOD 32] := by
  unfold distance Int.ModEq
  omega

/-- An operator has no value exactly where running code traps.  Elsewhere its value is the one word
that is congruent to the exact result.  A dividend is put together from its quotient and its
remainder, which exists also where the quotient is too large; a shift goes as far as its amount
modulo 32, and to the right it rounds down. -/
theorem eval_exact (op : BinOp) (l r : Int32) :
    (op.eval l r = none ↔ op.Traps l.toInt r.toInt) ∧
      (∃! v : Int32, v.toInt ≡ op.exact l.toInt r.toInt [ZMOD 2 ^ 32]) ∧
      (∀ v, op.eval l r = some v ↔
        ¬ op.Traps l.toInt r.toInt ∧ v.toInt ≡ op.exact l.toInt r.toInt [ZMOD 2 ^ 32]) ∧
      (∀ q m, divS.eval l r = some q → remS.eval l r = some m →
        r.toInt * q.toInt + m.toInt = l.toInt) ∧
      (∀ m, remS.eval l r = some m →
        m.toInt.natAbs < r.toInt.natAbs ∧ 0 ≤ l.toInt * m.toInt) ∧
      remS.eval Int32.minValue (-1) = some 0 ∧
      (distance r.toInt < 32 ∧ (distance r.toInt : Int) ≡ r.toInt [ZMOD 32]) ∧
      ∀ v, shrS.eval l r = some v →
        v.toInt * 2 ^ distance r.toInt ≤ l.toInt ∧
          l.toInt < (v.toInt + 1) * 2 ^ distance r.toInt := by
  refine ⟨eval_eq_none_iff, existsUnique_toInt_modEq _, fun v => eval_eq_some_iff, ?_,
    fun m => remainder_of_eval, by decide, distance_spec r.toInt, fun v => rounded_of_eval⟩
  intro q m hq hm
  rw [(eval_divS_eq_some_iff.1 hq).2, (eval_remS_eq_some_iff.1 hm).2, Int.mul_tdiv_add_tmod]

/-- A shift by a negative amount, and the two divisions at the end of the range. -/
example :
    shl.eval 1 (-1) = some Int32.minValue ∧ shrS.eval (-5) 33 = some (-3) ∧
      divS.eval Int32.minValue (-1) = none ∧ divS.eval (-7) 2 = some (-3) ∧
      remS.eval (-7) 2 = some (-1) := by
  decide

end BinOp

end ComputeScript
