import ComputeScript.Word

/-!
# Words are the words of their numbers

The number of a word lies in the range in which it is accepted, and stands for that word.  The
numbers that are accepted are all that stand for some word.
-/

namespace ComputeScript

namespace Word

/-- The numbers that a word may be written as: its own, and for a negative word also the one that
is `0x100000000` above it. -/
def StandsFor (n : Int) (v : Int32) : Prop :=
  -0x80000000 ≤ n ∧ n < 0x100000000 ∧
    v.toInt = if n < 0x80000000 then n else n - 0x100000000

theorem standsFor_toInt (v : Int32) : StandsFor v.toInt v := by
  have hle := v.le_toInt
  have hlt := v.toInt_lt
  exact ⟨hle, by omega, (if_pos hlt).symm⟩

theorem index?_eq_some_iff {n : Int} {i : UInt32} : index? n = some i ↔ n = i.toNat := by
  unfold index?
  split
  · have hsize : n.toNat < UInt32.size := by
      have : UInt32.size = 2 ^ 32 := rfl
      omega
    rw [Option.some.injEq, ← UInt32.toNat_inj, UInt32.toNat_ofNat_of_lt' hsize]
    omega
  · have hlt := i.toNat_lt
    simp only [reduceCtorEq, false_iff]
    omega

theorem index?_toNat (n : UInt32) : index? n.toNat = some n :=
  index?_eq_some_iff.2 rfl

theorem ofSigned?_toInt (v : Int32) : ofSigned? v.toInt = some v := by
  have hrange : -0x80000000 ≤ v.toInt ∧ v.toInt < 0x80000000 := by
    have hle := v.le_toInt
    have hlt := v.toInt_lt
    omega
  rw [ofSigned?, if_pos hrange, Int32.ofInt_toInt]

theorem ofNumber?_eq_some_iff {n : Int} {v : Int32} : ofNumber? n = some v ↔ StandsFor n v := by
  unfold ofNumber?
  split
  case isTrue hn =>
    have hbmod : n.bmod Int32.size = if n < 0x80000000 then n else n - 0x100000000 := by
      rw [show Int32.size = 2 ^ 32 from rfl, Int.bmod_def]
      omega
    rw [Option.some.injEq, ← Int32.toInt_inj, Int32.toInt_ofInt, hbmod, eq_comm]
    exact ⟨fun h => ⟨hn.1, hn.2, h⟩, fun h => h.2.2⟩
  case isFalse hn =>
    simp only [reduceCtorEq, false_iff]
    exact fun h => hn ⟨h.1, h.2.1⟩

end Word

end ComputeScript
