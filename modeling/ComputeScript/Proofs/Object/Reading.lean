import ComputeScript.Object.Decode
import ComputeScript.Proofs.Word

/-!
# Reading what was written

A decoder reads `x` from `bytes` if it takes exactly these bytes off the front of whatever follows
and answers `x` (`Reads`).  This composes along `bind`, so every decoder is shown to read what the
encoder of the same thing writes, from numbers in LEB128 up to instructions.
-/

namespace ComputeScript

namespace Leb128

theorem toNat_ofNat_of_lt {n : Nat} (h : n < 256) : (UInt8.ofNat n).toNat = n := by
  rw [UInt8.toNat_ofNat']
  exact Nat.mod_eq_of_lt h

theorem decodeNat_encodeNat (n : Nat) (rest : Bytes) :
    decodeNat (encodeNat n ++ rest) = some (n, rest) := by
  fun_induction encodeNat n with
  | case1 n h =>
    have hn := toNat_ofNat_of_lt (show n < 256 by omega)
    have hlt : UInt8.ofNat n < 128 := by
      rw [UInt8.lt_iff_toNat_lt, hn]
      exact h
    simp only [List.cons_append, List.nil_append, decodeNat, if_pos hlt, hn]
  | case2 n h ih =>
    have hn := toNat_ofNat_of_lt (show n % 128 + 128 < 256 by omega)
    have hlt : ¬ UInt8.ofNat (n % 128 + 128) < 128 := by
      rw [UInt8.lt_iff_toNat_lt, hn, show (128 : UInt8).toNat = 128 from rfl]
      omega
    have hsum : n % 128 + 128 - 128 + 128 * (n / 128) = n := by omega
    simp only [List.cons_append, decodeNat, if_neg hlt, ih, hn, Option.map_some, hsum]

theorem decodeInt_encodeInt (i : Int) (rest : Bytes) :
    decodeInt (encodeInt i ++ rest) = some (i, rest) := by
  fun_induction encodeInt i with
  | case1 i h =>
    have hn := toNat_ofNat_of_lt (show (i % 128).toNat < 256 by omega)
    by_cases hi : 0 ≤ i
    · have hlt : UInt8.ofNat (i % 128).toNat < 64 := by
        rw [UInt8.lt_iff_toNat_lt, hn, show (64 : UInt8).toNat = 64 from rfl]
        omega
      have hval : ((i % 128).toNat : Int) = i := by omega
      simp only [List.cons_append, List.nil_append, decodeInt, if_pos hlt, hn, hval]
    · have hge : ¬ UInt8.ofNat (i % 128).toNat < 64 := by
        rw [UInt8.lt_iff_toNat_lt, hn, show (64 : UInt8).toNat = 64 from rfl]
        omega
      have hlt : UInt8.ofNat (i % 128).toNat < 128 := by
        rw [UInt8.lt_iff_toNat_lt, hn, show (128 : UInt8).toNat = 128 from rfl]
        omega
      have hval : ((i % 128).toNat : Int) - 128 = i := by omega
      simp only [List.cons_append, List.nil_append, decodeInt, if_neg hge, if_pos hlt, hn, hval]
  | case2 i h ih =>
    have hn := toNat_ofNat_of_lt (show (i % 128).toNat + 128 < 256 by omega)
    have hge : ¬ UInt8.ofNat ((i % 128).toNat + 128) < 64 := by
      rw [UInt8.lt_iff_toNat_lt, hn, show (64 : UInt8).toNat = 64 from rfl]
      omega
    have hge' : ¬ UInt8.ofNat ((i % 128).toNat + 128) < 128 := by
      rw [UInt8.lt_iff_toNat_lt, hn, show (128 : UInt8).toNat = 128 from rfl]
      omega
    have hsum : (((i % 128).toNat + 128 : Nat) : Int) - 128 + 128 * (i / 128) = i := by omega
    simp only [List.cons_append, decodeInt, if_neg hge, if_neg hge', ih, hn, Option.map_some,
      hsum]

end Leb128

namespace Binary

variable {α β : Type}

/-- A decoder takes exactly these bytes off the front and answers `x`. -/
def Reads (p : Decoder α) (bytes : Bytes) (x : α) : Prop :=
  ∀ rest, p (bytes ++ rest) = some (x, rest)

/-! ### Composition -/

theorem reads_pure (x : α) : Reads (pure x) [] x :=
  fun _ => rfl

theorem bind_eq_some {p : Decoder α} {f : α → Decoder β} {bytes rest : Bytes} {x : α}
    {r : β × Bytes} (hp : p bytes = some (x, rest)) (hf : f x rest = some r) :
    (p >>= f) bytes = some r := by
  have h : (p >>= f) bytes = (p bytes).bind fun r => f r.1 r.2 := rfl
  rw [h, hp]
  exact hf

theorem Reads.bind {p : Decoder α} {f : α → Decoder β} {bytes bytes' : Bytes} {x : α} {y : β}
    (hp : Reads p bytes x) (hf : Reads (f x) bytes' y) :
    Reads (p >>= f) (bytes ++ bytes') y := by
  intro rest
  rw [List.append_assoc]
  exact bind_eq_some (hp _) (hf rest)

/-- What comes last may be followed by an answer that is made from it. -/
theorem Reads.map {p : Decoder α} {bytes : Bytes} {x : α} (hp : Reads p bytes x) (f : α → β) :
    Reads (p >>= fun x => pure (f x)) bytes (f x) := by
  have h := hp.bind (f := fun x => pure (f x)) (reads_pure (f x))
  rwa [List.append_nil] at h

theorem reads_anyByte (b : UInt8) : Reads anyByte [b] b :=
  fun _ => rfl

theorem reads_theByte (b : UInt8) : Reads (theByte b) [b] () :=
  fun _ => if_pos rfl

/-! ### Numbers -/

theorem reads_nat (n : Nat) : Reads nat (Leb128.encodeNat n) n :=
  Leb128.decodeNat_encodeNat n

-- In the next two proofs the range check is a variable, so that its bounds are never unfolded.

theorem reads_index (n : UInt32) : Reads index (Leb128.encodeNat n.toNat) n := by
  intro rest
  obtain ⟨check, hcheck, hn⟩ : ∃ check, check = Word.index? ∧ check n.toNat = some n :=
    ⟨_, rfl, Word.index?_toNat n⟩
  rw [index, ← hcheck]
  simp only [Leb128.decodeNat_encodeNat, Option.bind_eq_bind, Option.bind_some, hn,
    Option.pure_def]

theorem reads_word (v : Int32) : Reads word (Leb128.encodeInt v.toInt) v := by
  intro rest
  obtain ⟨check, hcheck, hv⟩ : ∃ check, check = Word.ofSigned? ∧ check v.toInt = some v :=
    ⟨_, rfl, Word.ofSigned?_toInt v⟩
  rw [word, ← hcheck]
  simp only [Leb128.decodeInt_encodeInt, Option.bind_eq_bind, Option.bind_some, hv,
    Option.pure_def]

/-! ### Lists, sizes and sections -/

theorem reads_times {item : Decoder β} {write : α → Bytes} {value : α → β} {xs : List α}
    (h : ∀ x ∈ xs, Reads item (write x) (value x)) :
    Reads (times item xs.length) (xs.flatMap write) (xs.map value) := by
  induction xs with
  | nil => exact reads_pure []
  | cons x xs ih =>
    rw [List.flatMap_cons]
    refine (h x List.mem_cons_self).bind (Reads.map (ih fun y hy => ?_) _)
    exact h y (List.mem_cons_of_mem x hy)

theorem reads_items {item : Decoder β} {write : α → Bytes} {value : α → β} {xs : List α}
    (h : ∀ x ∈ xs, Reads item (write x) (value x)) :
    Reads (items item) (vector write xs) (xs.map value) :=
  (reads_nat xs.length).bind (reads_times h)

/-- A decoder that uses up some bytes reads them after their number. -/
theorem reads_within {p : Decoder α} {bytes : Bytes} {x : α} (h : p bytes = some (x, [])) :
    Reads (within p) (sized bytes) x := by
  refine (reads_nat bytes.length).bind fun rest => ?_
  have hle : bytes.length ≤ (bytes ++ rest).length := by
    rw [List.length_append]
    exact Nat.le_add_right _ _
  have htake : (bytes ++ rest).take bytes.length = bytes := List.take_left
  have hdrop : (bytes ++ rest).drop bytes.length = rest := List.drop_left
  change (if bytes.length ≤ (bytes ++ rest).length then _ else _ : Decoder α) (bytes ++ rest) = _
  rw [if_pos hle, htake, h, hdrop]
  rfl

theorem Reads.eq_some {p : Decoder α} {bytes : Bytes} {x : α} (h : Reads p bytes x) :
    p bytes = some (x, []) := by
  have happend := h []
  rwa [List.append_nil] at happend

theorem reads_inSection {p : Decoder α} (id : UInt8) {bytes : Bytes} {x : α}
    (h : Reads p bytes x) : Reads (inSection id p) (sectionOf id bytes) x :=
  (reads_theByte id).bind (reads_within h.eq_some)

theorem inSectionOr_of_present {p : Decoder α} {id : UInt8} (absent : α) {bytes : Bytes} {x : α}
    (h : Reads p bytes x) (rest : Bytes) :
    inSectionOr id absent p (sectionOf id bytes ++ rest) = some (x, rest) := by
  change (if some id = some id then inSection id p else pure absent : Decoder α) _ = _
  rw [if_pos rfl]
  exact reads_inSection id h rest

theorem inSectionOr_of_absent (p : Decoder α) {id : UInt8} (absent : α) {rest : Bytes}
    (h : rest.head? ≠ some id) : inSectionOr id absent p rest = some (absent, rest) := by
  change (if rest.head? = some id then inSection id p else pure absent : Decoder α) rest = _
  rw [if_neg h]
  rfl

theorem toList_loop (bytes : ByteArray) (i : Nat) (read : Bytes) :
    ByteArray.toList.loop bytes i read = read.reverse ++ bytes.data.toList.drop i := by
  fun_induction ByteArray.toList.loop bytes i read with
  | case1 i read h ih =>
    have hi : i < bytes.data.size := h
    have hget : bytes.get! i = bytes.data.toList[i] := by
      rw [Array.getElem_toList, ← getElem!_pos]
      rfl
    rw [ih, List.drop_eq_getElem_cons hi, List.reverse_cons, List.append_assoc, hget]
    rfl
  | case2 i read h =>
    have hi : bytes.data.toList.length ≤ i := Nat.le_of_not_lt h
    rw [List.drop_of_length_le hi, List.append_nil]

theorem mk_toArray_toList (bytes : ByteArray) : ByteArray.mk bytes.toList.toArray = bytes := by
  rw [ByteArray.toList, toList_loop]
  rfl

/-- The bytes of a text give this text. -/
theorem fromUTF8?_toList (s : String) :
    String.fromUTF8? ⟨s.toByteArray.toList.toArray⟩ = some s := by
  rw [mk_toArray_toList, String.fromUTF8?, dif_pos s.isValidUTF8]
  rfl

theorem reads_anyText (s : String) : Reads anyText (text s) s := by
  have hbytes : Reads (within everything) (text s) s.toByteArray.toList := reads_within rfl
  intro rest
  rw [anyText]
  refine bind_eq_some (hbytes rest) ?_
  rw [fromUTF8?_toList]
  rfl

end Binary

end ComputeScript
