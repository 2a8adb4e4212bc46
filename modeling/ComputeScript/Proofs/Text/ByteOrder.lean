import ComputeScript.Pass.Emit
import ComputeScript.Proofs.Object.Reading
import Mathlib.Data.String.Basic
import Mathlib.Tactic.SplitIfs

/-!
# Texts in the order of their bytes

The order of texts is that of their characters, and UTF-8 is made so that it is also that of their
bytes (`utf8_lt_utf8_iff`): a character with a greater number has a greater first byte or, with as
many bytes, a greater byte at the first place where the bytes differ.
-/

namespace ComputeScript

theorem utf8_eq_flatMap (s : String) : utf8 s = s.toList.flatMap String.utf8EncodeChar := by
  rw [utf8, ByteArray.toList, Binary.toList_loop, ← String.utf8Encode_toList, List.utf8Encode,
    List.toList_data_toByteArray]
  rfl

theorem toNat_val_lt (c : Char) : c.val.toNat < 1114112 := by
  have hvalid : c.val.toNat < 55296 ∨ 57343 < c.val.toNat ∧ c.val.toNat < 1114112 := c.valid
  omega

/-! ### Characters -/

theorem cons_ofNat_lt_cons {a b : Nat} (hb : b < 256) (x y : List UInt8) (h : a < b) :
    UInt8.ofNat a :: x < UInt8.ofNat b :: y := by
  refine List.cons_lt_cons_iff.2 (.inl ?_)
  rwa [UInt8.lt_iff_toNat_lt, UInt8.toNat_ofNat_of_lt' (h.trans hb), UInt8.toNat_ofNat_of_lt' hb]

/-- A way to write the numbers below a bound whose bytes, whatever follows them, are in the order of
the numbers. -/
def Ascending (bound : Nat) (write : Nat → List UInt8) : Prop :=
  ∀ v w x y, v < w → w < bound → write v ++ x < write w ++ y

/-- A leading byte holds the marks of its length and a digit. -/
theorem ascending_leading {bound mark : Nat} (h : bound + mark ≤ 256) :
    Ascending bound fun v => [UInt8.ofNat (v % bound + mark)] := by
  intro v w x y hlt hw
  dsimp only
  rw [Nat.mod_eq_of_lt (hlt.trans hw), Nat.mod_eq_of_lt hw]
  exact cons_ofNat_lt_cons (by omega) x y (by omega)

/-- A continuation byte holds six bits. -/
theorem Ascending.continued {bound : Nat} {write : Nat → List UInt8} (h : Ascending bound write) :
    Ascending (64 * bound) fun v => write (v / 64) ++ [UInt8.ofNat (v % 64 + 128)] := by
  intro v w x y hlt hw
  have hbytes : v / 64 < w / 64 ∨ v / 64 = w / 64 ∧ v % 64 < w % 64 := by omega
  dsimp only
  rw [List.append_assoc, List.append_assoc]
  obtain hhigh | ⟨heq, hlow⟩ := hbytes
  · exact h _ _ _ _ hhigh (by omega)
  · rw [heq]
    exact List.append_left_lt (cons_ofNat_lt_cons (by omega) x y (by omega))

/-- Whatever follows them, the bytes of characters are in the order of the characters. -/
theorem utf8EncodeChar_append_lt {c d : Char} (h : c < d) (x y : List UInt8) :
    String.utf8EncodeChar c ++ x < String.utf8EncodeChar d ++ y := by
  have hlt : c.val.toNat < d.val.toNat := h
  have hd := toNat_val_lt d
  have htwo := (ascending_leading (show 32 + 192 ≤ 256 by omega)).continued
  have hthree := (ascending_leading (show 16 + 224 ≤ 256 by omega)).continued.continued
  have hfour :=
    (ascending_leading (show 8 + 240 ≤ 256 by omega)).continued.continued.continued
  have htwo := htwo _ _ x y hlt
  have hthree := hthree _ _ x y hlt
  have hfour := hfour _ _ x y hlt
  simp only [Nat.div_div_eq_div_mul, List.cons_append, List.nil_append] at htwo hthree hfour
  unfold String.utf8EncodeChar
  dsimp only
  -- where the lengths differ, the leading bytes do
  split_ifs <;> first
    | exact cons_ofNat_lt_cons (by omega) _ _ (by omega)
    | exact htwo (by omega)
    | exact hthree (by omega)
    | exact hfour (by omega)

/-! ### Texts -/

theorem flatMap_lt_of_lt {cs ds : List Char} (h : cs < ds) :
    cs.flatMap String.utf8EncodeChar < ds.flatMap String.utf8EncodeChar := by
  induction h with
  | @nil d ds =>
    obtain ⟨b, bs, hb⟩ := List.exists_cons_of_ne_nil (String.utf8EncodeChar_ne_nil (c := d))
    rw [List.flatMap_nil, List.flatMap_cons, hb]
    exact List.nil_lt_cons _ _
  | cons _ ih =>
    rw [List.flatMap_cons, List.flatMap_cons]
    exact List.append_left_lt ih
  | rel h =>
    rw [List.flatMap_cons, List.flatMap_cons]
    exact utf8EncodeChar_append_lt h _ _

theorem utf8_lt_utf8_iff {s t : String} : utf8 s < utf8 t ↔ s < t := by
  have hmono {s t : String} (h : s < t) : utf8 s < utf8 t := by
    rw [utf8_eq_flatMap, utf8_eq_flatMap]
    exact flatMap_lt_of_lt (String.lt_iff.1 h)
  constructor
  · intro h
    rcases lt_trichotomy s t with hlt | rfl | hgt
    · exact hlt
    · exact absurd h (List.lt_irrefl _)
    · exact absurd h (List.lt_asymm (hmono hgt))
  · exact hmono

end ComputeScript
