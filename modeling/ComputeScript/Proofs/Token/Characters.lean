import ComputeScript.Token.Lexer
import Mathlib.Tactic.SplitIfs

/-!
# Classes of characters

How the classes that the lexer scans over lie to each other, and what a scan over one of them takes
(`span_of_stops`).
-/

namespace ComputeScript

namespace Token

variable {c d : Char}

theorem ne_of_class {p : Char → Bool} (hc : p c = true) (hd : p d = false) : c ≠ d := by
  rintro rfl
  rw [hd] at hc
  cases hc

theorem isDigit_iff (c : Char) : c.isDigit = true ↔ '0' ≤ c ∧ c ≤ '9' :=
  Bool.and_eq_true_iff.trans (and_congr decide_eq_true_iff decide_eq_true_iff)

theorem isAlpha_iff (c : Char) :
    c.isAlpha = true ↔ ('A' ≤ c ∧ c ≤ 'Z') ∨ ('a' ≤ c ∧ c ≤ 'z') := by
  have hupper : c.isUpper = true ↔ 'A' ≤ c ∧ c ≤ 'Z' := decide_eq_true_iff
  have hlower : c.isLower = true ↔ 'a' ≤ c ∧ c ≤ 'z' :=
    Bool.and_eq_true_iff.trans (and_congr decide_eq_true_iff decide_eq_true_iff)
  exact Bool.or_eq_true_iff.trans (or_congr hupper hlower)

theorem isHexDigit_of_isDigit (h : c.isDigit = true) : isHexDigit c = true := by
  rw [isHexDigit, digitValue?, if_pos ((isDigit_iff c).1 h)]
  rfl

theorem isNameChar_of_isHexDigit (h : isHexDigit c = true) : isNameChar c = true := by
  have halnum : c.isAlphanum = true := by
    rw [Char.isAlphanum, Bool.or_eq_true, isAlpha_iff, isDigit_iff]
    unfold isHexDigit digitValue? at h
    split_ifs at h with hdigit hlower hupper
    · exact .inr hdigit
    · exact .inl (.inr ⟨hlower.1, Char.le_trans hlower.2 (by decide)⟩)
    · exact .inl (.inl ⟨hupper.1, Char.le_trans hupper.2 (by decide)⟩)
    · cases h
  simp only [isNameChar, halnum, Bool.true_or]

theorem isDigit_of_isNameStart (h : isNameStart c = true) : c.isDigit = false := by
  rw [isNameStart, Bool.or_eq_true, Bool.or_eq_true, beq_iff_eq, beq_iff_eq, isAlpha_iff] at h
  rw [Bool.eq_false_iff, ne_eq, isDigit_iff]
  rintro ⟨hzero, hnine⟩
  rcases h with ((⟨hge, -⟩ | ⟨hge, -⟩) | rfl) | rfl
  · exact absurd (Char.le_trans hge hnine) (by decide)
  · exact absurd (Char.le_trans hge hnine) (by decide)
  · exact absurd hnine (by decide)
  · exact absurd hzero (by decide)

theorem isNameChar_of_isNameStart (h : isNameStart c = true) : isNameChar c = true := by
  rw [isNameStart, Bool.or_eq_true, Bool.or_eq_true] at h
  rw [isNameChar, Char.isAlphanum]
  rcases h with (h | h) | h <;> simp only [h, Bool.true_or, Bool.or_true]

theorem isNameChar_of_isDigit (h : c.isDigit = true) : isNameChar c = true :=
  isNameChar_of_isHexDigit (isHexDigit_of_isDigit h)

theorem isStringChar_iff (c : Char) : isStringChar c = true ↔ c ≠ '"' ∧ c ≠ '\n' := by
  rw [isStringChar, Bool.and_eq_true, bne_iff_ne, bne_iff_ne]

theorem isSpace_of_isNameChar (h : isNameChar c = true) : isSpace c = false := by
  have hne {d : Char} (hd : isNameChar d = false) : (c == d) = false :=
    beq_false_of_ne (ne_of_class h hd)
  rw [isSpace, hne rfl, hne rfl, hne rfl, hne rfl, hne rfl]
  rfl

theorem isNameChar_of_isSpace (h : isSpace c = true) : isNameChar c = false := by
  rw [Bool.eq_false_iff]
  intro hname
  rw [isSpace_of_isNameChar hname] at h
  cases h

/-! ### Scanning -/

/-- No name goes on here. -/
def Stops (cs : List Char) : Prop :=
  ∀ c, cs.head? = some c → isNameChar c = false

theorem stops_cons {c : Char} (h : isNameChar c = false) (cs : List Char) : Stops (c :: cs) := by
  intro c' hc
  cases hc
  exact h

variable {p : Char → Bool} {cs rest : List Char}

/-- The characters of a class up to one that is not in it. -/
theorem span_of_stops (hcs : ∀ c ∈ cs, p c = true)
    (hrest : ∀ c, rest.head? = some c → p c = false) :
    (cs ++ rest).takeWhile p = cs ∧ (cs ++ rest).dropWhile p = rest := by
  rw [List.takeWhile_append_of_pos hcs, List.dropWhile_append_of_pos hcs]
  cases rest with
  | nil => exact ⟨List.append_nil cs, rfl⟩
  | cons c rest =>
    have hc := hrest c rfl
    rw [List.takeWhile_cons, List.dropWhile_cons, hc]
    exact ⟨List.append_nil cs, rfl⟩

/-- A scan over a class ends before a character that is not in it. -/
theorem stops_dropWhile (p : Char → Bool) (cs : List Char) :
    ∀ c, (cs.dropWhile p).head? = some c → p c = false := by
  intro c hc
  have hhead := List.head?_dropWhile_not p cs
  rw [hc] at hhead
  exact hhead

end Token

end ComputeScript
