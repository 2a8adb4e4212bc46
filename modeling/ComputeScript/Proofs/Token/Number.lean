import ComputeScript.Proofs.Token.Characters
import Mathlib.Data.List.Induction
import Mathlib.Data.List.TakeWhile

/-!
# Numbers

Digits denote a number in a radix (`Denotes`), which is what `magnitude` computes as long as the
number is below `2 ^ 63` (`magnitude_eq_ok_iff`); where it fails, the digits have one of two faults
(`Misdenotes`).  An input begins with one longest integer, whether or not that is a token
(`LongestInt`), and `LongestInt.lexInt_eq` says what is read of it.
-/

namespace ComputeScript

namespace Token

/-! ### Digits -/

/-- In a radix, `c` is a digit for `d`. -/
def IsDigitFor (radix : Nat) (c : Char) (d : Nat) : Prop :=
  digitValue? c = some d ∧ d < radix

/-- Digits of a radix denote a number, the most significant first. -/
inductive Denotes (radix : Nat) : List Char → Nat → Prop
  | nil : Denotes radix [] 0
  | snoc {digits : List Char} {c : Char} {n d : Nat} (h : Denotes radix digits n)
      (hc : IsDigitFor radix c d) : Denotes radix (digits ++ [c]) (n * radix + d)

/-- Why digits are no number: one of them is none of the radix, or what those up to some place
denote is too large. -/
inductive Misdenotes (radix : Nat) : LexFault → List Char → Prop
  | badDigit {good more : List Char} {c : Char} {n : Nat} (h : Denotes radix good n)
      (hn : n < 0x8000000000000000) (hc : ∀ d, ¬ IsDigitFor radix c d) :
      Misdenotes radix .badDigit (good ++ c :: more)
  | tooLarge {good more : List Char} {n : Nat} (h : Denotes radix good n)
      (hn : 0x8000000000000000 ≤ n) : Misdenotes radix .tooLarge (good ++ more)

variable {radix n : Nat} {c : Char} {digits : List Char} {fault : LexFault}

theorem isHexDigit_of_isDigitFor {d : Nat} (h : IsDigitFor radix c d) : isHexDigit c = true := by
  rw [isHexDigit, h.1]
  rfl

theorem isDigit_of_isDigitFor {d : Nat} (h : IsDigitFor 10 c d) : c.isDigit = true := by
  obtain ⟨hvalue, hlt⟩ := h
  unfold digitValue? at hvalue
  split_ifs at hvalue with hdigit hlower hupper
  · exact (isDigit_iff c).2 hdigit
  · cases hvalue
    omega
  · cases hvalue
    omega

theorem Denotes.forall_isHexDigit (h : Denotes radix digits n) :
    ∀ c ∈ digits, isHexDigit c = true := by
  induction h with
  | nil => exact fun c hc => absurd hc List.not_mem_nil
  | snoc _ hc ih =>
    exact List.forall_mem_append.2 ⟨ih, List.forall_mem_singleton.2 (isHexDigit_of_isDigitFor hc)⟩

theorem Denotes.forall_isDigit (h : Denotes 10 digits n) : ∀ c ∈ digits, c.isDigit = true := by
  induction h with
  | nil => exact fun c hc => absurd hc List.not_mem_nil
  | snoc _ hc ih =>
    exact List.forall_mem_append.2 ⟨ih, List.forall_mem_singleton.2 (isDigit_of_isDigitFor hc)⟩

theorem denotes_nil_iff : Denotes radix [] n ↔ n = 0 := by
  constructor
  · intro h
    generalize hdigits : [] = digits at h
    cases h with
    | nil => rfl
    | snoc =>
      exact absurd hdigits.symm (List.append_ne_nil_of_right_ne_nil _ (List.cons_ne_nil _ _))
  · rintro rfl
    exact .nil

theorem denotes_snoc_iff : Denotes radix (digits ++ [c]) n ↔
    ∃ m d, Denotes radix digits m ∧ IsDigitFor radix c d ∧ m * radix + d = n := by
  constructor
  · intro h
    generalize hall : digits ++ [c] = all at h
    cases h with
    | nil => exact absurd hall (List.append_ne_nil_of_right_ne_nil _ (List.cons_ne_nil _ _))
    | snoc h hc =>
      obtain ⟨rfl, hlast⟩ := List.append_inj' hall rfl
      cases hlast
      exact ⟨_, _, h, hc, rfl⟩
  · rintro ⟨m, d, h, hc, rfl⟩
    exact h.snoc hc

/-- The digits that a number is shown with denote it. -/
theorem denotes_toDigits {radix : Nat} (hlow : 1 < radix) (hhigh : radix ≤ 16) (n : Nat) :
    Denotes radix (Nat.toDigits radix n) n := by
  have hdigit {d : Nat} (hd : d < radix) : IsDigitFor radix d.digitChar d := by
    have hvalue : ∀ d < 16, digitValue? d.digitChar = some d := by decide
    exact ⟨hvalue d (by omega), hd⟩
  induction n using Nat.strongRecOn with
  | _ n ih =>
    by_cases hn : n < radix
    · rw [Nat.toDigits_of_lt_base hn]
      simpa using Denotes.snoc .nil (hdigit hn)
    · have hmore := ih (n / radix) (Nat.div_lt_self (by omega) hlow)
      have hlast := hmore.snoc (hdigit (Nat.mod_lt n (by omega)))
      rwa [Nat.div_add_mod', ← Nat.toDigits_of_base_le hlow (by omega)] at hlast

/-! ### What is computed from digits -/

theorem magnitude_append (radix : Nat) (cs cs' : List Char) (value : Nat) :
    magnitude radix (cs ++ cs') value = magnitude radix cs value >>= magnitude radix cs' := by
  induction cs generalizing value with
  | nil => rfl
  | cons c cs ih =>
    rw [List.cons_append, magnitude, magnitude]
    split
    · rfl
    · split_ifs
      · exact ih _
      · rfl
      · rfl

/-- A digit more is read if the number does not become too large. -/
theorem magnitude_digit {d : Nat} (h : IsDigitFor radix c d) (value : Nat) :
    magnitude radix [c] value =
      if value * radix + d < 0x8000000000000000 then .ok (value * radix + d)
      else .error .tooLarge := by
  rw [magnitude, h.1]
  simp only [if_pos h.2]
  rfl

theorem magnitude_badDigit (h : ∀ d, ¬ IsDigitFor radix c d) (value : Nat) :
    magnitude radix [c] value = .error .badDigit := by
  rw [magnitude]
  split
  · rfl
  next d hd => rw [if_neg fun hlt => h d ⟨hd, hlt⟩]

theorem magnitude_eq_ok_iff :
    magnitude radix digits 0 = .ok n ↔ Denotes radix digits n ∧ n < 0x8000000000000000 := by
  induction digits using List.reverseRecOn generalizing n with
  | nil =>
    rw [denotes_nil_iff, magnitude, Except.ok.injEq]
    omega
  | append_singleton digits c ih =>
    rw [magnitude_append, denotes_snoc_iff]
    constructor
    · intro h
      cases hm : magnitude radix digits 0 with
      | error => rw [hm] at h; cases h
      | ok m =>
        rw [hm] at h
        change magnitude radix [c] m = .ok n at h
        by_cases hc : ∃ d, IsDigitFor radix c d
        · obtain ⟨d, hd⟩ := hc
          rw [magnitude_digit hd] at h
          split_ifs at h with hlt
          cases h
          exact ⟨⟨m, d, (ih.1 hm).1, hd, rfl⟩, hlt⟩
        · rw [magnitude_badDigit (not_exists.1 hc)] at h
          cases h
    · rintro ⟨⟨m, d, hm, hd, rfl⟩, hlt⟩
      -- what the digits before the last one denote is no larger
      have hle : m ≤ m * radix := Nat.le_mul_of_pos_right m (Nat.zero_lt_of_lt hd.2)
      rw [ih.2 ⟨hm, by omega⟩]
      exact (magnitude_digit hd m).trans (if_pos hlt)

theorem misdenotes_of_magnitude (h : magnitude radix digits 0 = .error fault) :
    Misdenotes radix fault digits := by
  induction digits using List.reverseRecOn with
  | nil => cases h
  | append_singleton digits c ih =>
    rw [magnitude_append] at h
    cases hm : magnitude radix digits 0 with
    | error =>
      rw [hm] at h
      cases h
      cases ih hm with
      | badDigit hgood hn hc =>
        rw [List.append_assoc, List.cons_append]
        exact .badDigit hgood hn hc
      | tooLarge hgood hn =>
        rw [List.append_assoc]
        exact .tooLarge hgood hn
    | ok m =>
      rw [hm] at h
      change magnitude radix [c] m = .error fault at h
      obtain ⟨hdigits, hlt⟩ := magnitude_eq_ok_iff.1 hm
      by_cases hc : ∃ d, IsDigitFor radix c d
      · obtain ⟨d, hd⟩ := hc
        rw [magnitude_digit hd] at h
        split_ifs at h with hlarge
        cases h
        rw [← List.append_nil (digits ++ [c])]
        exact .tooLarge (hdigits.snoc hd) (Nat.le_of_not_lt hlarge)
      · rw [magnitude_badDigit (not_exists.1 hc)] at h
        cases h
        exact .badDigit hdigits hlt (not_exists.1 hc)

/-! ### The longest integer of an input -/

/-- The radix that a mark stands for. -/
def radixOf (mark : List Char) : Nat :=
  if mark.isEmpty then 10 else 16

/-- A magnitude with a sign. -/
def signed (sign : List Char) (n : Nat) : Int :=
  if sign.isEmpty then n else -n

/-- The longest sign, the longest mark and all the digits at the head of an input. -/
structure LongestInt (input sign mark digits rest : List Char) : Prop where
  parts : input = sign ++ (mark ++ (digits ++ rest))
  sign_longest : sign = ['-'] ∨ sign = [] ∧ input.head? ≠ some '-'
  mark_longest : mark = ['0', 'x'] ∨ mark = ['0', 'X'] ∨
    mark = [] ∧ ∀ cs, digits ++ rest ≠ '0' :: 'x' :: cs ∧ digits ++ rest ≠ '0' :: 'X' :: cs
  digits_hex : ∀ c ∈ digits, isHexDigit c = true
  digits_longest : ∀ c, rest.head? = some c → isHexDigit c = false

variable {input sign mark rest : List Char}

theorem LongestInt.takeSign_eq (h : LongestInt input sign mark digits rest) :
    takeSign input = (sign, mark ++ (digits ++ rest)) := by
  rcases h.sign_longest with rfl | ⟨rfl, hhead⟩
  · rw [h.parts]
    rfl
  · unfold takeSign
    split
    · exact absurd rfl hhead
    · rw [h.parts, List.nil_append]

theorem LongestInt.takeRadix_eq (h : LongestInt input sign mark digits rest) :
    takeRadix (mark ++ (digits ++ rest)) = (mark, digits ++ rest) := by
  rcases h.mark_longest with rfl | rfl | ⟨rfl, hmark⟩
  · rfl
  · rfl
  · unfold takeRadix
    split
    · exact absurd ‹_› (hmark _).1
    · exact absurd ‹_› (hmark _).2
    · rfl

theorem takeSign_longest (input : List Char) :
    (takeSign input).1 = ['-'] ∨ (takeSign input).1 = [] ∧ input.head? ≠ some '-' := by
  unfold takeSign
  split
  next => exact .inl rfl
  next hminus =>
    refine .inr ⟨rfl, fun hhead => ?_⟩
    obtain ⟨cs, rfl⟩ := List.head?_eq_some_iff.1 hhead
    exact hminus cs rfl

theorem takeRadix_longest (input : List Char) :
    (takeRadix input).1 = ['0', 'x'] ∨ (takeRadix input).1 = ['0', 'X'] ∨
      (takeRadix input).1 = [] ∧
        ∀ cs, (takeRadix input).2 ≠ '0' :: 'x' :: cs ∧ (takeRadix input).2 ≠ '0' :: 'X' :: cs := by
  unfold takeRadix
  split
  next => exact .inl rfl
  next => exact .inr (.inl rfl)
  next hlower hupper => exact .inr (.inr ⟨rfl, fun cs => ⟨hlower cs, hupper cs⟩⟩)

/-- Every input has its longest integer, which may have no digits. -/
theorem exists_longestInt (input : List Char) :
    ∃ sign mark digits rest, LongestInt input sign mark digits rest := by
  refine ⟨(takeSign input).1, (takeRadix (takeSign input).2).1,
    (takeRadix (takeSign input).2).2.takeWhile isHexDigit,
    (takeRadix (takeSign input).2).2.dropWhile isHexDigit, ?_, takeSign_longest input, ?_,
    fun c hc => List.mem_takeWhile_imp hc, stops_dropWhile isHexDigit _⟩
  · rw [List.takeWhile_append_dropWhile, takeRadix_append, takeSign_append]
  · rw [List.takeWhile_append_dropWhile]
    exact takeRadix_longest _

/-- What a lexeme is read as, and what follows it. -/
def Lexeme.outcome {input : List Char} (l : Lexeme input) : Token × List Char :=
  (l.token, l.rest)

/-- What is read of an integer: nothing of one without digits, else the number that they denote. -/
theorem LongestInt.lexInt_eq (h : LongestInt input sign mark digits rest) :
    (lexInt input).map Lexeme.outcome =
      if digits = [] then .error .noDigits
      else (magnitude (radixOf mark) digits 0).map fun n => (.int (signed sign n), rest) := by
  obtain ⟨htake, hdrop⟩ := span_of_stops h.digits_hex h.digits_longest
  unfold lexInt
  simp only [h.takeSign_eq, h.takeRadix_eq, htake, hdrop]
  by_cases hdigits : digits = []
  · rw [dif_pos hdigits, if_pos hdigits]
    rfl
  · rw [dif_neg hdigits, if_neg hdigits, radixOf]
    cases magnitude (if mark.isEmpty then 10 else 16) digits 0 <;> rfl

end Token

end ComputeScript
