import ComputeScript.Text.Blank
import ComputeScript.Text.Fields
import Mathlib.Data.List.DropRight
import Mathlib.Tactic.SplitIfs

/-!
# Blanks around a text, and its fields

`Text.trim` leaves what stands between the blanks at the ends of a text (`Text.trim_eq_iff`), and
`Text.fields` finds the pieces without separators that a text was joined from
(`Text.fields_eq_iff`).
-/

namespace ComputeScript

namespace Text

/-! ### Blanks -/

/-- A text is a piece that neither begins nor ends with a blank, with blanks before and after
it. -/
structure Trims (text trimmed : String) : Prop where
  surrounded : ∃ before after : String, text = before ++ trimmed ++ after ∧
    (∀ c ∈ before.toList, isBlank c = true) ∧ ∀ c ∈ after.toList, isBlank c = true
  head : ∀ c, trimmed.toList.head? = some c → isBlank c = false
  last : ∀ c, trimmed.toList.getLast? = some c → isBlank c = false

variable {text trimmed : String}

theorem toList_trim (text : String) : (trim text).toList = trimChars text.toList :=
  String.toList_ofList

theorem Trims.self (h : Trims text trimmed) : Trims trimmed trimmed :=
  ⟨⟨"", "", by simp, by simp, by simp⟩, h.head, h.last⟩

theorem trims_trim (text : String) : Trims text (trim text) := by
  let rest := text.toList.dropWhile isBlank
  have hend : trimChars text.toList = rest.rdropWhile isBlank := rfl
  have htext : text = String.ofList (text.toList.takeWhile isBlank) ++ trim text ++
      String.ofList (rest.rtakeWhile isBlank) := by
    apply String.toList_inj.1
    rw [trim, hend]
    simp only [String.toList_append, String.toList_ofList, List.append_assoc,
      List.rdropWhile_append_rtakeWhile]
    exact List.takeWhile_append_dropWhile.symm
  refine ⟨⟨_, _, htext, ?_, ?_⟩, ?_, ?_⟩
  · rw [String.toList_ofList]
    exact fun c hc => List.mem_takeWhile_imp hc
  · rw [String.toList_ofList]
    exact fun c hc => List.mem_rtakeWhile_imp hc
  · intro c hc
    rw [trim, String.toList_ofList, hend] at hc
    have hrest : rest.head? = some c := by
      obtain ⟨dropped, hdropped⟩ := List.rdropWhile_prefix isBlank (l := rest)
      rw [← hdropped, List.head?_append, hc, Option.some_or]
    have hnot := List.head?_dropWhile_not isBlank text.toList
    rw [show (text.toList.dropWhile isBlank).head? = some c from hrest] at hnot
    simpa using hnot
  · intro c hc
    rw [trim, String.toList_ofList, hend] at hc
    obtain ⟨kept, hkept⟩ := List.getLast?_eq_some_iff.1 hc
    have hnot := List.rdropWhile_last_not isBlank rest (by simp [hkept])
    simpa [hkept] using hnot

/-- What is left of the blanks and other text up to its last character that is not blank. -/
theorem trim_eq_iff : trim text = trimmed ↔ Trims text trimmed := by
  constructor
  · rintro rfl
    exact trims_trim text
  · rintro ⟨⟨before, after, rfl, hbefore, hafter⟩, hhead, hlast⟩
    rw [← String.toList_inj, trim, String.toList_ofList, trimChars, String.toList_append,
      String.toList_append, List.append_assoc, List.dropWhile_append_of_pos hbefore]
    rcases hnil : trimmed.toList with _ | ⟨c, cs⟩
    · rw [List.nil_append, List.dropWhile_eq_nil_iff.2 hafter]
      rfl
    · obtain ⟨kept, last, hkept⟩ := (List.eq_nil_or_concat (c :: cs)).resolve_left (by simp)
      have hc : ¬ isBlank c = true := by simp [hhead c (by rw [hnil]; rfl)]
      have hl : ¬ isBlank last = true := by simp [hlast last (by rw [hnil, hkept]; simp)]
      rw [List.cons_append, List.dropWhile_cons_of_neg hc, ← List.cons_append, List.reverse_append,
        List.dropWhile_append_of_pos fun c hc => hafter c (List.mem_reverse.1 hc), hkept,
        List.concat_eq_append, List.reverse_concat, List.dropWhile_cons_of_neg hl,
        ← List.reverse_concat, List.reverse_reverse]

theorem trim_eq_empty_iff : trim text = "" ↔ ∀ c ∈ text.toList, isBlank c = true := by
  rw [trim_eq_iff]
  constructor
  · rintro ⟨⟨before, after, rfl, hbefore, hafter⟩, -, -⟩ c hc
    rw [String.append_empty, String.toList_append, List.mem_append] at hc
    exact hc.elim (hbefore c) (hafter c)
  · intro h
    exact ⟨⟨text, "", by simp, h, by simp⟩, nofun, nofun⟩

/-! ### Fields -/

variable {sep : Char} {cs : List Char} {pieces : List (List Char)}

theorem fields_eq_splitOn (sep : Char) (cs : List Char) : fields sep cs = cs.splitOn sep := by
  induction cs with
  | nil => rfl
  | cons c cs ih =>
    rw [fields, List.splitOn_cons_eq_if_modifyHead, ih]
    simp only [beq_iff_eq]
    split_ifs
    · rfl
    · obtain ⟨first, others, hfields⟩ := List.exists_cons_of_ne_nil (List.splitOn_ne_nil sep cs)
      rw [hfields]
      rfl

theorem fields_ne_nil (sep : Char) (cs : List Char) : fields sep cs ≠ [] := by
  rw [fields_eq_splitOn]
  exact List.splitOn_ne_nil sep cs

theorem fields_of_not_mem (h : sep ∉ cs) : fields sep cs = [cs] := by
  rw [fields_eq_splitOn, List.splitOn_eq_singleton h]

theorem fields_append_sep (sep : Char) (cs ds : List Char) :
    fields sep (cs ++ sep :: ds) = fields sep cs ++ fields sep ds := by
  simp only [fields_eq_splitOn, List.splitOn_append_cons_self]

theorem not_mem_of_mem_fields {piece : List Char} (h : piece ∈ fields sep cs) : sep ∉ piece := by
  induction cs generalizing piece with
  | nil =>
    rw [List.mem_singleton.1 h]
    exact List.not_mem_nil
  | cons c cs ih =>
    rw [fields] at h
    split_ifs at h with hsep
    · rcases List.mem_cons.1 h with rfl | h
      · exact List.not_mem_nil
      · exact ih h
    · obtain ⟨first, others, hfields⟩ := List.exists_cons_of_ne_nil (fields_ne_nil sep cs)
      rw [hfields] at h ih
      rcases List.mem_cons.1 h with rfl | h
      · have hfirst := ih List.mem_cons_self
        exact List.not_mem_cons_of_ne_of_not_mem (Ne.symm hsep) hfirst
      · exact ih (List.mem_cons_of_mem first h)

/-- The fields of a text are the pieces without separators that make it up with separators between
them. -/
theorem fields_eq_iff :
    fields sep cs = pieces ↔
      pieces ≠ [] ∧ (∀ piece ∈ pieces, sep ∉ piece) ∧ [sep].intercalate pieces = cs := by
  constructor
  · rintro rfl
    refine ⟨fields_ne_nil sep cs, fun piece hpiece => not_mem_of_mem_fields hpiece, ?_⟩
    rw [fields_eq_splitOn, List.intercalate_splitOn]
  · rintro ⟨hne, hpieces, rfl⟩
    rw [fields_eq_splitOn, List.splitOn_intercalate sep hpieces hne]

end Text

end ComputeScript
