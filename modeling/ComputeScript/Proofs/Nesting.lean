import ComputeScript.Inst
import Mathlib.Data.List.Basic

/-!
# Nesting

`Balanced` is the grammar of code in which each block and each loop has an end of its own, and
`Encloses` lists the blocks and loops around a place in such code.  To read code from the front it
is enough to count the blocks that are open (`depthAfter?`): the count goes from nothing to nothing
exactly on balanced code (`depthAfter?_eq_zero_iff`), and on the way it is the number of blocks
around the place that was reached (`Encloses.depthAfter?_eq`).
-/

namespace ComputeScript

variable {σ : Type}

namespace Inst

/-- Whether an instruction neither opens nor closes a block. -/
def isPlain : Inst σ → Bool
  | block => false
  | loop => false
  | close => false
  | _ => true

/-- The depth that an instruction branches to. -/
def target? : Inst σ → Option UInt32
  | br depth => some depth
  | brIf depth => some depth
  | _ => none

/-- The number of open blocks after an instruction, which may close only what is open. -/
def depthAfter? (depth : Nat) : Inst σ → Option Nat
  | block => some (depth + 1)
  | loop => some (depth + 1)
  | close =>
    match depth with
    | 0 => none
    | outer + 1 => some outer
  | _ => some depth

theorem depthAfter?_of_isPlain {inst : Inst σ} (h : inst.isPlain) (depth : Nat) :
    inst.depthAfter? depth = some depth := by
  cases inst <;> first | rfl | cases h

theorem isPlain_of_target? {inst : Inst σ} {target : UInt32} (h : inst.target? = some target) :
    inst.isPlain := by
  cases inst <;> first | rfl | cases h

theorem plain_or_opener_or_close (inst : Inst σ) :
    inst.isPlain ∨ (inst = .block ∨ inst = .loop) ∨ inst = .close := by
  cases inst with
  | block => exact .inr (.inl (.inl rfl))
  | loop => exact .inr (.inl (.inr rfl))
  | close => exact .inr (.inr rfl)
  | _ => exact .inl rfl

end Inst

/-! ### The grammar -/

/-- Code in which each block and each loop has an end of its own. -/
inductive Balanced : List (Inst σ) → Prop where
  | nil : Balanced []
  | plain {inst : Inst σ} {code : List (Inst σ)} (h : inst.isPlain) (hcode : Balanced code) :
      Balanced (inst :: code)
  | nest {opener : Inst σ} {inner code : List (Inst σ)} (h : opener = .block ∨ opener = .loop)
      (hinner : Balanced inner) (hcode : Balanced code) :
      Balanced (opener :: (inner ++ .close :: code))

/-- The place between two pieces of code lies within these blocks and loops, the outermost first,
and all else on either side is balanced. -/
inductive Encloses : List (Inst σ) → List (Inst σ) → List (Inst σ) → Prop where
  | here {before after : List (Inst σ)} (hbefore : Balanced before) (hafter : Balanced after) :
      Encloses [] before after
  | within {opener : Inst σ} {blocks left before after right : List (Inst σ)}
      (h : opener = .block ∨ opener = .loop) (hleft : Balanced left)
      (hinner : Encloses blocks before after) (hright : Balanced right) :
      Encloses (opener :: blocks) (left ++ opener :: before) (after ++ .close :: right)

variable {code left before after blocks : List (Inst σ)} {inst : Inst σ}

theorem Balanced.append (hleft : Balanced left) (hcode : Balanced code) :
    Balanced (left ++ code) := by
  induction hleft with
  | nil => exact hcode
  | plain h _ ih => exact .plain h ih
  | nest h hinner _ _ ih =>
    rw [List.cons_append, List.append_assoc, List.cons_append]
    exact .nest h hinner ih

theorem Encloses.append_left (hleft : Balanced left) (h : Encloses blocks before after) :
    Encloses blocks (left ++ before) after := by
  cases h with
  | here hbefore hafter => exact .here (hleft.append hbefore) hafter
  | within hopener hleft' hinner hright =>
    rw [← List.append_assoc]
    exact .within hopener (hleft.append hleft') hinner hright

/-- An instruction of balanced code that neither opens nor closes a block lies within some blocks,
or within none. -/
theorem Balanced.exists_encloses (h : Balanced (before ++ inst :: after)) (hinst : inst.isPlain) :
    ∃ blocks, Encloses blocks before after := by
  generalize hcode : before ++ inst :: after = code at h
  induction h generalizing before after with
  | nil => simp at hcode
  | @plain first code hfirst hrest ih =>
    rcases List.append_eq_cons_iff.1 hcode with ⟨rfl, heq⟩ | ⟨before', rfl, heq⟩
    · cases heq
      exact ⟨[], .here .nil hrest⟩
    · obtain ⟨blocks, hblocks⟩ := ih heq.symm
      exact ⟨blocks, hblocks.append_left (.plain hfirst .nil)⟩
  | @nest opener inner code hopener hinner hrest ihinner ihrest =>
    rcases List.append_eq_cons_iff.1 hcode with ⟨rfl, heq⟩ | ⟨before', rfl, heq⟩
    · cases heq
      rcases hopener with rfl | rfl <;> cases hinst
    -- the place is behind the block, or in it
    rcases List.append_eq_append_iff.1 heq with ⟨behind, rfl, hbehind⟩ | ⟨rest, rfl, hafter⟩
    · rcases List.cons_eq_append_iff.1 hbehind with ⟨rfl, hclose⟩ | ⟨behind', rfl, rfl⟩
      · cases hclose
        cases hinst
      · obtain ⟨blocks, hblocks⟩ := ihrest rfl
        have hleft : Balanced (opener :: (inner ++ [.close])) := .nest hopener hinner .nil
        have hpast := hblocks.append_left hleft
        rw [List.cons_append, List.append_assoc] at hpast
        exact ⟨blocks, hpast⟩
    · rcases List.cons_eq_append_iff.1 hafter with ⟨rfl, hclose⟩ | ⟨rest', rfl, rfl⟩
      · cases hclose
        cases hinst
      · obtain ⟨blocks, hblocks⟩ := ihinner rfl
        exact ⟨opener :: blocks, .within hopener .nil hblocks hrest⟩

/-! ### Counting open blocks -/

/-- The number of open blocks after a piece of code, which may close only what is open. -/
def depthAfter? (depth : Nat) (code : List (Inst σ)) : Option Nat :=
  code.foldlM Inst.depthAfter? depth

theorem depthAfter?_cons (depth : Nat) (inst : Inst σ) (code : List (Inst σ)) :
    depthAfter? depth (inst :: code) = (inst.depthAfter? depth).bind (depthAfter? · code) :=
  List.foldlM_cons

theorem depthAfter?_append (depth : Nat) (code code' : List (Inst σ)) :
    depthAfter? depth (code ++ code') = (depthAfter? depth code).bind (depthAfter? · code') :=
  List.foldlM_append

theorem depthAfter?_cons_of_isPlain (h : inst.isPlain) (depth : Nat) (code : List (Inst σ)) :
    depthAfter? depth (inst :: code) = depthAfter? depth code := by
  rw [depthAfter?_cons, inst.depthAfter?_of_isPlain h]
  rfl

theorem depthAfter?_cons_of_opener (h : inst = .block ∨ inst = .loop) (depth : Nat)
    (code : List (Inst σ)) :
    depthAfter? depth (inst :: code) = depthAfter? (depth + 1) code := by
  rcases h with rfl | rfl <;> rfl

theorem Balanced.depthAfter?_eq (h : Balanced code) (depth : Nat) :
    depthAfter? depth code = some depth := by
  induction h generalizing depth with
  | nil => rfl
  | plain h _ ih => rw [depthAfter?_cons_of_isPlain h, ih]
  | @nest opener inner code h _ _ ihinner ihcode =>
    rw [depthAfter?_cons_of_opener h, depthAfter?_append, ihinner]
    exact ihcode depth

/-- As many blocks are open at a place as there are around it. -/
theorem Encloses.depthAfter?_eq (h : Encloses blocks before after) (depth : Nat) :
    depthAfter? depth before = some (depth + blocks.length) := by
  induction h generalizing depth with
  | here hbefore _ => exact hbefore.depthAfter?_eq depth
  | @within opener blocks left before after right hopener hleft _ _ ih =>
    rw [depthAfter?_append, hleft.depthAfter?_eq, Option.bind_some,
      depthAfter?_cons_of_opener hopener, ih, List.length_cons, Nat.add_right_comm, Nat.add_assoc]

/-- Code that closes all open blocks is balanced, up to the end of the innermost one. -/
theorem balanced_or_exists_close {depth : Nat} (h : depthAfter? depth code = some 0) :
    (depth = 0 ∧ Balanced code) ∨ ∃ outer inner rest, depth = outer + 1 ∧
      code = inner ++ .close :: rest ∧ Balanced inner ∧ depthAfter? outer rest = some 0 := by
  induction hlength : code.length using Nat.strongRecOn generalizing code depth with
  | _ length ih =>
  subst hlength
  cases code with
  | nil => exact .inl ⟨Option.some.inj h, .nil⟩
  | cons inst code =>
    have ihcode {d : Nat} (hd : depthAfter? d code = some 0) := ih _ (Nat.lt_succ_self _) hd rfl
    rcases inst.plain_or_opener_or_close with hplain | hopener | rfl
    · rw [depthAfter?_cons_of_isPlain hplain] at h
      rcases ihcode h with ⟨rfl, hcode⟩ | ⟨outer, inner, rest, rfl, rfl, hinner, hrest⟩
      · exact .inl ⟨rfl, .plain hplain hcode⟩
      · exact .inr ⟨outer, inst :: inner, rest, rfl, rfl, .plain hplain hinner, hrest⟩
    · rw [depthAfter?_cons_of_opener hopener] at h
      obtain ⟨inner, rest, rfl, hinner, hrest⟩ : ∃ inner rest, code = inner ++ .close :: rest ∧
          Balanced inner ∧ depthAfter? depth rest = some 0 := by
        rcases ihcode h with ⟨hdepth, -⟩ | ⟨outer, inner, rest, hdepth, hcode, hinner, hrest⟩
        · cases hdepth
        · cases hdepth
          exact ⟨inner, rest, hcode, hinner, hrest⟩
      -- what follows the end of this block is looked at in the same way
      have hshorter : rest.length < (inst :: (inner ++ .close :: rest)).length := by
        simp only [List.length_cons, List.length_append]
        omega
      rcases ih _ hshorter hrest rfl with
        ⟨rfl, hcode⟩ | ⟨outer, inner', rest', rfl, rfl, hinner', hrest'⟩
      · exact .inl ⟨rfl, .nest hopener hinner hcode⟩
      · refine .inr ⟨outer, inst :: (inner ++ .close :: inner'), rest', rfl, ?_,
          .nest hopener hinner hinner', hrest'⟩
        rw [List.cons_append, List.append_assoc, List.cons_append]
    · cases depth with
      | zero => cases h
      | succ outer => exact .inr ⟨outer, [], code, rfl, rfl, .nil, h⟩

/-- No block is open before and after a piece of code exactly if it is balanced. -/
theorem depthAfter?_eq_zero_iff : depthAfter? 0 code = some 0 ↔ Balanced code := by
  constructor
  · intro h
    rcases balanced_or_exists_close h with ⟨-, hcode⟩ | ⟨outer, -, -, hdepth, -⟩
    · exact hcode
    · cases hdepth
  · exact fun h => h.depthAfter?_eq 0

/-! ### Branches -/

/-- Branches go no further out than to the end of the function, which is behind the outermost of the
blocks that are open. -/
def BranchesWithin (depth : Nat) (code : List (Inst σ)) : Prop :=
  ∀ before inst after target d, code = before ++ inst :: after → inst.target? = some target →
    depthAfter? depth before = some d → target.toNat ≤ d

theorem branchesWithin_cons_iff {depth : Nat} :
    BranchesWithin depth (inst :: code) ↔
      (∀ target, inst.target? = some target → target.toNat ≤ depth) ∧
        ∀ d, inst.depthAfter? depth = some d → BranchesWithin d code := by
  constructor
  · intro h
    refine ⟨fun target htarget => h [] inst code target depth rfl htarget rfl, ?_⟩
    intro d hd before inst' after target d' hcode htarget hbefore
    refine h (inst :: before) inst' after target d' (congrArg _ hcode) htarget ?_
    rw [depthAfter?_cons, hd]
    exact hbefore
  · rintro ⟨hinst, hcode⟩ before inst' after target d heq htarget hbefore
    rcases List.cons_eq_append_iff.1 heq with ⟨rfl, hcons⟩ | ⟨before', rfl, hcode'⟩
    · cases hcons
      cases hbefore
      exact hinst target htarget
    · rw [depthAfter?_cons] at hbefore
      obtain ⟨d', hd', hbefore⟩ := Option.bind_eq_some_iff.1 hbefore
      exact hcode d' hd' before' inst' after target d hcode' htarget hbefore

/-- In balanced code a branch may leave all of the blocks that it lies in, and the function. -/
theorem Balanced.branchesWithin_iff (h : Balanced code) :
    BranchesWithin 0 code ↔ ∀ before inst after target, code = before ++ inst :: after →
      inst.target? = some target →
        ∃ blocks, Encloses blocks before after ∧ target.toNat ≤ blocks.length := by
  constructor
  · intro hwithin before inst after target heq htarget
    subst heq
    obtain ⟨blocks, hblocks⟩ := h.exists_encloses (Inst.isPlain_of_target? htarget)
    have hdepth := hblocks.depthAfter?_eq 0
    rw [Nat.zero_add] at hdepth
    exact ⟨blocks, hblocks, hwithin before inst after target _ rfl htarget hdepth⟩
  · intro hwithin before inst after target d heq htarget hdepth
    obtain ⟨blocks, hblocks, hle⟩ := hwithin before inst after target heq htarget
    rw [hblocks.depthAfter?_eq 0, Nat.zero_add] at hdepth
    cases hdepth
    exact hle

end ComputeScript
