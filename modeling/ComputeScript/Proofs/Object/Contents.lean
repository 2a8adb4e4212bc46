import ComputeScript.Proofs.Object.Decode
import Mathlib.Data.List.Basic
import Mathlib.Data.List.Forall2
import Mathlib.Data.List.Induction

/-!
# What an object holds

`Image.Holds` says what the image of a module is, without saying how it is made: its types, each
function with its own type and body, the memory, the globals and the exports.  References are
indices of last definitions (`IsLastIndex`).  A module that has an object has one that holds it
(`Module.holds_of_object`).
-/

namespace ComputeScript

variable {α β ε : Type}

theorem ok_of_map {x : Except ε α} {f : α → β} {y : β} (h : x.map f = .ok y) :
    ∃ a, x = .ok a ∧ f a = y := by
  cases x with
  | error e => cases h
  | ok a =>
    cases h
    exact ⟨a, rfl, rfl⟩

theorem forall₂_of_mapM {f : α → Except ε β} {xs : List α} {ys : List β}
    (h : xs.mapM f = .ok ys) : List.Forall₂ (fun x y => f x = .ok y) xs ys := by
  induction xs generalizing ys with
  | nil =>
    cases h
    exact .nil
  | cons x xs ih =>
    rw [List.mapM_cons] at h
    cases hx : f x with
    | error e =>
      rw [hx] at h
      cases h
    | ok y =>
      rw [hx] at h
      obtain ⟨ys, hys, rfl⟩ := ok_of_map h
      exact .cons hx (ih hys)

theorem pairwise_zipIdx (xs : List α) : xs.zipIdx.Pairwise fun p q => p.2 < q.2 := by
  have hrange : (xs.zipIdx.map Prod.snd).Pairwise (· < ·) := by
    rw [List.zipIdx_map_snd]
    exact List.pairwise_lt_range'
  exact List.pairwise_map.1 hrange

/-! ### Resolved references -/

/-- `name` stands at this index and not after it. -/
def IsLastIndex (names : List String) (name : String) (index : Nat) : Prop :=
  names[index]? = some name ∧ ∀ later, index < later → names[later]? ≠ some name

theorem isLastIndex_of_lookup {names : List String} {name : String} {index : Nat}
    (h : lookup names name = .ok index) : IsLastIndex names name index := by
  have hlast : lastIndex? names name = some index := by
    unfold lookup at h
    cases hl : lastIndex? names name with
    | none => rw [hl] at h; cases h
    | some i => rw [hl] at h; cases h; rfl
  obtain ⟨⟨n, i⟩, hget, hi⟩ := Option.map_eq_some_iff.1 hlast
  obtain rfl : i = index := hi
  obtain ⟨before, hbefore⟩ := List.getLast?_eq_some_iff.1 hget
  have hmem (j : Nat) : (name, j) ∈ before ++ [(n, i)] ↔ names[j]? = some name := by
    rw [← hbefore, List.mem_filter, List.mk_mem_zipIdx_iff_getElem?]
    exact and_iff_left (beq_self_eq_true name)
  have hname : n = name := by
    have hself : (n, i) ∈ names.zipIdx.filter fun p => p.1 == name := by
      rw [hbefore]
      exact List.mem_append_right _ List.mem_cons_self
    exact beq_iff_eq.1 (List.mem_filter.1 hself).2
  subst hname
  -- the indices that were kept still increase, so the last of them is the greatest
  have hpairwise : (before ++ [(n, i)]).Pairwise fun p q => p.2 < q.2 := by
    rw [← hbefore]
    exact List.Pairwise.filter _ (pairwise_zipIdx names)
  refine ⟨(hmem i).1 (List.mem_append_right _ List.mem_cons_self), fun later hlater hsome => ?_⟩
  rcases List.mem_append.1 ((hmem later).2 hsome) with hin | hin
  · have hlt : later < i := (List.pairwise_append.1 hpairwise).2.2 _ hin _ List.mem_cons_self
    omega
  · have heq := congrArg Prod.snd (List.mem_singleton.1 hin)
    have : later = i := heq
    omega

namespace Inst

variable {σ τ : Type}

/-- The same instruction, where calls refer to related functions and the accesses to globals to
related globals. -/
inductive Related (func global : σ → τ → Prop) : Inst σ → Inst τ → Prop where
  | const value : Related func global (.const value) (.const value)
  | localGet index : Related func global (.localGet index) (.localGet index)
  | localSet index : Related func global (.localSet index) (.localSet index)
  | localTee index : Related func global (.localTee index) (.localTee index)
  | globalGet {a b} (h : global a b) : Related func global (.globalGet a) (.globalGet b)
  | globalSet {a b} (h : global a b) : Related func global (.globalSet a) (.globalSet b)
  | load offset : Related func global (.load offset) (.load offset)
  | store offset : Related func global (.store offset) (.store offset)
  | binary op : Related func global (.binary op) (.binary op)
  | eqz : Related func global .eqz .eqz
  | call {a b} (h : func a b) : Related func global (.call a) (.call b)
  | block : Related func global .block .block
  | loop : Related func global .loop .loop
  | close : Related func global .close .close
  | br depth : Related func global (.br depth) (.br depth)
  | brIf depth : Related func global (.brIf depth) (.brIf depth)
  | drop : Related func global .drop .drop
  | ret : Related func global .ret .ret

theorem related_of_resolve {func global : σ → Except ε τ} {F G : σ → τ → Prop}
    (hfunc : ∀ {a b}, func a = .ok b → F a b) (hglobal : ∀ {a b}, global a = .ok b → G a b)
    {inst : Inst σ} {inst' : Inst τ} (h : inst.resolve func global = .ok inst') :
    Related F G inst inst' := by
  cases inst with
  | globalGet a =>
    obtain ⟨b, hb, rfl⟩ := ok_of_map h
    exact .globalGet (hglobal hb)
  | globalSet a =>
    obtain ⟨b, hb, rfl⟩ := ok_of_map h
    exact .globalSet (hglobal hb)
  | call a =>
    obtain ⟨b, hb, rfl⟩ := ok_of_map h
    exact .call (hfunc hb)
  | _ => cases h; constructor

end Inst

/-! ### First uses -/

/-- The elements of `xs`, each once, in the order of their first occurrence. -/
structure InOrderOfFirstUse [DecidableEq α] (xs ys : List α) : Prop where
  nodup : ys.Nodup
  mem_iff : ∀ y, y ∈ ys ↔ y ∈ xs
  ordered : ys.Pairwise fun a b => xs.idxOf a < xs.idxOf b

theorem firstUses_concat [DecidableEq α] (xs : List α) (x : α) :
    firstUses (xs ++ [x]) = if x ∈ firstUses xs then firstUses xs else firstUses xs ++ [x] := by
  rw [firstUses, List.foldl_append]
  rfl

theorem inOrderOfFirstUse_firstUses [DecidableEq α] (xs : List α) :
    InOrderOfFirstUse xs (firstUses xs) := by
  induction xs using List.reverseRecOn with
  | nil => exact ⟨List.nodup_nil, fun _ => Iff.rfl, .nil⟩
  | append_singleton xs x ih =>
    have hold {a : α} (ha : a ∈ firstUses xs) : (xs ++ [x]).idxOf a = xs.idxOf a :=
      List.idxOf_append_of_mem ((ih.mem_iff a).1 ha)
    have hordered : (firstUses xs).Pairwise fun a b => (xs ++ [x]).idxOf a < (xs ++ [x]).idxOf b :=
      ih.ordered.imp_of_mem fun ha hb hlt => by rwa [hold ha, hold hb]
    rw [firstUses_concat]
    by_cases hx : x ∈ firstUses xs
    · rw [if_pos hx]
      refine ⟨ih.nodup, fun y => ?_, hordered⟩
      rw [List.mem_append, List.mem_singleton, ih.mem_iff]
      refine ⟨.inl, ?_⟩
      rintro (hy | rfl)
      · exact hy
      · exact (ih.mem_iff y).1 hx
    · rw [if_neg hx]
      have hnew : x ∉ xs := fun hmem => hx ((ih.mem_iff x).2 hmem)
      refine ⟨List.nodup_append.2 ⟨ih.nodup, List.pairwise_singleton _ x, ?_⟩, fun y => ?_,
        List.pairwise_append.2 ⟨hordered, ?_, ?_⟩⟩
      · rintro a ha b hb rfl
        rw [List.mem_singleton.1 hb] at ha
        exact hx ha
      · rw [List.mem_append, List.mem_append, ih.mem_iff]
      · exact List.pairwise_singleton _ x
      · intro a ha b hb
        rw [List.mem_singleton.1 hb, hold ha, List.idxOf_append_of_notMem hnew]
        have hlt := List.idxOf_lt_length_iff.2 ((ih.mem_iff a).1 ha)
        omega

/-! ### Exports -/

/-- The exports of the external ones among some definitions of one kind, in order. -/
structure ExportsOf (kind : ExportKind) (name : α → String) (linkage : α → Linkage)
    (definitions : List α) (exports : List Exported) : Prop where
  mem_iff : ∀ e, e ∈ exports ↔ e.kind = kind ∧
    ∃ x, definitions[e.index]? = some x ∧ linkage x = .external ∧ name x = e.name
  ordered : exports.Pairwise fun a b => a.index < b.index

theorem exportsOf_map_filter (kind : ExportKind) (name : α → String) (linkage : α → Linkage)
    (definitions : List α) :
    ExportsOf kind name linkage definitions
      ((definitions.zipIdx.filter fun p => linkage p.1 == .external).map fun p =>
        ⟨name p.1, kind, p.2⟩) := by
  refine ⟨fun e => ?_, List.pairwise_map.2 ((pairwise_zipIdx definitions).filter _)⟩
  rw [List.mem_map]
  constructor
  · rintro ⟨⟨x, i⟩, hmem, rfl⟩
    obtain ⟨hx, hexternal⟩ := List.mem_filter.1 hmem
    exact ⟨rfl, x, List.mk_mem_zipIdx_iff_getElem?.1 hx, beq_iff_eq.1 hexternal, rfl⟩
  · rintro ⟨rfl, x, hx, hexternal, hname⟩
    refine ⟨(x, e.index), List.mem_filter.2 ⟨?_, beq_iff_eq.2 hexternal⟩, by rw [hname]⟩
    exact List.mk_mem_zipIdx_iff_getElem?.2 hx

/-! ### Images -/

namespace Image

/-- The code of a function, in an image of the module `m`. -/
structure HoldsFunc (image : Image) (m : Module) (f : Func) (c : Code) : Prop where
  type : image.types[c.typeIndex]? = some f.type
  locals : c.locals = f.locals
  body : List.Forall₂ (Inst.Related (IsLastIndex (m.funcs.map Func.name))
    (IsLastIndex (m.globals.map Global.name))) f.body c.body

/-- The image is that of the module. -/
structure Holds (image : Image) (m : Module) : Prop where
  types : InOrderOfFirstUse (m.funcs.map Func.type) image.types
  funcs : List.Forall₂ (image.HoldsFunc m) m.funcs image.funcs
  memory : image.memory = true ↔
    ∃ f ∈ m.funcs, ∃ offset, .load offset ∈ f.body ∨ .store offset ∈ f.body
  globals : image.globals = m.globals.map Global.init
  exports : ∃ globals funcs,
    image.exports = (if image.memory then [⟨"memory", .memory, 0⟩] else []) ++ globals ++ funcs ∧
      ExportsOf .global Global.name Global.linkage m.globals globals ∧
      ExportsOf .func Func.name Func.linkage m.funcs funcs

end Image

namespace Module

variable {m : Module}

theorem usesMemory_iff : m.usesMemory = true ↔
    ∃ f ∈ m.funcs, ∃ offset, .load offset ∈ f.body ∨ .store offset ∈ f.body := by
  have hinst (f : Func) : f.usesMemory = true ↔
      ∃ offset, .load offset ∈ f.body ∨ .store offset ∈ f.body := by
    rw [Func.usesMemory, List.any_eq_true]
    constructor
    · rintro ⟨inst, hmem, huses⟩
      cases inst with
      | load offset => exact ⟨offset, .inl hmem⟩
      | store offset => exact ⟨offset, .inr hmem⟩
      | _ => cases huses
    · rintro ⟨offset, hmem | hmem⟩
      · exact ⟨_, hmem, rfl⟩
      · exact ⟨_, hmem, rfl⟩
  simp only [usesMemory, List.any_eq_true, hinst]

theorem holds_of_image {image : Image} (h : m.image = .ok image) : image.Holds m := by
  unfold Module.image at h
  split at h
  · cases h
  obtain ⟨funcs, hfuncs, rfl⟩ := ok_of_map h
  have htypes := inOrderOfFirstUse_firstUses (m.funcs.map Func.type)
  refine ⟨htypes, ?_, usesMemory_iff, rfl, _, _, rfl, exportsOf_map_filter ..,
    exportsOf_map_filter ..⟩
  have hmem := (List.forall₂_and_left m.funcs funcs).2 ⟨fun f hf => hf, forall₂_of_mapM hfuncs⟩
  refine hmem.imp ?_
  rintro f c ⟨hf, hcode⟩
  obtain ⟨body, hbody, rfl⟩ := ok_of_map hcode
  refine ⟨?_, rfl, (forall₂_of_mapM hbody).imp fun _ _ =>
    Inst.related_of_resolve isLastIndex_of_lookup isLastIndex_of_lookup⟩
  have htype := (htypes.mem_iff f.type).2 (List.mem_map_of_mem hf)
  exact List.getElem?_idxOf htype

theorem holds_of_object {bytes : Bytes} (h : m.object = .ok bytes) :
    ∃ image, Image.decode? bytes = some image ∧ image.Holds m := by
  obtain ⟨image, himage, rfl⟩ := ok_of_map h
  exact ⟨image, image.decode?_encode, holds_of_image himage⟩

/-- A module with two functions of one name, of which `root` calls the second. -/
def redefined : Module where
  id := "redefined"
  globals := [{ name := "seed", linkage := .internal, init := -1 }, { name := "count", init := 7 }]
  funcs :=
    [{ name := "next", linkage := .internal, params := 1, results := 1, body := [.localGet 0] },
     { name := "next", linkage := .internal, params := 1, results := 1,
       body := [.localGet 0, .load 4, .globalGet "count", .binary .add] },
     { name := "root", results := 1, locals := 200, body := [.globalGet "seed", .call "next"] }]

/-- The image of that module. -/
def redefinedImage : Image where
  types := [⟨1, 1⟩, ⟨0, 1⟩]
  funcs :=
    [⟨0, 0, [.localGet 0]⟩, ⟨0, 0, [.localGet 0, .load 4, .globalGet 1, .binary .add]⟩,
     ⟨1, 200, [.globalGet 0, .call 1]⟩]
  memory := true
  globals := [-1, 7]
  exports := [⟨"memory", .memory, 0⟩, ⟨"count", .global, 1⟩, ⟨"root", .func, 2⟩]

theorem holds_of_object_redefined :
    redefined.object = .ok redefinedImage.encode ∧
      ∃ image, Image.decode? redefinedImage.encode = some image ∧ image.Holds redefined := by
  have himage : redefined.image = .ok redefinedImage := by decide
  have hobject : redefined.object = .ok redefinedImage.encode := by
    rw [object, himage]
    rfl
  exact ⟨hobject, holds_of_object hobject⟩

end Module

end ComputeScript
