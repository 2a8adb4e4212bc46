import ComputeScript.Proofs.Object.Contents
import ComputeScript.Proofs.Object.Emission

/-!
# Names that an object does not show

`Module.Renames` says that one module is another with new names for what is internal, with all
references renamed as well.  An object holds the names of its exports only.  References become
indices, and an injective renaming keeps the last index of every name (`lastIndex?_map`); so both
modules have the same object or none (`Module.object_renames`).
-/

namespace ComputeScript

/-! ### Computations that succeed alike -/

section

variable {α β γ ε : Type}

/-- Two computations succeed with the same value, or both fail. -/
def SameOk (x y : Except ε α) : Prop :=
  ∀ a, x = .ok a ↔ y = .ok a

theorem SameOk.refl (x : Except ε α) : SameOk x x :=
  fun _ => Iff.rfl

theorem SameOk.bind {x y : Except ε α} {f g : α → Except ε β} (h : SameOk x y)
    (hf : ∀ a, SameOk (f a) (g a)) : SameOk (x >>= f) (y >>= g) := by
  intro b
  cases x with
  | error e =>
    cases y with
    | error e' => exact ⟨nofun, nofun⟩
    | ok a => cases (h a).2 rfl
  | ok a =>
    cases (h a).1 rfl
    exact hf a b

theorem SameOk.map {x y : Except ε α} (h : SameOk x y) (f : α → β) :
    SameOk (x.map f) (y.map f) := by
  have hmap (z : Except ε α) : z.map f = z >>= fun a => .ok (f a) := by cases z <;> rfl
  rw [hmap, hmap]
  exact h.bind fun _ => .refl _

theorem SameOk.mapM {f : α → Except ε γ} {g : β → Except ε γ} {xs : List α} {ys : List β}
    (h : List.Forall₂ (fun x y => SameOk (f x) (g y)) xs ys) :
    SameOk (xs.mapM f) (ys.mapM g) := by
  induction h with
  | nil => exact .refl _
  | cons hxy _ ih =>
    rw [List.mapM_cons, List.mapM_cons]
    exact hxy.bind fun _ => ih.bind fun _ => .refl _

theorem map_eq_map_of_forall₂ {f : α → γ} {g : β → γ} {xs : List α} {ys : List β}
    (h : List.Forall₂ (fun x y => f x = g y) xs ys) : xs.map f = ys.map g := by
  rwa [← List.forall₂_eq_eq_eq, List.forall₂_map_left_iff, List.forall₂_map_right_iff]

theorem any_eq_any_of_forall₂ {p : α → Bool} {q : β → Bool} {xs : List α} {ys : List β}
    (h : List.Forall₂ (fun x y => p x = q y) xs ys) : xs.any p = ys.any q := by
  have hmap := map_eq_map_of_forall₂ h
  rw [← Function.id_comp p, ← Function.id_comp q, ← List.any_map, ← List.any_map, hmap]

end

/-! ### References -/

/-- A renaming that takes no other name to that of `name` keeps its last index. -/
theorem lastIndex?_map {ρ : String → String} {names : List String} {name : String}
    (h : ∀ n ∈ names, ρ n = ρ name → n = name) :
    lastIndex? (names.map ρ) (ρ name) = lastIndex? names name := by
  have hfilter : names.zipIdx.filter (fun p => ρ p.1 == ρ name) =
      names.zipIdx.filter fun p => p.1 == name := by
    apply List.filter_congr
    intro p hp
    have hmem : p.1 ∈ names := List.fst_mem_of_mem_zipIdx hp
    rw [Bool.eq_iff_iff, beq_iff_eq, beq_iff_eq]
    exact ⟨h p.1 hmem, congrArg ρ⟩
  rw [lastIndex?, lastIndex?, List.zipIdx_map, List.filter_map, List.getLast?_map, Option.map_map,
    ← hfilter]
  rfl

theorem sameOk_lookup {names names' : List String} {name name' : String}
    (h : lastIndex? names name = lastIndex? names' name') :
    SameOk (lookup names name) (lookup names' name') := by
  unfold lookup
  rw [h]
  cases lastIndex? names' name' with
  | none => exact fun _ => ⟨nofun, nofun⟩
  | some index => exact .refl _

namespace Inst

variable {σ τ υ ε : Type} {F G : σ → τ → Prop} {inst : Inst σ} {inst' : Inst τ}

theorem Related.usesMemory_eq (h : Related F G inst inst') :
    inst.usesMemory = inst'.usesMemory := by
  cases h <;> rfl

/-- Instructions with related references resolve alike if related references do. -/
theorem Related.sameOk_resolve {func global : σ → Except ε υ} {func' global' : τ → Except ε υ}
    (hfunc : ∀ {a b}, F a b → SameOk (func a) (func' b))
    (hglobal : ∀ {a b}, G a b → SameOk (global a) (global' b)) (h : Related F G inst inst') :
    SameOk (inst.resolve func global) (inst'.resolve func' global') := by
  cases h with
  | globalGet h => exact (hglobal h).map _
  | globalSet h => exact (hglobal h).map _
  | call h => exact (hfunc h).map _
  | _ => exact .refl _

end Inst

/-! ### Exports -/

/-- Lists of definitions whose external ones have the same names at the same places have the same
exports. -/
theorem map_filter_zipIdx_eq {α : Type} {isExternal : α → Bool} (kind : ExportKind)
    (name : α → String) {xs ys : List α}
    (h : List.Forall₂ (fun x y => isExternal x = isExternal y ∧ (isExternal x → name x = name y))
      xs ys) (start : Nat) :
    ((xs.zipIdx start).filter fun p => isExternal p.1).map
        (fun p => (⟨name p.1, kind, p.2⟩ : Exported)) =
      ((ys.zipIdx start).filter fun p => isExternal p.1).map fun p => ⟨name p.1, kind, p.2⟩ := by
  induction h generalizing start with
  | nil => rfl
  | @cons x y xs ys hxy _ ih =>
    obtain ⟨hlinkage, hname⟩ := hxy
    rw [List.zipIdx_cons, List.zipIdx_cons, List.filter_cons, List.filter_cons]
    by_cases hexternal : isExternal x
    · rw [if_pos hexternal, if_pos (hlinkage ▸ hexternal), List.map_cons, List.map_cons, ih,
        hname hexternal]
    · rw [if_neg hexternal, if_neg (hlinkage ▸ hexternal), ih]

/-! ### Modules -/

namespace Module

/-- What becomes of a reference: it is renamed with what it refers to, and if nothing has its name,
nothing has its new name. -/
def RenamesReference (ρ : String → String) (m m' : Module) (name name' : String) : Prop :=
  if name ∈ m.names then name' = ρ name else name' ∉ m'.names

instance (ρ : String → String) (m m' : Module) (name name' : String) :
    Decidable (RenamesReference ρ m m' name name') :=
  inferInstanceAs (Decidable (if name ∈ m.names then name' = ρ name else name' ∉ m'.names))

/-- The second module is the first one with new names for internal globals and functions, and
perhaps under another id. -/
structure Renames (ρ : String → String) (m m' : Module) : Prop where
  injective : ∀ a ∈ m.names, ∀ b ∈ m.names, ρ a = ρ b → a = b
  external : ∀ name ∈ m.externalNames, ρ name = name
  globals : m'.globals = m.globals.map fun g => { g with name := ρ g.name }
  funcs : List.Forall₂
    (fun f f' => ∃ body, f' = { f with name := ρ f.name, body } ∧
      List.Forall₂
        (Inst.Related (RenamesReference ρ m m') (RenamesReference ρ m m')) f.body body)
    m.funcs m'.funcs

namespace Renames

variable {ρ : String → String} {m m' : Module} (h : m.Renames ρ m')

include h

theorem map_name_globals :
    m'.globals.map Global.name = (m.globals.map Global.name).map ρ := by
  rw [h.globals, List.map_map, List.map_map]
  rfl

theorem map_name_funcs : m'.funcs.map Func.name = (m.funcs.map Func.name).map ρ := by
  rw [List.map_map]
  refine (map_eq_map_of_forall₂ (h.funcs.imp ?_)).symm
  rintro f f' ⟨body, rfl, -⟩
  rfl

theorem map_type_funcs : m.funcs.map Func.type = m'.funcs.map Func.type := by
  refine map_eq_map_of_forall₂ (h.funcs.imp ?_)
  rintro f f' ⟨body, rfl, -⟩
  rfl

theorem map_init_globals : m.globals.map Global.init = m'.globals.map Global.init := by
  rw [h.globals, List.map_map]
  rfl

theorem usesMemory_eq : m.usesMemory = m'.usesMemory := by
  refine any_eq_any_of_forall₂ (h.funcs.imp ?_)
  rintro f f' ⟨body, rfl, hbody⟩
  exact any_eq_any_of_forall₂ (hbody.imp fun _ _ => Inst.Related.usesMemory_eq)

theorem names_eq : m'.names = m.names.map ρ := by
  rw [names, names, h.map_name_globals, h.map_name_funcs, List.map_append]

/-- Among the definitions of one kind, a reference that is renamed finds its definition where that
was. -/
theorem sameOk_lookup {names : List String} (hnames : ∀ n ∈ names, n ∈ m.names)
    {name name' : String} (hname : RenamesReference ρ m m' name name') :
    SameOk (lookup names name) (lookup (names.map ρ) name') := by
  apply ComputeScript.sameOk_lookup
  unfold RenamesReference at hname
  split_ifs at hname with hdefined
  · rw [hname, lastIndex?_map]
    exact fun n hn => h.injective n (hnames n hn) name hdefined
  · have hmap : ∀ n ∈ names.map ρ, n ∈ m'.names := by
      intro n hn
      rw [h.names_eq]
      exact List.map_subset ρ hnames hn
    rw [lastIndex?_eq_none_iff.2 fun hn => hdefined (hnames name hn),
      lastIndex?_eq_none_iff.2 fun hn => hname (hmap name' hn)]

theorem sameOk_mapM_code (types : List FuncType) :
    SameOk (m.funcs.mapM (Func.code types (m.funcs.map Func.name) (m.globals.map Global.name)))
      (m'.funcs.mapM
        (Func.code types (m'.funcs.map Func.name) (m'.globals.map Global.name))) := by
  have hfunc {name name' : String} (hname : RenamesReference ρ m m' name name') :
      SameOk (lookup (m.funcs.map Func.name) name) (lookup (m'.funcs.map Func.name) name') := by
    rw [h.map_name_funcs]
    exact h.sameOk_lookup (fun _ => List.mem_append_right _) hname
  have hglobal {name name' : String} (hname : RenamesReference ρ m m' name name') :
      SameOk (lookup (m.globals.map Global.name) name)
        (lookup (m'.globals.map Global.name) name') := by
    rw [h.map_name_globals]
    exact h.sameOk_lookup (fun _ => List.mem_append_left _) hname
  refine SameOk.mapM (h.funcs.imp ?_)
  rintro f f' ⟨body, rfl, hbody⟩
  refine SameOk.map (SameOk.mapM (hbody.imp fun _ _ => ?_)) _
  exact Inst.Related.sameOk_resolve hfunc hglobal

/-- Both modules export the same, as what is exported keeps its name and its place. -/
theorem exportList_eq : m.exportList = m'.exportList := by
  have hglobals : List.Forall₂ (fun g g' : Global => g.isExternal = g'.isExternal ∧
      (g.isExternal → g.name = g'.name)) m.globals m'.globals := by
    rw [h.globals, List.forall₂_map_right_iff, List.forall₂_same]
    refine fun g hg => ⟨rfl, fun hexternal => (h.external g.name ?_).symm⟩
    exact List.mem_append_left _ (List.mem_map_of_mem (List.mem_filter.2 ⟨hg, hexternal⟩))
  have hfuncs : List.Forall₂ (fun f f' : Func => f.isExternal = f'.isExternal ∧
      (f.isExternal → f.name = f'.name)) m.funcs m'.funcs := by
    refine List.Forall₂.imp ?_
      ((List.forall₂_and_left m.funcs m'.funcs).2 ⟨fun f hf => hf, h.funcs⟩)
    rintro f f' ⟨hf, body, rfl, -⟩
    refine ⟨rfl, fun hexternal => (h.external f.name ?_).symm⟩
    exact List.mem_append_right _ (List.mem_map_of_mem (List.mem_filter.2 ⟨hf, hexternal⟩))
  rw [exportList, exportList, ← h.usesMemory_eq,
    map_filter_zipIdx_eq .global Global.name hglobals 0,
    map_filter_zipIdx_eq .func Func.name hfuncs 0]

end Renames

/-- Names of what is internal do not reach the object: with other names for it, and under any id, a
module has the same object or has none as before. -/
theorem object_renames {ρ : String → String} {m m' : Module} (h : m.Renames ρ m') (bytes : Bytes) :
    m.object = .ok bytes ↔ m'.object = .ok bytes := by
  refine SameOk.map ?_ Image.encode bytes
  unfold image
  rw [← h.exportList_eq, ← h.map_type_funcs, ← h.usesMemory_eq, ← h.map_init_globals]
  cases firstRepeat? [] (m.exportList.map Exported.name) with
  | some name => exact fun _ => ⟨nofun, nofun⟩
  | none => exact (h.sameOk_mapM_code _).map _

/-- A module with a global and a function that are not exported. -/
def seeded : Module where
  id := "first"
  globals := [{ name := "seed", linkage := .internal, init := 3 }, { name := "last" }]
  funcs :=
    [{ name := "next", linkage := .internal, params := 1, results := 1,
       body := [.localGet 0, .globalGet "seed", .binary .add] },
     { name := "root", body := [.const 0, .load 8, .call "next", .globalSet "last"] }]

/-- The same module, where the global has the name that the function had, and the function the name
of the memory. -/
def seededAnew : Module where
  id := "second"
  globals := [{ name := "next", linkage := .internal, init := 3 }, { name := "last" }]
  funcs :=
    [{ name := "memory", linkage := .internal, params := 1, results := 1,
       body := [.localGet 0, .globalGet "next", .binary .add] },
     { name := "root", body := [.const 0, .load 8, .call "memory", .globalSet "last"] }]

theorem object_renames_seeded :
    let ρ (name : String) :=
      if name = "seed" then "next" else if name = "next" then "memory" else name
    seeded.Renames ρ seededAnew ∧
      ∃ bytes, seeded.object = .ok bytes ∧ seededAnew.object = .ok bytes := by
  intro ρ
  have hrenames : seeded.Renames ρ seededAnew := {
    injective := by decide
    external := by decide
    globals := by decide
    funcs :=
      .cons ⟨_, rfl, .cons (.localGet 0) (.cons (.globalGet (by decide))
        (.cons (.binary .add) .nil))⟩
      (.cons ⟨_, rfl, .cons (.const 0) (.cons (.load 8) (.cons (.call (by decide))
        (.cons (.globalSet (by decide)) .nil)))⟩ .nil) }
  obtain ⟨bytes, hbytes⟩ := (exists_object_iff (m := seeded) (by decide)).2 (by decide)
  exact ⟨hrenames, bytes, hbytes, (object_renames hrenames bytes).1 hbytes⟩

end Module

end ComputeScript
