import ComputeScript.Object.Encode
import ComputeScript.Proofs.Symbols

/-!
# Which modules have an object

Two things can keep a module from having an object: two of its exports would have one name, or a
body refers to something that is not there.  `Module.exists_object_eq_ok_iff` takes this apart, from
the table of names up (`exists_lookup_eq_ok_iff`).  In a module that verifies, every reference has a
definition and the names are pairwise distinct, so the only name that can be taken is that of the
memory (`Module.exists_object_iff`).
-/

namespace ComputeScript

theorem exists_map_eq_ok_iff {α β ε : Type} {x : Except ε α} {f : α → β} :
    (∃ y, x.map f = .ok y) ↔ ∃ a, x = .ok a := by
  cases x with
  | error e => exact ⟨nofun, nofun⟩
  | ok a => exact ⟨fun _ => ⟨a, rfl⟩, fun _ => ⟨f a, rfl⟩⟩

theorem exists_mapM_eq_ok_iff {α β ε : Type} {f : α → Except ε β} {xs : List α} :
    (∃ ys, xs.mapM f = .ok ys) ↔ ∀ x ∈ xs, ∃ y, f x = .ok y := by
  induction xs with
  | nil => exact ⟨fun _ => nofun, fun _ => ⟨[], rfl⟩⟩
  | cons x xs ih =>
    rw [List.mapM_cons, List.forall_mem_cons, ← ih]
    cases hx : f x with
    | error e => exact ⟨nofun, nofun⟩
    | ok y =>
      have hcons : (∃ ys, (xs.mapM f).map (y :: ·) = .ok ys) ↔ ∃ ys, xs.mapM f = .ok ys :=
        exists_map_eq_ok_iff
      exact hcons.trans (and_iff_right ⟨y, rfl⟩).symm

/-! ### References -/

theorem lastIndex?_eq_none_iff {names : List String} {name : String} :
    lastIndex? names name = none ↔ name ∉ names := by
  have hmem : name ∈ names ↔ ∃ p ∈ names.zipIdx, p.1 = name := by
    conv_lhs => rw [← List.zipIdx_map_fst 0 names, List.mem_map]
  rw [lastIndex?, Option.map_eq_none_iff, List.getLast?_eq_none_iff, List.filter_eq_nil_iff, hmem]
  simp only [beq_iff_eq, not_exists, not_and]

theorem exists_lookup_eq_ok_iff {names : List String} {name : String} :
    (∃ index, lookup names name = .ok index) ↔ name ∈ names := by
  rw [← not_iff_not, ← lastIndex?_eq_none_iff, lookup]
  cases lastIndex? names name with
  | none => simp
  | some index => simp

theorem Inst.exists_resolve_eq_ok_iff {m : Module} {inst : Inst String} :
    (∃ inst', inst.resolve (lookup (m.funcs.map Func.name)) (lookup (m.globals.map Global.name)) =
      .ok inst') ↔ inst.Resolved m := by
  cases inst with
  | globalGet target | globalSet target =>
    refine exists_map_eq_ok_iff.trans (exists_lookup_eq_ok_iff.trans ?_)
    exact Module.isSome_global?_iff.symm
  | call target =>
    refine exists_map_eq_ok_iff.trans (exists_lookup_eq_ok_iff.trans ?_)
    exact Module.isSome_func?_iff.symm
  | _ => exact ⟨fun _ => trivial, fun _ => ⟨_, rfl⟩⟩

theorem Func.exists_code_eq_ok_iff {m : Module} {f : Func} {types : List FuncType} :
    (∃ c, f.code types (m.funcs.map Func.name) (m.globals.map Global.name) = .ok c) ↔
      f.ReferencesDefined m := by
  rw [Func.referencesDefined_iff, Func.code, exists_map_eq_ok_iff, exists_mapM_eq_ok_iff]
  exact forall₂_congr fun inst _ => Inst.exists_resolve_eq_ok_iff

namespace Module

variable {m : Module}

/-! ### Exports -/

theorem map_name_exportList (m : Module) :
    m.exportList.map Exported.name =
      (if m.usesMemory then [memoryName] else []) ++ m.externalNames := by
  have hzipIdx {α : Type} (xs : List α) (p : α → Bool) (name : α → String) :
      (xs.zipIdx.filter fun x => p x.1).map (fun x => name x.1) = (xs.filter p).map name := by
    conv_rhs => rw [← List.zipIdx_map_fst 0 xs, List.filter_map, List.map_map]
    rfl
  simp only [exportList, externalNames, List.map_append, List.map_map, List.append_assoc,
    Function.comp_def, hzipIdx]
  split <;> rfl

theorem nodup_externalNames (h : m.names.Nodup) : m.externalNames.Nodup :=
  h.sublist ((List.filter_sublist.map _).append (List.filter_sublist.map _))

theorem nodup_map_name_exportList_iff (h : m.names.Nodup) :
    (m.exportList.map Exported.name).Nodup ↔ ¬(m.usesMemory ∧ memoryName ∈ m.externalNames) := by
  rw [map_name_exportList]
  split_ifs with huses
  · simp [huses, nodup_externalNames h]
  · simp [huses, nodup_externalNames h]

/-! ### Objects -/

/-- A module has an object exactly if no two of its exports share a name and all references have a
definition of their kind. -/
theorem exists_object_eq_ok_iff (m : Module) :
    (∃ bytes, m.object = .ok bytes) ↔
      (m.exportList.map Exported.name).Nodup ∧ ∀ f ∈ m.funcs, f.ReferencesDefined m := by
  rw [object, exists_map_eq_ok_iff, image, ← firstRepeat?_nil_eq_none_iff]
  cases firstRepeat? [] (m.exportList.map Exported.name) with
  | some name => exact ⟨nofun, nofun⟩
  | none =>
    rw [exists_map_eq_ok_iff, exists_mapM_eq_ok_iff, and_iff_right rfl]
    exact forall₂_congr fun f _ => Func.exists_code_eq_ok_iff

/-- A module that verifies has an object, unless it uses memory and shows something else under the
name of the memory. -/
theorem exists_object_iff (h : m.verify = .ok ()) :
    (∃ bytes, m.object = .ok bytes) ↔ ¬(m.usesMemory ∧ memoryName ∈ m.externalNames) := by
  obtain ⟨hnodup, hdefects⟩ := verify_eq_ok_iff.1 h
  have hreferences : ∀ f ∈ m.funcs, f.ReferencesDefined m := fun f hf =>
    Func.referencesDefined_iff.2 (Func.resolved_of_defect? (hdefects f hf))
  rw [exists_object_eq_ok_iff, nodup_map_name_exportList_iff hnodup]
  exact and_iff_left hreferences

/-- Emission succeeds exactly if the names of the exports, the memory's among them if it is used,
are pairwise distinct and every reference has a definition.  On a module that verifies it fails
exactly if the memory is used and its name taken; without memory any name may be shown. -/
theorem object_succeeds_iff (m : Module) :
    ((∃ bytes, m.object = .ok bytes) ↔
      ((if m.usesMemory then ["memory"] else []) ++ m.externalNames).Nodup ∧
        ∀ f ∈ m.funcs, f.ReferencesDefined m) ∧
      (m.verify = .ok () →
        ((∃ fault, m.object = .error fault) ↔ m.usesMemory ∧ "memory" ∈ m.externalNames) ∧
          (m.usesMemory = false → ∃ bytes, m.object = .ok bytes)) := by
  constructor
  · rw [exists_object_eq_ok_iff, map_name_exportList]
    rfl
  intro hverify
  have hobject := exists_object_iff hverify
  constructor
  · rw [← not_iff_not, ← memoryName, ← hobject]
    cases m.object with
    | error fault => simp
    | ok bytes => simp
  · intro hfree
    apply hobject.2
    simp [hfree]

/-- A module that shows a function under the name of the memory, which it does not use. -/
def recalling : Module where
  id := "recalling"
  globals := [{ name := "last", linkage := .internal, init := 7 }]
  funcs :=
    [{ name := "memory", results := 1, body := [.globalGet "last"] },
     { name := "root", params := 1, results := 1,
       body := [.localGet 0, .globalSet "last", .call "memory"] }]

/-- The same module, where that function reads the memory. -/
def reading : Module where
  id := "reading"
  globals := recalling.globals
  funcs := { name := "memory", results := 1, body := [.globalGet "last", .load 0] } ::
    recalling.funcs.tail

theorem object_succeeds_iff_recalling :
    recalling.verify = .ok () ∧ "memory" ∈ recalling.externalNames ∧
      (∃ bytes, recalling.object = .ok bytes) ∧
      reading.verify = .ok () ∧ ∃ fault, reading.object = .error fault := by
  have hrecalling : recalling.verify = .ok () := by decide
  have hreading : reading.verify = .ok () := by decide
  refine ⟨hrecalling, by decide, ?_, hreading, ?_⟩
  · exact ((object_succeeds_iff recalling).2 hrecalling).2 (by decide)
  · exact ((object_succeeds_iff reading).2 hreading).1.2 (by decide)

end Module

end ComputeScript
