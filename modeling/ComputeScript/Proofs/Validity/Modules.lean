import ComputeScript.Proofs.Compile.Settled
import ComputeScript.Proofs.Object.Emission
import ComputeScript.Proofs.Validity.Code

/-!
# Modules that type-check

A module type-checks if each of its functions does, where names stand for the definitions that they
find.  Every pass keeps that, and where the names of a module are pairwise distinct its image
type-checks against what the image itself has (`Module.isTyped_of_image`).
-/

namespace ComputeScript

variable {m m' : Module} {keep : List String} {fixed : Bool} {kernels : List Kernel}

namespace Module

/-- What a function of `m` may refer to.  There is a memory in every module that uses one. -/
def context (m : Module) (f : Func) : Context String where
  locals := f.localCount
  results := f.results.toNat
  func? name := (m.func? name).map Func.type
  hasGlobal name := (m.global? name).isSome
  hasMemory := true

theorem func?_context (m : Module) (f : Func) (name : String) :
    (m.context f).func? name = (m.func? name).map Func.type := rfl

theorem hasGlobal_context (m : Module) (f : Func) (name : String) :
    (m.context f).hasGlobal name = (m.global? name).isSome := rfl

/-- Every function type-checks for its parameters, its results and its locals. -/
def TypeChecks (m : Module) : Prop :=
  ∀ f ∈ m.funcs, (m.context f).accepts f.body

instance : DecidablePred TypeChecks := fun m =>
  inferInstanceAs (Decidable (∀ f ∈ m.funcs, (m.context f).accepts f.body))

/-! ### Passes -/

theorem typeChecks_internalize (h : m.TypeChecks) : (m.internalize keep).TypeChecks := by
  intro f' hf'
  obtain ⟨f, hf, rfl⟩ := List.mem_map.1 hf'
  refine Context.accepts_of_references (h f hf) rfl rfl (fun target _ t ht => ?_)
    (fun target _ ht => ?_) fun _ _ _ => rfl
  · rwa [func?_context, func?_internalize, Option.map_map]
  · rw [hasGlobal_context, isSome_global?_iff] at ht ⊢
    rwa [internalize, List.map_map]

theorem typeChecks_fold (h : m.TypeChecks) : m.fold.TypeChecks := by
  intro f' hf'
  obtain ⟨f, hf, rfl⟩ := List.mem_map.1 hf'
  have hfolded : (m.context f).accepts f.fold.body := by
    rw [Func.fold, Context.accepts_foldBody]
    exact h f hf
  refine Context.accepts_of_references hfolded rfl rfl (fun target _ t ht => ?_)
    (fun _ _ ht => ht) fun _ _ _ => rfl
  rwa [func?_context, func?_fold, Option.map_map]

/-- Elimination keeps all that a function that is left refers to. -/
theorem typeChecks_eliminate (hnodup : m.names.Nodup) (h : m.TypeChecks) :
    m.eliminate.TypeChecks := by
  intro f hf
  obtain ⟨hmem, hlive⟩ := List.mem_filter.1 hf
  have htargets := live_references (List.contains_iff_mem.1 hlive) (func?_of_mem hnodup hmem)
  refine Context.accepts_of_references (h f hmem) rfl rfl (fun target ht t hfunc => ?_)
    (fun target ht hglobal => ?_) fun _ _ _ => rfl
  · rwa [func?_context, eliminate, restrict_func? m (htargets target ht)]
  · rwa [hasGlobal_context, eliminate, restrict_global? m (htargets target ht)]

/-- Wrappers type-check, and they change nothing of what the others refer to. -/
theorem typeChecks_expand (hexpand : m.expand fixed kernels = .ok m') (h : m.TypeChecks) :
    m'.TypeChecks := by
  have hfunc {name : String} {f : Func} (hname : m.func? name = some f) :
      m'.func? name = some f := by
    rw [func?_of_expand hexpand (by simp [defines, hname]), hname]
  obtain ⟨hfits, hm'⟩ := expand_eq_ok_iff.1 hexpand
  intro f hf
  rw [hm', List.mem_append] at hf
  rcases hf with hf | hf
  · refine Context.accepts_of_references (h f hf) rfl rfl (fun target _ t ht => ?_)
      (fun target _ ht => ?_) fun _ _ _ => rfl
    · obtain ⟨g, hg, rfl⟩ := Option.map_eq_some_iff.1 ht
      rw [func?_context, hfunc hg, Option.map_some]
    · rwa [hasGlobal_context, isSome_global?_iff, globals_of_expand hexpand, ← isSome_global?_iff]
  · obtain ⟨k, hk, rfl⟩ := List.mem_map.1 hf
    obtain ⟨g, hg, hparams, hresults⟩ := Kernel.fault?_eq_none_iff.1 (hfits k hk)
    refine Kernel.accepts_wrapperBody fixed rfl rfl rfl ?_
    rw [func?_context, hfunc hg, Option.map_some, Func.type, hparams, hresults]

end Module

/-! ### Images -/

/-- Every function type-checks against what the image has, every export refers to something in it,
and no two exports share a name. -/
structure Image.IsTyped (image : Image) : Prop where
  funcs : ∀ c ∈ image.funcs, ∃ t, image.types[c.typeIndex]? = some t ∧
    (image.context t c.locals).accepts c.body
  exports : ∀ e ∈ image.exports, image.hasExported e
  distinct : (image.exports.map Exported.name).Nodup

namespace Image.Holds

variable {image : Image}

theorem memory_eq (h : image.Holds m) : image.memory = m.usesMemory := by
  rw [Bool.eq_iff_iff, h.memory, Module.usesMemory_iff]

theorem hasExported (h : image.Holds m) : ∀ e ∈ image.exports, image.hasExported e := by
  have hlength {α β : Type} {as : List α} {bs : List β} {i : Nat} {a : α}
      (hsame : bs.length = as.length) (ha : as[i]? = some a) : decide (i < bs.length) := by
    obtain ⟨hi, -⟩ := List.getElem?_eq_some_iff.1 ha
    exact decide_eq_true (hsame ▸ hi)
  obtain ⟨globals, funcs, hexports, hglobals, hfuncs⟩ := h.exports
  intro e he
  rw [hexports, List.mem_append, List.mem_append] at he
  unfold Image.hasExported
  rcases he with (he | he) | he
  · split_ifs at he with hmemory
    · obtain rfl := List.mem_singleton.1 he
      simp [hmemory]
    · cases he
  · obtain ⟨hkind, g, hg, -⟩ := (hglobals.mem_iff e).1 he
    rw [hkind]
    exact hlength (by rw [h.globals, List.length_map]) hg
  · obtain ⟨hkind, f, hf, -⟩ := (hfuncs.mem_iff e).1 he
    rw [hkind]
    exact hlength h.funcs.length_eq.symm hf

/-- Where names are distinct, the index of a call leads to the function that its name finds. -/
theorem funcType?_eq (h : image.Holds m) (hnodup : m.names.Nodup) {name : String} {index : Nat}
    (hindex : IsLastIndex (m.funcs.map Func.name) name index) :
    image.funcType? index = (m.func? name).map Func.type := by
  have hname := hindex.1
  rw [List.getElem?_map] at hname
  obtain ⟨f, hf, rfl⟩ := Option.map_eq_some_iff.1 hname
  rw [Module.func?_of_mem hnodup (List.mem_of_getElem? hf)]
  obtain ⟨hi, rfl⟩ := List.getElem?_eq_some_iff.1 hf
  have hi' : index < image.funcs.length := h.funcs.length_eq ▸ hi
  rw [Image.funcType?, List.getElem?_eq_getElem hi']
  exact (h.funcs.get hi hi').type

/-- What a function refers to in a module stands for the same in its image. -/
theorem embeds (h : image.Holds m) (hnodup : m.names.Nodup) {f : Func} {c : Code}
    (hc : image.HoldsFunc m f c) :
    (m.context f).Embeds (IsLastIndex (m.funcs.map Func.name))
      (IsLastIndex (m.globals.map Global.name)) (image.context f.type c.locals) where
  locals := by rw [hc.locals]; rfl
  results := rfl
  func hindex ht := by
    rw [Module.func?_context] at ht
    exact (h.funcType?_eq hnodup hindex).trans ht
  global hindex _ := by
    obtain ⟨hi, -⟩ := List.getElem?_eq_some_iff.1 hindex.1
    refine decide_eq_true ?_
    rw [h.globals, List.length_map]
    rwa [List.length_map] at hi

end Image.Holds

namespace Module

/-- No two exports of an image share a name. -/
theorem exports_of_image {image : Image} (himage : m.image = .ok image) :
    image.exports = m.exportList ∧ (m.exportList.map Exported.name).Nodup := by
  unfold Module.image at himage
  split at himage
  · cases himage
  · rename_i hrepeat
    obtain ⟨codes, -, rfl⟩ := ok_of_map himage
    exact ⟨rfl, firstRepeat?_nil_eq_none_iff.1 hrepeat⟩

/-- A module that has an image shows no name twice. -/
theorem nodup_externalNames_of_image {image : Image} (himage : m.image = .ok image) :
    m.externalNames.Nodup := by
  have hnodup := (exports_of_image himage).2
  rw [map_name_exportList] at hnodup
  exact (List.nodup_append.1 hnodup).2.1

/-- The image of a module type-checks if the module does and its names are pairwise distinct. -/
theorem isTyped_of_image {image : Image} (hnodup : m.names.Nodup) (h : m.TypeChecks)
    (himage : m.image = .ok image) : image.IsTyped := by
  have hholds := holds_of_image himage
  obtain ⟨hexports, hdistinct⟩ := exports_of_image himage
  refine ⟨fun c hc => ?_, hholds.hasExported, hexports ▸ hdistinct⟩
  obtain ⟨i, hi, rfl⟩ := List.mem_iff_getElem.1 hc
  have hi' : i < m.funcs.length := hholds.funcs.length_eq ▸ hi
  have hf : m.funcs[i] ∈ m.funcs := List.getElem_mem hi'
  have hcode := hholds.funcs.get hi' hi
  refine ⟨_, hcode.type, Context.accepts_of_related (hholds.embeds hnodup hcode) hcode.body
    (fun inst hinst huses => ?_) (h _ hf)⟩
  show image.memory = true
  rw [hholds.memory_eq, usesMemory, List.any_eq_true]
  exact ⟨_, hf, List.any_eq_true.2 ⟨inst, hinst, huses⟩⟩

/-! ### Wrappers that are shown -/

theorem externalNames_eq (m : Module) :
    m.externalNames = (m.symbols.filter fun s => s.2 == .external).map Prod.fst := by
  simp only [externalNames, symbols, List.filter_append, List.map_append, List.filter_map,
    List.map_map]
  rfl

/-- What is optimized still shows every wrapper that was made and may stay visible. -/
theorem sublist_externalNames_optimized (hexpand : m.expand fixed kernels = .ok m')
    (hkept : ∀ k ∈ kernels, k.wrapperName ∈ keep) :
    ((m.unexpanded kernels).map Kernel.wrapperName).Sublist
      (m'.internalize keep).fold.eliminate.externalNames := by
  let wrappers := (m.unexpanded kernels).map fun k => (k.wrapperName, Linkage.external)
  have hwrappers : wrappers.map Prod.fst = (m.unexpanded kernels).map Kernel.wrapperName :=
    List.map_map
  have hsymbols : (m'.internalize keep).fold.symbols =
      (m.symbols.map fun s => (s.1, s.2.keepIf (keep.contains s.1))) ++ wrappers := by
    rw [symbols_fold, symbols_internalize, symbols_of_expand hexpand, List.map_append]
    refine congrArg _ ((List.map_congr_left fun s hs => ?_).trans (List.map_id' _))
    obtain ⟨k, hk, rfl⟩ := List.mem_map.1 hs
    dsimp only
    rw [List.contains_iff_mem.2 (hkept k (mem_unexpanded.1 hk).1)]
    rfl
  have hlive : ∀ s ∈ wrappers, (m'.internalize keep).fold.live.contains s.1 = true := by
    intro s hs
    obtain ⟨k, hk, rfl⟩ := List.mem_map.1 hs
    rw [List.contains_iff_mem, mem_live_iff]
    refine .external (mem_externalNames_iff.2 ?_)
    rw [hsymbols]
    exact List.mem_append_right _ hs
  have hexternal : ∀ s ∈ wrappers, (s.2 == Linkage.external) = true := by
    intro s hs
    obtain ⟨k, -, rfl⟩ := List.mem_map.1 hs
    rfl
  rw [externalNames_eq, eliminate, symbols_restrict, hsymbols, List.filter_append,
    List.filter_append, List.filter_eq_self.2 hlive, List.filter_eq_self.2 hexternal,
    List.map_append, hwrappers]
  exact List.sublist_append_right _ _

end Module

end ComputeScript
