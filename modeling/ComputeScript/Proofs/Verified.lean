import ComputeScript.Proofs.Symbols

/-!
# Passes keep modules well-formed

Whether a function has a defect depends on its results, its locals and its body, and on the kinds of
the names that its body refers to (`Func.defect?_of_resolved`); folding changes nothing of that.
Every pass keeps the kinds of the names that are left, or refers to nothing else, so that a module
that verifies verifies after it.
-/

namespace ComputeScript

variable {m m' : Module}

/-- An instruction stays resolved as long as what it refers to stays what it is. -/
theorem Inst.Resolved.mono {inst : Inst String} (h : inst.Resolved m)
    (hkept : ∀ target, inst.reference? = some target →
      ((m.func? target).isSome → (m'.func? target).isSome) ∧
        ((m.global? target).isSome → (m'.global? target).isSome)) : inst.Resolved m' := by
  cases inst with
  | globalGet target | globalSet target => exact (hkept target rfl).2 h
  | call target => exact (hkept target rfl).1 h
  | _ => trivial

/-- Instructions stay resolved in a module with the names of this one. -/
theorem Inst.Resolved.of_subset {inst : Inst String} (h : inst.Resolved m)
    (hfuncs : m.funcs.map Func.name ⊆ m'.funcs.map Func.name)
    (hglobals : m.globals.map Global.name ⊆ m'.globals.map Global.name) : inst.Resolved m' := by
  refine h.mono fun target _ => ?_
  simp only [Module.isSome_func?_iff, Module.isSome_global?_iff]
  exact ⟨fun ht => hfuncs ht, fun ht => hglobals ht⟩

namespace Func

variable {f f' : Func} {depth : Nat} {body : List (Inst String)}

/-- A body has no defect in another function and another module if the locals are as many and its
instructions are resolved. -/
theorem bodyDefect?_of_resolved (hlocals : f'.localCount = f.localCount)
    (hresolved : ∀ inst ∈ body, inst.Resolved m') (h : f.bodyDefect? m depth body = none) :
    f'.bodyDefect? m' depth body = none := by
  rw [bodyDefect?_eq_none_iff] at h ⊢
  rw [hlocals]
  exact ⟨hresolved, h.2⟩

theorem bodyDefect?_of_folds {body' : List (Inst String)} (h : ComputeScript.Folds body body') :
    f.bodyDefect? m depth body' = f.bodyDefect? m depth body := by
  induction h generalizing depth with
  | binary code _ | eqz v code => rfl
  | cons inst _ ih =>
    cases inst with
    | localGet _ | localSet _ | localTee _ | globalGet _ | globalSet _ | call _ | br _ | brIf _ =>
      exact if_congr Iff.rfl ih rfl
    | close =>
      cases depth with
      | zero => rfl
      | succ depth => exact ih
    | _ => exact ih

theorem bodyDefect?_foldBody (body : List (Inst String)) :
    f.bodyDefect? m depth (foldBody body).1 = f.bodyDefect? m depth body :=
  foldBody_invariant bodyDefect?_of_folds body

/-- A function without a defect has none in another module either that resolves its instructions,
whatever its name and its linkage. -/
theorem defect?_of_resolved (h : f.defect? m = none) (hresults : f'.results = f.results)
    (hlocals : f'.localCount = f.localCount) (hbody : f'.body = f.body)
    (hresolved : ∀ inst ∈ f.body, inst.Resolved m → inst.Resolved m') : f'.defect? m' = none := by
  have hall := resolved_of_defect? h
  rw [defect?_eq_none_iff] at h ⊢
  rw [hresults, hbody]
  exact ⟨h.1, bodyDefect?_of_resolved hlocals (fun inst hi => hresolved inst hi (hall inst hi)) h.2⟩

theorem defect?_fold (h : f.defect? m = none) : f.fold.defect? m = none := by
  rw [defect?_eq_none_iff] at h ⊢
  have hbody : f.bodyDefect? m 0 f.fold.body = none := (bodyDefect?_foldBody f.body).trans h.2
  have hlocals : f.fold.localCount = f.localCount := rfl
  exact ⟨h.1, bodyDefect?_of_resolved hlocals (bodyDefect?_eq_none_iff.1 hbody).1 hbody⟩

end Func

/-- Wrappers have no defect wherever their kernel is a function. -/
theorem Kernel.defect?_wrapper {k : Kernel} {fixed : Bool} (h : (m.func? k.name).isSome) :
    (k.wrapper fixed).defect? m = none := by
  rw [Func.defect?_eq_none_iff]
  refine ⟨Nat.zero_le 1, ?_⟩
  -- nothing in the loop depends on the module but the call of the kernel
  have hbody : (k.wrapper fixed).bodyDefect? m 0 (k.wrapper fixed).body =
      if (m.func? k.name).isSome then none else some (.noFunc k.wrapperName k.name) := by
    obtain ⟨name, takesIn, returnsOut, takesIndex⟩ := k
    cases fixed <;> cases takesIn <;> cases returnsOut <;> cases takesIndex <;> rfl
  rw [hbody, if_pos h]

namespace Module

variable {keep : List String} {fixed : Bool} {kernels : List Kernel}

theorem verify_internalize (keep : List String) (h : m.verify = .ok ()) :
    (m.internalize keep).verify = .ok () := by
  rw [verify_eq_ok_iff] at h ⊢
  refine ⟨by rw [names_internalize]; exact h.1, fun f' hf' => ?_⟩
  obtain ⟨f, hf, rfl⟩ := List.mem_map.1 hf'
  have hfuncs : (m.internalize keep).funcs.map Func.name = m.funcs.map Func.name := List.map_map
  have hglobals : (m.internalize keep).globals.map Global.name = m.globals.map Global.name :=
    List.map_map
  exact Func.defect?_of_resolved (h.2 f hf) rfl rfl rfl fun inst _ hinst =>
    hinst.of_subset (fun _ hn => hfuncs ▸ hn) fun _ hn => hglobals ▸ hn

theorem verify_fold (h : m.verify = .ok ()) : m.fold.verify = .ok () := by
  rw [verify_eq_ok_iff] at h ⊢
  refine ⟨by rw [names_fold]; exact h.1, fun f' hf' => ?_⟩
  obtain ⟨f, hf, rfl⟩ := List.mem_map.1 hf'
  have hfuncs : m.fold.funcs.map Func.name = m.funcs.map Func.name := List.map_map
  exact Func.defect?_of_resolved (Func.defect?_fold (h.2 f hf)) rfl rfl rfl fun inst _ hinst =>
    hinst.of_subset (fun _ hn => hfuncs ▸ hn) fun _ hn => hn

theorem verify_eliminate (h : m.verify = .ok ()) : m.eliminate.verify = .ok () := by
  rw [verify_eq_ok_iff] at h ⊢
  refine ⟨h.1.sublist (names_eliminate_sublist m), fun f hf => ?_⟩
  obtain ⟨hmem, hlive⟩ := List.mem_filter.1 hf
  refine Func.defect?_of_resolved (h.2 f hmem) rfl rfl rfl fun inst hi hinst => ?_
  refine hinst.mono fun target ht => ?_
  have htarget : target ∈ m.live :=
    live_references (List.contains_iff_mem.1 hlive) (func?_of_mem h.1 hmem) target
      (List.mem_filterMap.2 ⟨inst, hi, ht⟩)
  rw [eliminate, restrict_func? m htarget, restrict_global? m htarget]
  exact ⟨fun h => h, fun h => h⟩

/-- The wrappers leave a module well-formed exactly if they do not clash. -/
theorem verify_expand_iff (hexpand : m.expand fixed kernels = .ok m') (h : m.verify = .ok ()) :
    m'.verify = .ok () ↔ ((m.unexpanded kernels).map Kernel.name).Nodup := by
  rw [verify_eq_ok_iff] at h ⊢
  rw [nodup_names_expand_iff hexpand h.1]
  refine ⟨fun hall => hall.1, fun hdistinct => ⟨hdistinct, fun f hf => ?_⟩⟩
  obtain ⟨hfits, rfl⟩ := expand_eq_ok_iff.1 hexpand
  have hfuncs : m.funcs.map Func.name ⊆
      (m.funcs ++ (m.unexpanded kernels).map (Kernel.wrapper fixed)).map Func.name :=
    List.map_subset _ (List.subset_append_left _ _)
  rcases List.mem_append.1 hf with hf | hf
  · exact Func.defect?_of_resolved (h.2 f hf) rfl rfl rfl fun inst _ hinst =>
      hinst.of_subset hfuncs fun _ hn => hn
  · obtain ⟨k, hk, rfl⟩ := List.mem_map.1 hf
    obtain ⟨f, hfunc, -⟩ := Kernel.fault?_eq_none_iff.1 (hfits k hk)
    refine Kernel.defect?_wrapper (isSome_func?_iff.2 (hfuncs (isSome_func?_iff.1 ?_)))
    rw [hfunc]
    rfl

theorem verify_expand (hdistinct : (kernels.map Kernel.name).Nodup)
    (hexpand : m.expand fixed kernels = .ok m') (h : m.verify = .ok ()) : m'.verify = .ok () :=
  (verify_expand_iff hexpand h).2 (hdistinct.sublist (List.filter_sublist.map _))

end Module

end ComputeScript
