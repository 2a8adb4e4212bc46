import ComputeScript.Proofs.Verified

/-!
# When wrappers clash

All kernels are looked at before the first wrapper is made, so a kernel that is listed twice and
has no wrapper is given two of one name.  Nothing else goes wrong: `wrappers_unique_iff` says that
a module stays well-formed, and defines each wrapper once, exactly if the kernels that have no
wrapper have distinct names.
-/

namespace ComputeScript

namespace Module

variable {m m' : Module} {fixed : Bool} {kernels : List Kernel}

/-- The name of a wrapper that is defined once is that of one kernel only. -/
theorem count_unexpanded_le_one (h : m.expand fixed kernels = .ok m')
    (honce : ∀ k ∈ kernels, m'.names.count k.wrapperName = 1) (name : String) :
    ((m.unexpanded kernels).map Kernel.name).count name ≤ 1 := by
  by_cases hname : name ∈ (m.unexpanded kernels).map Kernel.name
  · obtain ⟨k, hk, rfl⟩ := List.mem_map.1 hname
    calc ((m.unexpanded kernels).map Kernel.name).count k.name
        ≤ (((m.unexpanded kernels).map Kernel.name).map (· ++ ".expand")).count k.wrapperName :=
          List.count_le_count_map (f := fun name => name ++ ".expand")
      _ = ((m.unexpanded kernels).map Kernel.wrapperName).count k.wrapperName := by
          rw [List.map_map]
          rfl
      _ ≤ m'.names.count k.wrapperName := by
          rw [names_of_expand h, List.count_append]
          exact Nat.le_add_left _ _
      _ = 1 := honce k (mem_unexpanded.1 hk).1
  · rw [List.count_eq_zero_of_not_mem hname]
    exact Nat.zero_le 1

/-- After an expansion that succeeds, a module that verified verifies, and defines the wrapper of
every kernel once, exactly if no two of the kernels that had none share a name. -/
theorem wrappers_unique_iff (m m' : Module) (fixed : Bool) (kernels : List Kernel)
    (hverify : m.verify = .ok ()) (hexpand : m.expand fixed kernels = .ok m') :
    (m'.verify = .ok () ↔ ((m.unexpanded kernels).map Kernel.name).Nodup) ∧
      ((∀ k ∈ kernels, m'.names.count k.wrapperName = 1) ↔
        ((m.unexpanded kernels).map Kernel.name).Nodup) := by
  refine ⟨verify_expand_iff hexpand hverify, fun honce => ?_, fun hdistinct k hk => ?_⟩
  · exact List.nodup_iff_count_le_one.2 (count_unexpanded_le_one hexpand honce)
  · have hnodup := (nodup_names_expand_iff hexpand (verify_eq_ok_iff.1 hverify).1).2 hdistinct
    exact List.count_eq_one_of_mem hnodup (wrapperName_mem_names_of_expand hexpand hk)

/-- A module in which one kernel is named like the wrapper of another. -/
def suffixed : Module where
  id := "suffixed"
  funcs :=
    [{ name := "scale", params := 1, results := 1, body := [.localGet 0] },
     { name := "scale.expand", params := 1 }]

/-- A kernel that has its wrapper may be listed twice, and its wrapper may be a kernel. -/
theorem wrappers_unique_iff_suffixed :
    let kernels : List Kernel := [⟨"scale", ⟨true, true, false⟩⟩,
      ⟨"scale.expand", ⟨true, false, false⟩⟩, ⟨"scale", ⟨true, true, false⟩⟩]
    ∃ m', suffixed.expand false kernels = .ok m' ∧
      m'.names = ["scale", "scale.expand", "scale.expand.expand"] ∧ m'.verify = .ok () ∧
      ∀ k ∈ kernels, m'.names.count k.wrapperName = 1 := by
  intro kernels
  have hexpand : suffixed.expand false kernels = .ok _ := rfl
  have hiff := wrappers_unique_iff suffixed _ false kernels (by decide +kernel) hexpand
  have hdistinct : ((suffixed.unexpanded kernels).map Kernel.name).Nodup := by decide +kernel
  exact ⟨_, hexpand, by decide +kernel, hiff.1.2 hdistinct, hiff.2.2 hdistinct⟩

/-- A module with one kernel. -/
def scaling : Module where
  id := "scaling"
  funcs := [{ name := "scale", params := 1, results := 1, body := [.localGet 0] }]

/-- A kernel that is listed twice is given two wrappers of one name. -/
theorem wrappers_clash_scaling :
    let k : Kernel := ⟨"scale", ⟨true, true, false⟩⟩
    scaling.verify = .ok () ∧ ∃ m', scaling.expand true [k, k] = .ok m' ∧
      m'.verify = .error (.duplicate "scale.expand") ∧ m'.names.count "scale.expand" = 2 := by
  exact ⟨by decide +kernel, _, rfl, by decide +kernel, by decide +kernel⟩

end Module

end ComputeScript
