import ComputeScript.Proofs.Text
import ComputeScript.Target

/-!
# Registered machines

A triple is made of the components that stand between the dashes of its text (`Triple.MadeOf`), and
that is what `Triple.parse?` reads off any text (`Triple.parse?_eq_some_iff`).  A machine can be
made for a configuration that fits a registered architecture (`Config.Fits`), and for no other
(`Machine.create_exact`).  A triple names its architecture first, so whether a machine launches
kernels natively, which is read off the beginning of its triple, depends on its architecture only
(`Machine.native_iff_of_create`).
-/

namespace ComputeScript

/-! ### Triples -/

namespace Triple

/-- A triple is made of at most four components, the first of which is its architecture; the second
and the third read `unknown` where they are missing. -/
structure MadeOf (triple : Triple) (components : List String) : Prop where
  text : "-".intercalate components = triple.text
  separate : ∀ component ∈ components, '-' ∉ component.toList
  length_le : components.length ≤ 4
  arch : components[0]? = some triple.arch
  vendor : triple.vendor = components[1]?.getD unknown
  os : triple.os = components[2]?.getD unknown
  env : triple.env = components[3]?

variable {text : String} {triple : Triple} {components : List String}

theorem ofFields?_cons {first : List Char} (hfirst : first ≠ []) (others : List (List Char)) :
    ofFields? text (first :: others) =
      if others.length ≤ 3 then
        some
          { text, arch := .ofList first
            vendor := (others.map String.ofList)[0]?.getD unknown
            os := (others.map String.ofList)[1]?.getD unknown
            env := (others.map String.ofList)[2]? }
      else none := by
  obtain ⟨c, cs, rfl⟩ := List.exists_cons_of_ne_nil hfirst
  rcases others with _ | ⟨vendor, _ | ⟨os, _ | ⟨env, _ | ⟨fifth, others⟩⟩⟩⟩ <;> rfl

theorem map_ofList_toList (components : List String) :
    (components.map String.toList).map String.ofList = components := by
  simp [Function.comp_def]

/-- The components of a text are the fields between its dashes. -/
theorem fields_eq_map_toList_iff :
    Text.fields '-' text.toList = components.map String.toList ↔
      components ≠ [] ∧ (∀ component ∈ components, '-' ∉ component.toList) ∧
        "-".intercalate components = text := by
  rw [Text.fields_eq_iff, ← String.toList_inj, String.toList_intercalate]
  simp

/-- A text names the triple that is made of what stands between its dashes, where this begins with
an architecture. -/
theorem parse?_eq_some_iff :
    parse? text = some triple ↔
      Text.Trims text triple.text ∧ triple.arch ≠ "" ∧ ∃ components, triple.MadeOf components := by
  rw [← Text.trim_eq_iff, parse?, ← Text.toList_trim]
  constructor
  · intro h
    rcases hfields : Text.fields '-' (Text.trim text).toList with _ | ⟨first, others⟩
    · exact absurd hfields (Text.fields_ne_nil _ _)
    rw [hfields] at h
    have hfirst : first ≠ [] := by
      rintro rfl
      cases h
    rw [ofFields?_cons hfirst] at h
    split_ifs at h with hlength
    have hcomponents : Text.fields '-' (Text.trim text).toList =
        ((first :: others).map String.ofList).map String.toList := by
      simpa [Function.comp_def] using hfields
    have hjoin := fields_eq_map_toList_iff.1 hcomponents
    cases h
    refine ⟨rfl, by simpa using hfirst, (first :: others).map String.ofList, ?_⟩
    exact
      { text := hjoin.2.2
        separate := hjoin.2.1
        length_le := by
          rw [List.length_map, List.length_cons]
          omega
        arch := rfl
        vendor := rfl
        os := rfl
        env := rfl }
  · rintro ⟨htext, harch, components, h⟩
    rcases components with _ | ⟨arch, others⟩
    · cases h.arch
    obtain rfl : arch = triple.arch := Option.some.inj h.arch
    have hfields := fields_eq_map_toList_iff.2 ⟨List.cons_ne_nil _ _, h.separate, h.text⟩
    have hlength : (others.map String.toList).length ≤ 3 := by
      have hle := h.length_le
      rw [List.length_cons] at hle
      rw [List.length_map]
      omega
    rw [htext, hfields, List.map_cons, ofFields?_cons (by simpa using harch), if_pos hlength,
      map_ofList_toList, String.ofList_toList]
    have hvendor : others[0]?.getD unknown = triple.vendor := h.vendor.symm
    have hos : others[1]?.getD unknown = triple.os := h.os.symm
    have henv : others[2]? = triple.env := h.env.symm
    rw [hvendor, hos, henv]

/-- The text of a triple names it again. -/
theorem parse?_text (h : parse? text = some triple) : parse? triple.text = some triple := by
  obtain ⟨htrims, harch, hmade⟩ := parse?_eq_some_iff.1 h
  exact parse?_eq_some_iff.2 ⟨htrims.self, harch, hmade⟩

/-- A triple begins with its architecture. -/
theorem MadeOf.arch_isPrefix (h : triple.MadeOf components) :
    triple.arch.toList <+: triple.text.toList := by
  rcases components with _ | ⟨arch, others⟩
  · cases h.arch
  obtain rfl : arch = triple.arch := Option.some.inj h.arch
  rw [← h.text]
  cases others with
  | nil => exact String.intercalate_singleton ▸ List.prefix_rfl
  | cons vendor others =>
    rw [String.intercalate_cons_cons, String.append_assoc, String.toList_append]
    exact List.prefix_append _ _

end Triple

/-! ### Machines -/

/-- The triple of a configuration, without the blanks around it, is made of one to four components,
of which the first names a registered architecture; this has the processor, which is `generic` where
none is named; and each feature is a sign before one of its features. -/
structure Config.Fits (config : Config) (components : List String) (arch : Arch) : Prop where
  trims : Text.Trims config.triple ("-".intercalate components)
  separate : ∀ component ∈ components, '-' ∉ component.toList
  length_le : components.length ≤ 4
  registered : arch ∈ Arch.all
  name : components[0]? = some arch.name
  cpu : config.cpu.getD "generic" ∈ arch.cpus
  features : ∀ feature ∈ config.features, ∃ name ∈ arch.features,
    feature = "+" ++ name ∨ feature = "-" ++ name

theorem Arch.knowsFeature_iff {arch : Arch} {feature : String} :
    arch.knowsFeature feature = true ↔
      ∃ name ∈ arch.features, feature = "+" ++ name ∨ feature = "-" ++ name := by
  have hsigned {sign : Char} {name : List Char} (h : feature.toList = sign :: name) :
      feature = String.singleton sign ++ String.ofList name := by
    apply String.toList_inj.1
    rw [h, String.toList_append, String.toList_singleton, String.toList_ofList]
    rfl
  constructor
  · intro h
    unfold knowsFeature at h
    split at h
    next name hname => exact ⟨_, List.contains_iff_mem.1 h, .inl (hsigned hname)⟩
    next name hname => exact ⟨_, List.contains_iff_mem.1 h, .inr (hsigned hname)⟩
    · cases h
  · rintro ⟨name, hname, rfl | rfl⟩ <;> simpa [knowsFeature] using hname

theorem Arch.find?_eq_some_iff {name : String} {arch : Arch} :
    find? name = some arch ↔ arch ∈ all ∧ arch.name = name := by
  constructor
  · intro h
    exact ⟨List.mem_of_find?_eq_some h,
      eq_of_beq (List.find?_some (p := fun arch : Arch => arch.name == name) h)⟩
  · rintro ⟨harch, rfl⟩
    simp only [all, List.mem_cons, List.not_mem_nil, or_false] at harch
    rcases harch with rfl | rfl <;> rfl

namespace Machine

variable {config : Config} {machine : Machine}

theorem create_eq_noTarget_iff :
    create config = .error .noTarget ↔ ∀ c ∈ config.triple.toList, Text.isBlank c = true := by
  rw [← Text.trim_eq_empty_iff, ← String.toList_inj, Text.toList_trim]
  unfold create
  split_ifs with hblank
  · exact iff_of_true rfl (List.isEmpty_iff.1 hblank)
  · refine iff_of_false ?_ (mt List.isEmpty_iff.2 hblank)
    split
    · exact nofun
    split
    · exact nofun
    dsimp only
    split_ifs <;> exact nofun

theorem create_eq_ok_iff :
    create config = .ok machine ↔
      Triple.parse? config.triple = some machine.triple ∧
        Arch.find? machine.triple.arch = some machine.arch ∧
        config.cpu.getD "generic" ∈ machine.arch.cpus ∧
        (∀ feature ∈ config.features, machine.arch.knowsFeature feature = true) ∧
        machine = { machine with
          cpu := config.cpu.getD "generic", features := config.features
          optLevel := config.optLevel, fileType := config.fileType } := by
  constructor
  · intro h
    unfold create at h
    split_ifs at h
    rcases ht : Triple.parse? config.triple with _ | triple <;> rw [ht] at h
    · cases h
    rcases ha : Arch.find? triple.arch with _ | arch <;> simp only [ha] at h
    · cases h
    split_ifs at h with hfits
    obtain ⟨hcpu, hfeatures⟩ := Bool.and_eq_true_iff.1 hfits
    cases h
    exact ⟨rfl, ha, List.contains_iff_mem.1 hcpu, List.all_eq_true.1 hfeatures, rfl⟩
  · rintro ⟨ht, ha, hcpu, hfeatures, hmachine⟩
    obtain ⟨htrims, harch, components, hmade⟩ := Triple.parse?_eq_some_iff.1 ht
    have hblank : ¬ (Text.trimChars config.triple.toList).isEmpty = true := by
      rw [List.isEmpty_iff, ← Text.toList_trim, Text.trim_eq_iff.2 htrims]
      intro hempty
      have hprefix := hmade.arch_isPrefix
      rw [hempty, List.prefix_nil] at hprefix
      exact harch (String.toList_inj.1 hprefix)
    have hfits : (machine.arch.cpus.contains (config.cpu.getD "generic") &&
        config.features.all machine.arch.knowsFeature) = true :=
      Bool.and_eq_true_iff.2 ⟨List.contains_iff_mem.2 hcpu, List.all_eq_true.2 hfeatures⟩
    rw [create, if_neg hblank, ht]
    simp only [ha, if_pos hfits]
    rw [hmachine]

/-- What a machine that was created says about its configuration. -/
theorem of_create (h : create config = .ok machine) :
    Triple.parse? config.triple = some machine.triple ∧
      Arch.find? machine.triple.arch = some machine.arch ∧ machine.fileType = config.fileType := by
  obtain ⟨hparse, hfind, -, -, hmachine⟩ := create_eq_ok_iff.1 h
  exact ⟨hparse, hfind, congrArg Machine.fileType hmachine⟩

/-- Where no machine can be created, it is for want of a target. -/
theorem error_of_create {e : CompileError} (h : create config = .error e) :
    e = .noTarget ∨ e = .badTarget := by
  unfold create at h
  split_ifs at h
  · cases h
    exact .inl rfl
  right
  rcases ht : Triple.parse? config.triple with _ | triple <;> rw [ht] at h
  · cases h
    rfl
  rcases ha : Arch.find? triple.arch with _ | arch <;> simp only [ha] at h
  · cases h
    rfl
  split_ifs at h
  cases h
  rfl

/-- A machine that was created launches kernels natively exactly if its architecture does. -/
theorem native_iff_of_create (h : create config = .ok machine) :
    machine.native ↔ machine.arch = .usc := by
  obtain ⟨hparse, hfind, -⟩ := of_create h
  obtain ⟨-, -, components, hmade⟩ := Triple.parse?_eq_some_iff.1 hparse
  obtain ⟨hmem, hname⟩ := Arch.find?_eq_some_iff.1 hfind
  have hbegin := hmade.arch_isPrefix
  rw [← hname] at hbegin
  simp only [Arch.all, List.mem_cons, List.not_mem_nil, or_false] at hmem
  rw [native, launchesKernels, List.isPrefixOf_iff_prefix]
  rcases hmem with harch | harch <;> rw [harch] at hbegin ⊢
  · refine ⟨fun husc => ?_, fun heq => absurd heq (by decide)⟩
    obtain ⟨rest, hrest⟩ := husc
    obtain ⟨rest', hrest'⟩ := hbegin
    rw [← hrest'] at hrest
    cases hrest
  · exact ⟨fun _ => rfl, fun _ => hbegin⟩

/-- The architecture that launches kernels natively is the one of its name. -/
theorem native_iff_arch_eq_of_create (h : create config = .ok machine) :
    machine.native ↔ machine.triple.arch = "usc" := by
  obtain ⟨hmem, hname⟩ := Arch.find?_eq_some_iff.1 (of_create h).2.1
  rw [native_iff_of_create h, ← hname]
  simp only [Arch.all, List.mem_cons, List.not_mem_nil, or_false] at hmem
  rcases hmem with harch | harch <;> rw [harch] <;> decide

theorem exists_fits_of_create (h : create config = .ok machine) :
    ∃ components, config.Fits components machine.arch ∧ machine.triple.MadeOf components := by
  obtain ⟨hparse, hfind, hcpu, hfeatures, -⟩ := create_eq_ok_iff.1 h
  obtain ⟨htrims, -, components, hmade⟩ := Triple.parse?_eq_some_iff.1 hparse
  obtain ⟨hmem, hname⟩ := Arch.find?_eq_some_iff.1 hfind
  refine ⟨components, ?_, hmade⟩
  exact
    { trims := hmade.text ▸ htrims
      separate := hmade.separate
      length_le := hmade.length_le
      registered := hmem
      name := hname ▸ hmade.arch
      cpu := hcpu
      features := fun feature hfeature => Arch.knowsFeature_iff.1 (hfeatures feature hfeature) }

theorem exists_create_of_fits {components : List String} {arch : Arch}
    (h : config.Fits components arch) : ∃ machine, create config = .ok machine := by
  let triple : Triple :=
    { text := "-".intercalate components
      arch := arch.name
      vendor := components[1]?.getD Triple.unknown
      os := components[2]?.getD Triple.unknown
      env := components[3]? }
  have hmade : triple.MadeOf components :=
    ⟨rfl, h.separate, h.length_le, h.name, rfl, rfl, rfl⟩
  have hnamed : arch.name ≠ "" := by
    have hmem := h.registered
    simp only [Arch.all, List.mem_cons, List.not_mem_nil, or_false] at hmem
    rcases hmem with rfl | rfl <;> decide
  refine ⟨⟨triple, arch, config.cpu.getD "generic", config.features, config.optLevel,
    config.fileType⟩, create_eq_ok_iff.2 ⟨?_, ?_, h.cpu, ?_, rfl⟩⟩
  · exact Triple.parse?_eq_some_iff.2 ⟨h.trims, hnamed, components, hmade⟩
  · exact Arch.find?_eq_some_iff.2 ⟨h.registered, rfl⟩
  · exact fun feature hfeature => Arch.knowsFeature_iff.2 (h.features feature hfeature)

/-- A configuration has no target if its triple is blank; otherwise a machine is created for it if
it fits an architecture, and its target is bad if it fits none.  A machine that was created has the
components of the triple that was configured; its triple names itself again, and the machine
launches kernels natively exactly if the first component is the architecture that does. -/
theorem create_exact (config : Config) :
    (create config = .error .noTarget ↔ ∀ c ∈ config.triple.toList, Text.isBlank c = true) ∧
      ((∃ machine, create config = .ok machine) ↔ ∃ components arch, config.Fits components arch) ∧
      (create config = .error .badTarget ↔
        (∃ c ∈ config.triple.toList, Text.isBlank c = false) ∧
          ¬ ∃ components arch, config.Fits components arch) ∧
      ∀ machine, create config = .ok machine →
        (∃ components, config.Fits components machine.arch ∧ machine.triple.MadeOf components) ∧
          Triple.parse? machine.triple.text = some machine.triple ∧
          (machine.native ↔ machine.triple.arch = "usc") := by
  have hok : (∃ machine, create config = .ok machine) ↔
      ∃ components arch, config.Fits components arch := by
    constructor
    · rintro ⟨machine, h⟩
      obtain ⟨components, hfits, -⟩ := exists_fits_of_create h
      exact ⟨components, machine.arch, hfits⟩
    · rintro ⟨components, arch, hfits⟩
      exact exists_create_of_fits hfits
  refine ⟨create_eq_noTarget_iff, hok, ?_, fun machine h => ?_⟩
  · have hblank : (∃ c ∈ config.triple.toList, Text.isBlank c = false) ↔
        create config ≠ .error .noTarget := by
      rw [ne_eq, create_eq_noTarget_iff]
      simp
    rw [hblank, ← hok]
    constructor
    · intro h
      rw [h]
      exact ⟨nofun, nofun⟩
    · rintro ⟨hnone, hfail⟩
      rcases h : create config with e | machine
      · rcases error_of_create h with rfl | rfl
        · exact absurd h hnone
        · rfl
      · exact absurd ⟨machine, h⟩ hfail
  · exact ⟨exists_fits_of_create h, Triple.parse?_text (of_create h).1,
      native_iff_arch_eq_of_create h⟩

end Machine

end ComputeScript
