import ComputeScript.Proofs.Files.Places

/-!
# Staged files

A staged file is created where nothing was (`stage_cases`), and then `Tree.StagedBeside` says that
it is all that a tree has besides some other view.  Filling keeps that, removing it leaves the other
view, and renaming puts its bytes at the destination, where there is no directory
(`StagedBeside.put`, `StagedBeside.remove`, `StagedBeside.rename`).
-/

namespace ComputeScript

theorem Path.fields_join (dir : Path) {name : String} (h : '/' ∉ name.toList) :
    Path.fields (dir ++ "/" ++ name) = Path.fields dir ++ [name] := by
  rw [fields, fields, String.toList_append, String.toList_append, List.append_assoc]
  show (Text.fields '/' (dir.toList ++ '/' :: name.toList)).map String.ofList = _
  rw [Text.fields_append_sep, Text.fields_of_not_mem h, List.map_append, List.map_singleton,
    String.ofList_toList]

namespace Disk

theorem toList_stagedName (n : Nat) :
    (stagedName n).toList = ['.', 't', 'm', 'p'] ++ Nat.toDigits 10 n := by
  show (toString ".tmp" ++ toString n).toList = _
  rw [String.toList_append, Nat.toString_eq_repr, Nat.toList_repr]
  rfl

theorem slash_not_mem_stagedName (n : Nat) : '/' ∉ (stagedName n).toList := by
  rw [toList_stagedName, List.mem_append]
  rintro (h | h)
  · simp at h
  · have := Nat.isDigit_of_mem_toDigits (by decide) (by decide) h
    cases this

/-- The name of a staged file leads into its directory. -/
theorem step?_stagedName {place next : List String} {n : Nat}
    (h : Path.step? place (stagedName n) = some next) : next = place ++ [stagedName n] := by
  have hne {s : String} (hs : s.toList.length < 4) : stagedName n ≠ s := by
    rintro rfl
    rw [toList_stagedName, List.length_append, show ['.', 't', 'm', 'p'].length = 4 from rfl] at hs
    omega
  unfold Path.step? at h
  split at h
  · exact absurd ‹_› (hne (by decide))
  · exact absurd ‹_› (hne (by decide))
  · exact absurd ‹_› (hne (by decide))
  · split_ifs at h
    exact (Option.some.inj h).symm

theorem freshName_eq_some {entries : List (String × Tree)} {name : String}
    (h : freshName entries = some name) :
    Tree.lookup? entries name = none ∧ ∃ n, name = stagedName n := by
  obtain ⟨n, -, hn⟩ := List.mem_map.1 (List.mem_of_find?_eq_some h)
  exact ⟨by simpa using List.find?_some h, n, hn.symm⟩

theorem root_of_tick {d d' : Disk} {refused : Bool} (h : d.tick = (refused, d')) :
    d'.root = d.root := by
  obtain ⟨-, rfl⟩ := Prod.mk.inj h
  rfl

/-- The place of a staged file is in its directory, where no entry has its name. -/
theorem place?_staged {root : Tree} {dir : Path} {entries : List (String × Tree)} {n : Nat}
    {place : List String} (hdir : root.find? dir = some (.dir entries))
    (hfree : Tree.lookup? entries (stagedName n) = none)
    (hplace : root.place? (dir ++ "/" ++ stagedName n) = some place) :
    place.getLast? = some (stagedName n) ∧ root.entryAt? place = none := by
  obtain ⟨above, habove, hget⟩ := Option.bind_eq_some_iff.1 hdir
  have hlast : place = above ++ [stagedName n] := by
    rw [Tree.place?] at habove hplace
    split_ifs at habove hplace
    rw [Path.fields_join dir (slash_not_mem_stagedName n), Tree.follow?_append, habove,
      Option.bind_some, Tree.follow?_cons] at hplace
    split_ifs at hplace
    obtain ⟨next, hstep, hnext⟩ := Option.bind_eq_some_iff.1 hplace
    rw [← Option.some.inj hnext]
    exact step?_stagedName hstep
  subst hlast
  refine ⟨List.getLast?_concat, ?_⟩
  rw [Tree.entryAt?, Tree.get?_append, hget]
  simp [Tree.get?, hfree]

end Disk

namespace Tree

/-- Besides what a view shows, a tree has a staged file at a path, where the view shows nothing. -/
def StagedBeside (root : Tree) (view : View) (staged : Path) (bytes : Bytes) : Prop :=
  ∃ place n, root.place? staged = some place ∧ place.getLast? = some (Disk.stagedName n) ∧
    view place = none ∧ root.entryAt? = Function.update view place (some (.file bytes))

namespace StagedBeside

variable {root root' : Tree} {view : View} {staged target : Path} {bytes bytes' : Bytes}

theorem sameDirs (h : root.StagedBeside view staged bytes) : SameDirs root.entryAt? view := by
  obtain ⟨place, -, -, -, hfree, hroot⟩ := h
  rw [hroot]
  exact .update (by simp [hfree]) (by simp)

theorem find? (h : root.StagedBeside view staged bytes) :
    root.find? staged = some (.file bytes) := by
  obtain ⟨place, -, hplace, -, -, hroot⟩ := h
  have hfind := map_entry_find? root staged
  rw [hplace, Option.bind_some, hroot, Function.update_self] at hfind
  obtain ⟨t, ht, hentry⟩ := Option.map_eq_some_iff.1 hfind
  cases t with
  | file => rw [ht]; simpa [entry] using hentry
  | dir => cases hentry

theorem put (h : root.StagedBeside view staged bytes)
    (hput : root.put? staged bytes' = some root') : root'.StagedBeside view staged bytes' := by
  obtain ⟨place, n, hplace, hlast, hfree, hroot⟩ := h
  obtain ⟨_, hplace', hnew, hroot'⟩ := put?_eq_some hput
  obtain rfl := Option.some.inj (hplace.symm.trans hplace')
  have hdirs : SameDirs root'.entryAt? root.entryAt? := by
    rw [hroot']
    exact .update hnew (by simp)
  refine ⟨place, n, by rw [place?_congr hdirs, hplace], hlast, hfree, ?_⟩
  rw [hroot', hroot, Function.update_idem]

theorem remove (h : root.StagedBeside view staged bytes) :
    (root.remove staged).entryAt? = view := by
  obtain ⟨place, n, hplace, hlast, hfree, hroot⟩ := h
  have hne : place ≠ [] := by
    rintro rfl
    cases hlast
  rw [entryAt?_remove hplace hne (by simp [hroot]), hroot, Function.update_idem,
    Function.update_eq_self_iff, hfree]

/-- Renaming a staged file leaves it nowhere else than at the destination. -/
theorem rename (h : root.StagedBeside view staged bytes)
    (hput : (root.remove staged).put? target bytes = some root') :
    ∃ place, root.place? target = some place ∧ view place ≠ some .dir ∧
      root'.entryAt? = Function.update view place (some (.file bytes)) := by
  have hdirs : SameDirs (root.remove staged).entryAt? root.entryAt? := by
    rw [h.remove]
    exact fun place => (h.sameDirs place).symm
  have hput' := put?_eq_some hput
  rwa [place?_congr hdirs, h.remove] at hput'

/-- What is read at a path is not the staged file, unless the path is named like one and leads to
nothing else. -/
theorem read_place? (h : root.StagedBeside view staged bytes) {path : Path}
    (hpath : (∀ n, path.fields.getLast? ≠ some (Disk.stagedName n)) ∨
      (view.read (root.place? path)).isSome) :
    View.read root.entryAt? (root.place? path) = view.read (root.place? path) := by
  obtain ⟨place, n, -, hlast, hfree, hroot⟩ := h
  rcases hother : root.place? path with _ | other
  · rfl
  · have hne : other ≠ place := by
      rintro rfl
      rcases hpath with hname | hshown
      · refine hname n ?_
        rw [← hlast, getLast?_place? hother (by simp [hroot])]
      · rw [hother, View.read, Option.bind_some, hfree] at hshown
        cases hshown
    rw [View.read, View.read, Option.bind_some, Option.bind_some, hroot, Function.update_of_ne hne]

end StagedBeside

end Tree

namespace Disk

/-- Either nothing is staged and no file changes, or there is an empty staged file besides. -/
theorem stage_cases {dir : Path} {staged : Option Path} {d d' : Disk}
    (h : d.stage dir = (staged, d')) :
    (staged = none ∧ d'.root = d.root) ∨
      ∃ path, staged = some path ∧ d'.root.StagedBeside d.root.entryAt? path [] := by
  unfold stage at h
  rcases htick : d.tick with ⟨_ | _, d₁⟩ <;> have hroot := root_of_tick htick <;>
    simp only [htick] at h
  · rw [hroot] at h
    split at h
    · split at h
      · split at h
        · rename_i entries hdir _ name hname _ root hput
          obtain ⟨rfl, rfl⟩ := Prod.mk.inj h
          obtain ⟨hlookup, n, rfl⟩ := freshName_eq_some hname
          obtain ⟨place, hplace, hnew, hput⟩ := Tree.put?_eq_some hput
          obtain ⟨hlast, hfree⟩ := place?_staged hdir hlookup hplace
          have hdirs : Tree.SameDirs root.entryAt? d.root.entryAt? := by
            rw [hput]
            exact .update hnew (by simp)
          exact .inr ⟨_, rfl, place, n, by rw [Tree.place?_congr hdirs, hplace], hlast, hfree, hput⟩
        · obtain ⟨rfl, rfl⟩ := Prod.mk.inj h
          exact .inl ⟨rfl, hroot⟩
      · obtain ⟨rfl, rfl⟩ := Prod.mk.inj h
        exact .inl ⟨rfl, hroot⟩
    · obtain ⟨rfl, rfl⟩ := Prod.mk.inj h
      exact .inl ⟨rfl, hroot⟩
  · obtain ⟨rfl, rfl⟩ := Prod.mk.inj h
    exact .inl ⟨rfl, hroot⟩

/-- Either the tree is left alone and nothing was done, or the tree is changed. -/
theorem alter_cases {f : Tree → Bool × Tree} {d d' : Disk} {done : Bool}
    (h : d.alter f = (done, d')) :
    (done = false ∧ d'.root = d.root) ∨ f d.root = (done, d'.root) := by
  unfold alter at h
  rcases htick : d.tick with ⟨_ | _, d₁⟩ <;> have hroot := root_of_tick htick <;>
    simp only [htick] at h <;> obtain ⟨rfl, rfl⟩ := Prod.mk.inj h
  · exact .inr (by rw [hroot])
  · exact .inl ⟨rfl, hroot⟩

/-- A change that is refused or impossible changes no file. -/
theorem change_cases {f : Tree → Option Tree} {d d' : Disk} {done : Bool}
    (h : d.change f = (done, d')) :
    (done = false ∧ d'.root = d.root) ∨ (done = true ∧ f d.root = some d'.root) := by
  obtain hleft | hchanged := alter_cases h
  · exact .inl hleft
  · split at hchanged
    · next hf =>
      obtain ⟨rfl, rfl⟩ := Prod.mk.inj hchanged
      exact .inr ⟨rfl, hf⟩
    · obtain ⟨rfl, hroot⟩ := Prod.mk.inj hchanged
      exact .inl ⟨rfl, hroot.symm⟩

/-- A change that is possible and is not refused is made. -/
theorem change_of_granted {f : Tree → Option Tree} {d : Disk} {root : Tree}
    (hgranted : d.refuses d.clock = false) (hf : f d.root = some root) :
    d.change f = (true, { d with root, clock := d.clock + 1 }) := by
  simp only [change, alter, tick, hgranted, hf]

/-- The bytes that a path leads to, as far as the view shows them. -/
theorem read_eq (d : Disk) (path : Path) :
    d.read path = Tree.View.read d.root.entryAt? (d.root.place? path) := by
  rw [Tree.View.read, ← Tree.map_entry_find?, read]
  rcases d.root.find? path with _ | _ | _ <;> rfl

end Disk

end ComputeScript
