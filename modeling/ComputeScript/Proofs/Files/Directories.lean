import ComputeScript.Proofs.Files.Order
import ComputeScript.Proofs.Files.Staging

/-!
# Directories that are made

Making directories puts directories where nothing was, and changes nothing else, even if it stops
half-way (`Tree.gains_makeDirs`).  Paths still lead where they led (`Tree.View.Gains.place?`), files
are still read (`Disk.read_of_gains`), and a walk finds the same ones in the same order
(`Tree.View.Gains.files_eq`).
-/

namespace ComputeScript

namespace Tree

/-- One view shows what the other does, and besides nothing but directories. -/
def View.Gains (before after : View) : Prop :=
  ∀ place, after place = before place ∨ before place = none ∧ after place = some .dir

namespace View.Gains

variable {before middle after : View}

theorem refl (view : View) : view.Gains view := fun _ => .inl rfl

theorem trans (h : before.Gains middle) (h' : middle.Gains after) : before.Gains after := by
  intro place
  rcases h' place with hplace | ⟨hnone, hdir⟩
  · rw [hplace]
    exact h place
  · rcases h place with hplace | ⟨-, hdir'⟩
    · exact .inr ⟨hplace ▸ hnone, hdir⟩
    · rw [hdir'] at hnone
      cases hnone

theorem dir {place : List String} (h : before.Gains after) (hdir : before place = some .dir) :
    after place = some .dir := by
  obtain hplace | ⟨hnone, -⟩ := h place
  · rw [hplace, hdir]
  · rw [hdir] at hnone
    cases hnone

theorem file_iff (h : before.Gains after) (place : List String) (bytes : Bytes) :
    after place = some (.file bytes) ↔ before place = some (.file bytes) := by
  obtain hplace | ⟨hnone, hdir⟩ := h place
  · rw [hplace]
  · simp [hnone, hdir]

variable {root root' : Tree}

theorem follow? (h : root.entryAt?.Gains root'.entryAt?) {place fields target : List String}
    (hfollow : root.follow? place fields = some target) :
    root'.follow? place fields = some target := by
  induction fields generalizing place with
  | nil => exact hfollow
  | cons field fields ih =>
    rw [follow?_cons] at hfollow
    split_ifs at hfollow with hdir
    obtain ⟨next, hstep, hnext⟩ := Option.bind_eq_some_iff.1 hfollow
    rw [follow?_cons, if_pos (h.dir hdir), hstep]
    exact ih hnext

/-- Paths lead where they led. -/
theorem place? (h : root.entryAt?.Gains root'.entryAt?) {path : Path} {place : List String}
    (hplace : root.place? path = some place) : root'.place? path = some place := by
  rw [Tree.place?] at hplace ⊢
  split_ifs at hplace with hvalid
  rw [if_pos hvalid, h.follow? hplace]

/-- A walk finds the same files. -/
theorem files_eq (h : root.entryAt?.Gains root'.entryAt?) (hroot : root.Distinct)
    (hroot' : root'.Distinct) (path : List String) : root'.files path = root.files path :=
  files_congr hroot hroot' h.file_iff path

end View.Gains

/-! ### Making directories -/

theorem entryAt?_append (t : Tree) (place rest : List String) :
    t.entryAt? (place ++ rest) = (t.get? place).bind (·.entryAt? rest) := by
  rw [entryAt?, get?_append, Option.map_bind]
  rfl

theorem gains_makeDir? {root root' : Tree} {place : List String}
    (h : root.makeDir? place = some root') : root.entryAt?.Gains root'.entryAt? := by
  unfold makeDir? at h
  split at h
  · cases h
    exact .refl _
  · cases h
  · next hnone =>
    have hfree : root.entryAt? place = none := by rw [entryAt?, hnone, Option.map_none]
    have hempty (name : String) (q : List String) : empty.entryAt? (name :: q) = none := rfl
    rw [entryAt?_set? hempty h (by simp [hfree])]
    intro q
    by_cases hq : q = place
    · subst hq
      exact .inr ⟨hfree, Function.update_self ..⟩
    · exact .inl (Function.update_of_ne hq ..)

theorem gains_makeDirsFrom (root : Tree) (place fields : List String) :
    root.entryAt?.Gains (root.makeDirsFrom place fields).2.entryAt? := by
  induction fields generalizing root place with
  | nil => exact .refl _
  | cons field fields ih =>
    rw [makeDirsFrom]
    split
    · exact .refl _
    · split
      · exact .refl _
      · next hmake => exact (gains_makeDir? hmake).trans (ih _ _)

/-- Whether or not all directories can be made, nothing else changes. -/
theorem gains_makeDirs (root : Tree) (path : Path) :
    root.entryAt?.Gains (root.makeDirs path).2.entryAt? := by
  rw [makeDirs]
  split_ifs
  · exact gains_makeDirsFrom root [] path.fields
  · exact .refl _

/-! ### Names stay distinct -/

theorem map_fst_setEntry (name : String) (t : Tree) (entries : List (String × Tree)) :
    (setEntry name t entries).map Prod.fst =
      if name ∈ entries.map Prod.fst then entries.map Prod.fst
      else entries.map Prod.fst ++ [name] := by
  induction entries with
  | nil => rfl
  | cons e entries ih =>
    by_cases hname : e.1 = name
    · simp [setEntry, hname]
    · simp only [setEntry, beq_iff_eq, hname, if_false, List.map_cons, ih, List.mem_cons,
        Ne.symm hname, false_or]
      split_ifs <;> rfl

theorem eq_or_mem_of_mem_setEntry {name : String} {t : Tree} {entries : List (String × Tree)}
    {e : String × Tree} (h : e ∈ setEntry name t entries) : e = (name, t) ∨ e ∈ entries := by
  induction entries with
  | nil => exact .inl (List.mem_singleton.1 h)
  | cons e' entries ih =>
    rw [setEntry] at h
    split_ifs at h
    · exact (List.mem_cons.1 h).imp_right (List.mem_cons_of_mem e')
    · rcases List.mem_cons.1 h with rfl | h
      · exact .inr (List.mem_cons_self ..)
      · exact (ih h).imp_right (List.mem_cons_of_mem e')

theorem distinct_empty : empty.Distinct := by
  show Distinct (.dir [])
  exact .dir List.nodup_nil nofun

namespace Distinct

variable {t t' : Tree} {place : List String}

theorem setEntry {entries : List (String × Tree)} (h : Distinct (.dir entries)) (name : String)
    (ht : t.Distinct) : Distinct (.dir (setEntry name t entries)) := by
  obtain _ | ⟨hnames, hbelow⟩ := h
  refine .dir ?_ fun e he => ?_
  · rw [map_fst_setEntry]
    split_ifs with hmem
    · exact hnames
    · exact List.nodup_append.2 ⟨hnames, List.nodup_singleton name, by grind⟩
  · obtain rfl | he := eq_or_mem_of_mem_setEntry he
    · exact ht
    · exact hbelow e he

theorem of_lookup? {entries : List (String × Tree)} (h : Distinct (.dir entries)) {name : String}
    (hlookup : lookup? entries name = some t) : t.Distinct := by
  obtain _ | ⟨hnames, hbelow⟩ := h
  exact hbelow _ ((lookup?_eq_some_iff hnames).1 hlookup)

theorem get? (h : t.Distinct) (hget : t.get? place = some t') : t'.Distinct := by
  induction place generalizing t with
  | nil =>
    cases hget
    exact h
  | cons name place ih =>
    cases t with
    | file => cases hget
    | dir entries =>
      rw [Tree.get?] at hget
      split at hget
      · next hlookup => exact ih (h.of_lookup? hlookup) hget
      · cases hget

theorem set? {new : Tree} (h : t.Distinct) (hnew : new.Distinct)
    (hset : set? new t place = some t') : t'.Distinct := by
  induction place generalizing t t' with
  | nil =>
    cases hset
    exact hnew
  | cons name place ih =>
    cases t with
    | file => cases hset
    | dir entries =>
      cases place with
      | nil =>
        cases hset
        exact h.setEntry name hnew
      | cons next place =>
        rw [Tree.set?] at hset
        split at hset
        · next hlookup =>
          obtain ⟨below, hbelow, rfl⟩ := Option.map_eq_some_iff.1 hset
          exact h.setEntry name (ih (h.of_lookup? hlookup) hbelow)
        · cases hset
        · exact fun heq => absurd heq (List.cons_ne_nil next place)

theorem makeDir? (h : t.Distinct) (hmake : t.makeDir? place = some t') : t'.Distinct := by
  unfold Tree.makeDir? at hmake
  split at hmake
  · cases hmake
    exact h
  · cases hmake
  · exact h.set? distinct_empty hmake

theorem makeDirsFrom (h : t.Distinct) (place fields : List String) :
    (t.makeDirsFrom place fields).2.Distinct := by
  induction fields generalizing t place with
  | nil => exact h
  | cons field fields ih =>
    rw [Tree.makeDirsFrom]
    split
    · exact h
    · split
      · exact h
      · next hmake => exact ih (h.makeDir? hmake) _

theorem makeDirs (h : t.Distinct) (path : Path) : (t.makeDirs path).2.Distinct := by
  rw [Tree.makeDirs]
  split_ifs
  · exact h.makeDirsFrom [] path.fields
  · exact h

end Distinct

end Tree

namespace Disk

variable {d d' : Disk} {path : Path}

/-- A file is still read. -/
theorem read_of_gains (h : d.root.entryAt?.Gains d'.root.entryAt?) {bytes : Bytes}
    (hread : d.read path = some bytes) : d'.read path = some bytes := by
  rw [read_eq, Tree.View.read] at hread ⊢
  obtain ⟨entry, hentry, hbytes⟩ := Option.bind_eq_some_iff.1 hread
  obtain ⟨place, hplace, hentry⟩ := Option.bind_eq_some_iff.1 hentry
  cases entry with
  | dir => cases hbytes
  | file =>
    rw [h.place? hplace, Option.bind_some, (h.file_iff _ _).2 hentry]
    exact hbytes

theorem distinct_of_tree {t : Tree} (h : d.root.Distinct) (ht : d.tree path = some t) :
    t.Distinct := by
  obtain ⟨hfind, -⟩ := Option.filter_eq_some_iff.1 ht
  obtain ⟨place, -, hget⟩ := Option.bind_eq_some_iff.1 hfind
  exact h.get? hget

/-- A directory is still there. -/
theorem tree_of_gains (h : d.root.entryAt?.Gains d'.root.entryAt?) {t : Tree}
    (ht : d.tree path = some t) :
    ∃ t', d'.tree path = some t' ∧ t.entryAt?.Gains t'.entryAt? := by
  obtain ⟨hfind, hdir⟩ := Option.filter_eq_some_iff.1 ht
  obtain ⟨place, hplace, hget⟩ := Option.bind_eq_some_iff.1 hfind
  have hentry : d.root.entryAt? place = some .dir := by
    cases t with
    | file => cases hdir
    | dir => rw [Tree.entryAt?, hget]; rfl
  obtain ⟨t', hget', hentry'⟩ := Option.map_eq_some_iff.1 (h.dir hentry)
  refine ⟨t', Option.filter_eq_some_iff.2 ⟨?_, ?_⟩, fun rest => ?_⟩
  · rw [Tree.find?, h.place? hplace, Option.bind_some, hget']
  · cases t' with
    | file => cases hentry'
    | dir => rfl
  · have hrest := h (place ++ rest)
    rwa [Tree.entryAt?_append, Tree.entryAt?_append, hget, hget'] at hrest

end Disk

end ComputeScript
