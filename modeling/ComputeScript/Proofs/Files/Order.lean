import ComputeScript.Proofs.Files.Places
import ComputeScript.Proofs.Text.ByteOrder
import Mathlib.Data.List.Nodup
import Mathlib.Data.List.Perm.Basic

/-!
# The order of files

`Tree.Walks` is a depth-first walk that takes the entries of each directory in the order of the
bytes of their names, in whatever order the directory lists them.  `Tree.files` is the only such
walk (`walks_iff`).  It finds each file once (`mem_files_iff`), in the order of their places
(`pairwise_files`), and these say what it finds without regard to the order of any listing
(`files_congr`).
-/

namespace ComputeScript

namespace Tree

/-- No two entries of a directory have one name. -/
inductive Distinct : Tree → Prop where
  | file (bytes : Bytes) : Distinct (.file bytes)
  | dir {entries : List (String × Tree)} (hnames : (entries.map Prod.fst).Nodup)
      (hbelow : ∀ e ∈ entries, Distinct e.2) : Distinct (.dir entries)

mutual

/-- A depth-first walk through a tree finds these files, one after the other. -/
inductive Walks : List String → Tree → List (List String × Bytes) → Prop where
  | file (path : List String) (bytes : Bytes) : Walks path (.file bytes) [(path, bytes)]
  | dir {path : List String} {entries order : List (String × Tree)}
      {found : List (List String × Bytes)} (hperm : order.Perm entries)
      (hsorted : order.Pairwise fun a b => utf8 a.1 < utf8 b.1)
      (hbelow : WalksEach path order found) : Walks path (.dir entries) found

/-- Walks through some entries, one after the other, find these files. -/
inductive WalksEach : List String → List (String × Tree) → List (List String × Bytes) → Prop where
  | nil (path : List String) : WalksEach path [] []
  | cons {path : List String} {name : String} {t : Tree} {entries : List (String × Tree)}
      {found others : List (List String × Bytes)} (h : Walks (path ++ [name]) t found)
      (hothers : WalksEach path entries others) :
      WalksEach path ((name, t) :: entries) (found ++ others)

end

/-! ### Sorting entries -/

theorem perm_sortByName {α : Type} (entries : List (String × α)) :
    (sortByName entries).Perm entries :=
  List.mergeSort_perm entries _

theorem mem_sortByName {α : Type} {entries : List (String × α)} {e : String × α} :
    e ∈ sortByName entries ↔ e ∈ entries :=
  (perm_sortByName entries).mem_iff

theorem sortByName_map {α β : Type} (entries : List (String × α)) (f : String × α → β) :
    sortByName (entries.map fun e => (e.1, f e)) =
      (sortByName entries).map fun e => (e.1, f e) := by
  unfold sortByName
  symm
  apply List.map_mergeSort
  intros
  rfl

/-- Different names are sorted strictly. -/
theorem pairwise_sortByName {α : Type} {entries : List (String × α)}
    (h : (entries.map Prod.fst).Nodup) :
    (sortByName entries).Pairwise fun a b => a.1 < b.1 := by
  have hle : (sortByName entries).Pairwise fun a b => decide (a.1 ≤ b.1) = true := by
    refine List.pairwise_mergeSort (fun a b c hab hbc => ?_) (fun a b => ?_) entries
    · exact decide_eq_true ((of_decide_eq_true hab).trans (of_decide_eq_true hbc))
    · simpa using le_total a.1 b.1
  have hne : (sortByName entries).Pairwise fun a b => a.1 ≠ b.1 :=
    List.pairwise_map.1 (((perm_sortByName entries).map Prod.fst).nodup_iff.2 h)
  refine (hle.and hne).imp fun hab => ?_
  exact lt_of_le_of_ne (of_decide_eq_true hab.1) hab.2

/-- Entries are sorted by name in one way only. -/
theorem eq_sortByName {α : Type} {entries order : List (String × α)} (hperm : order.Perm entries)
    (hsorted : order.Pairwise fun a b => a.1 < b.1) : order = sortByName entries := by
  have hnames : (entries.map Prod.fst).Nodup := by
    rw [← (hperm.map Prod.fst).nodup_iff]
    exact List.pairwise_map.2 (hsorted.imp fun h => h.ne)
  refine List.Perm.eq_of_pairwise (fun a b _ _ hab hba => ?_) hsorted
    (pairwise_sortByName hnames) (hperm.trans (perm_sortByName entries).symm)
  exact absurd hab hba.asymm

/-! ### The only walk -/

theorem filesOf_eq_map (path : List String) (entries : List (String × Tree)) :
    filesOf path entries = entries.map fun e => (e.1, e.2.files (path ++ [e.1])) := by
  induction entries with
  | nil => rfl
  | cons e entries ih => rw [filesOf, ih, List.map_cons]

theorem files_dir (path : List String) (entries : List (String × Tree)) :
    (dir entries).files path =
      (sortByName entries).flatMap fun e => e.2.files (path ++ [e.1]) := by
  rw [files, filesOf_eq_map, sortByName_map entries fun e => e.2.files (path ++ [e.1]),
    List.flatMap_map]

theorem walksEach_iff {path : List String} {entries : List (String × Tree)}
    {found : List (List String × Bytes)}
    (h : ∀ e ∈ entries, ∀ found, Walks (path ++ [e.1]) e.2 found ↔
      found = e.2.files (path ++ [e.1])) :
    WalksEach path entries found ↔
      found = entries.flatMap fun e => e.2.files (path ++ [e.1]) := by
  induction entries generalizing found with
  | nil =>
    constructor
    · rintro ⟨⟩
      rfl
    · rintro rfl
      exact .nil path
  | cons e entries ih =>
    obtain ⟨hfirst, hothers⟩ := List.forall_mem_cons.1 h
    rw [List.flatMap_cons]
    constructor
    · rintro (_ | ⟨hwalk, hwalks⟩)
      rw [(hfirst _).1 hwalk, (ih hothers).1 hwalks]
    · rintro rfl
      exact .cons ((hfirst _).2 rfl) ((ih hothers).2 rfl)

/-- There is one walk through a tree. -/
theorem walks_iff {t : Tree} (h : t.Distinct) {path : List String}
    {found : List (List String × Bytes)} : Walks path t found ↔ found = t.files path := by
  induction h generalizing path found with
  | file bytes =>
    constructor
    · rintro ⟨⟩
      rfl
    · rintro rfl
      exact .file path bytes
  | @dir entries hnames _ ih =>
    have hsorted (order : List (String × Tree)) :
        (order.Pairwise fun a b => utf8 a.1 < utf8 b.1) ↔ order.Pairwise fun a b => a.1 < b.1 := by
      simp only [utf8_lt_utf8_iff]
    -- a walk may only take the sorted entries, and below each of them there is one walk
    have heach : WalksEach path (sortByName entries) found ↔
        found = (dir entries).files path := by
      rw [files_dir]
      exact walksEach_iff fun e he found => ih e (mem_sortByName.1 he)
    rw [← heach]
    constructor
    · rintro (_ | ⟨hperm, horder, hbelow⟩)
      rwa [← eq_sortByName hperm ((hsorted _).1 horder)]
    · intro hbelow
      exact .dir (perm_sortByName entries) ((hsorted _).2 (pairwise_sortByName hnames)) hbelow

/-! ### What is found -/

theorem lookup?_eq_some_iff {entries : List (String × Tree)} (h : (entries.map Prod.fst).Nodup)
    {name : String} {t : Tree} : lookup? entries name = some t ↔ (name, t) ∈ entries := by
  induction entries with
  | nil => simp [lookup?]
  | cons e entries ih =>
    obtain ⟨hnew, hothers⟩ := List.nodup_cons.1 h
    rw [lookup?_cons, List.mem_cons, ← ih hothers]
    split_ifs with hname
    · subst hname
      have hnone : lookup? entries e.1 ≠ some t := fun hlookup =>
        hnew (List.mem_map.2 ⟨_, (ih hothers).1 hlookup, rfl⟩)
      simp [Prod.ext_iff, hnone, eq_comm]
    · simp [Prod.ext_iff, Ne.symm hname]

/-- A walk finds exactly the files that a tree shows. -/
theorem mem_files_iff {t : Tree} (h : t.Distinct) {path place : List String} {bytes : Bytes} :
    (place, bytes) ∈ t.files path ↔
      ∃ rest, place = path ++ rest ∧ t.entryAt? rest = some (.file bytes) := by
  induction h generalizing path with
  | file old =>
    rw [files, List.mem_singleton, Prod.mk.injEq]
    constructor
    · rintro ⟨rfl, rfl⟩
      exact ⟨[], (List.append_nil _).symm, rfl⟩
    · rintro ⟨rest, rfl, hentry⟩
      cases rest with
      | nil => simpa [entry, eq_comm] using hentry
      | cons => cases hentry
  | @dir entries hnames _ ih =>
    rw [files_dir, List.mem_flatMap]
    constructor
    · rintro ⟨e, he, hmem⟩
      have he := mem_sortByName.1 he
      obtain ⟨rest, rfl, hentry⟩ := (ih e he).1 hmem
      refine ⟨e.1 :: rest, by rw [List.append_assoc, List.singleton_append], ?_⟩
      rw [entryAt?_dir_cons, (lookup?_eq_some_iff hnames).2 he, Option.bind_some, hentry]
    · rintro ⟨rest, rfl, hentry⟩
      cases rest with
      | nil => simp [entry] at hentry
      | cons name rest =>
        rw [entryAt?_dir_cons] at hentry
        obtain ⟨t, hlookup, hentry⟩ := Option.bind_eq_some_iff.1 hentry
        have he := (lookup?_eq_some_iff hnames).1 hlookup
        refine ⟨(name, t), mem_sortByName.2 he, (ih _ he).2 ⟨rest, ?_, hentry⟩⟩
        rw [List.append_assoc, List.singleton_append]

/-- A walk finds files in the order of their places. -/
theorem pairwise_files {t : Tree} (h : t.Distinct) (path : List String) :
    (t.files path).Pairwise fun a b => a.1 < b.1 := by
  induction h generalizing path with
  | file => exact List.pairwise_singleton _ _
  | @dir entries hnames hbelow ih =>
    rw [files_dir, List.pairwise_flatMap]
    refine ⟨fun e he => ih e (mem_sortByName.1 he) _, ?_⟩
    refine (pairwise_sortByName hnames).imp_of_mem fun {e e'} he he' hlt => ?_
    rintro ⟨_, bytes⟩ hfound ⟨_, bytes'⟩ hfound'
    obtain ⟨rest, rfl, -⟩ := (mem_files_iff (hbelow e (mem_sortByName.1 he))).1 hfound
    obtain ⟨rest', rfl, -⟩ := (mem_files_iff (hbelow e' (mem_sortByName.1 he'))).1 hfound'
    rw [List.append_assoc, List.append_assoc]
    exact List.append_left_lt (.rel hlt)

theorem nodup_files {t : Tree} (h : t.Distinct) (path : List String) :
    ((t.files path).map Prod.fst).Nodup :=
  List.pairwise_map.2 ((pairwise_files h path).imp fun hlt heq => by
    rw [heq] at hlt
    exact List.lt_irrefl _ hlt)

/-- In trees with the same files, a walk finds them in the same order. -/
theorem files_congr {t t' : Tree} (h : t.Distinct) (h' : t'.Distinct)
    (hfiles : ∀ place bytes,
      t'.entryAt? place = some (.file bytes) ↔ t.entryAt? place = some (.file bytes))
    (path : List String) : t'.files path = t.files path := by
  have hfound := (nodup_files h path).of_map
  have hfound' := (nodup_files h' path).of_map
  have hperm : (t'.files path).Perm (t.files path) := by
    refine (List.perm_ext_iff_of_nodup hfound' hfound).2 ?_
    rintro ⟨place, bytes⟩
    rw [mem_files_iff h, mem_files_iff h']
    simp only [hfiles]
  refine List.Perm.eq_of_pairwise (fun a b _ _ hab hba => ?_) (pairwise_files h' path)
    (pairwise_files h path) hperm
  exact absurd hab (List.lt_asymm hba)

end Tree

end ComputeScript
