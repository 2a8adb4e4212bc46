import ComputeScript.Builder
import ComputeScript.Proofs.Files.Order
import ComputeScript.Proofs.Object.Reading
import Mathlib.Data.List.Forall2

/-!
# Loading libraries

A library file is one whose name is that of the library and the ending `.rsir`
(`Library.IsLibraryFile`).  Loading goes through the library files of a directory in the order of a
walk: each of them holds a library (`Library.Holds`), or there is a first one that is faulty, and
its error is the answer.  A walk does not depend on how directories are listed, so neither does
what is loaded, nor which of two libraries of one name is picked (`Library.load_spec`).
-/

namespace ComputeScript

namespace Library

/-- The name of the file at a place is a name and the ending of library files. -/
def IsLibraryFile (place : List String) : Prop :=
  ∃ above stem, place = above ++ [stem ++ ".rsir"] ∧ stem ≠ ""

/-- A file holds a library: it has the name of the library, and its text is that of the module. -/
structure Holds (place : List String) (bytes : Bytes) (l : Library) : Prop where
  named : ∃ above, place = above ++ [l.name ++ ".rsir"]
  name_ne : l.name ≠ ""
  path_eq : l.path = "/".intercalate place
  module_eq : ∃ text, utf8 text = bytes ∧ Module.read text = .ok l.module

/-- What keeps a library file from holding a library. -/
inductive Faulty (bytes : Bytes) : LoadError → Prop where
  | notText (h : ∀ text, utf8 text ≠ bytes) : Faulty bytes .notText
  | read {text : String} {e : ReadError} (htext : utf8 text = bytes)
      (h : Module.read text = .error e) : Faulty bytes (.read e)

/-! ### The text of a file -/

theorem textOf_utf8 (s : String) : textOf (utf8 s) = .ok s := by
  rw [textOf, utf8, Binary.fromUTF8?_toList]

theorem textOf_eq_ok_iff {bytes : Bytes} {text : String} :
    textOf bytes = .ok text ↔ utf8 text = bytes := by
  constructor
  · intro h
    rw [textOf, String.fromUTF8?] at h
    split_ifs at h with hvalid
    · obtain ⟨rfl⟩ := h
      change ByteArray.toList ⟨bytes.toArray⟩ = bytes
      rw [ByteArray.toList, Binary.toList_loop]
      rfl
  · rintro rfl
    exact textOf_utf8 text

theorem textOf_eq_error_iff {bytes : Bytes} {e : LoadError} :
    textOf bytes = .error e ↔ e = .notText ∧ ∀ text, utf8 text ≠ bytes := by
  simp only [ne_eq, ← textOf_eq_ok_iff]
  rw [textOf]
  cases String.fromUTF8? ⟨bytes.toArray⟩ <;> simp [eq_comm]

/-- The module of a file. -/
def moduleOf (bytes : Bytes) : Except LoadError Module :=
  (textOf bytes).bind fun text => (Module.read text).mapError .read

theorem moduleOf_eq_ok_iff {bytes : Bytes} {module : Module} :
    moduleOf bytes = .ok module ↔ ∃ text, utf8 text = bytes ∧ Module.read text = .ok module := by
  simp only [← textOf_eq_ok_iff]
  rw [moduleOf]
  rcases textOf bytes with e | text
  · simp [Except.bind]
  · cases hread : Module.read text <;> simp [Except.bind, Except.mapError, hread]

theorem moduleOf_eq_error_iff {bytes : Bytes} {e : LoadError} :
    moduleOf bytes = .error e ↔ Faulty bytes e := by
  have hiff : Faulty bytes e ↔ textOf bytes = .error e ∨
      ∃ text e', textOf bytes = .ok text ∧ Module.read text = .error e' ∧ .read e' = e := by
    simp only [textOf_eq_ok_iff, textOf_eq_error_iff]
    constructor
    · rintro (hnone | ⟨htext, hread⟩)
      · exact .inl ⟨rfl, hnone⟩
      · exact .inr ⟨_, _, htext, hread, rfl⟩
    · rintro (⟨rfl, hnone⟩ | ⟨text, e', htext, hread, rfl⟩)
      · exact .notText hnone
      · exact .read htext hread
  rw [hiff, moduleOf]
  rcases textOf bytes with e' | text
  · simp [Except.bind]
  · cases hread : Module.read text <;> simp [Except.bind, Except.mapError, hread]

/-! ### The name of a file -/

theorem nameOf?_eq_some_iff {file name : String} :
    nameOf? file = some name ↔ file = name ++ ".rsir" ∧ name ≠ "" := by
  constructor
  · intro h
    rw [nameOf?] at h
    split_ifs at h with hnone
    rw [Bool.or_eq_true, not_or, bne_iff_ne, not_not, List.isEmpty_iff] at hnone
    obtain ⟨hstem, hfile⟩ := hnone
    obtain rfl := Option.some.inj h
    refine ⟨String.toList_inj.1 ?_, fun hempty => hstem (String.ofList_eq_empty_iff.1 hempty)⟩
    rw [String.toList_append, String.toList_ofList]
    exact hfile.symm
  · rintro ⟨rfl, hname⟩
    have hlist : (name ++ ".rsir").toList = name.toList ++ ending := String.toList_append
    have hchars : name.toList ≠ [] := by simpa using hname
    simp [nameOf?, hlist, hchars]

theorem bind_nameOf?_eq_some_iff {place : List String} {name : String} :
    place.getLast?.bind nameOf? = some name ↔
      (∃ above, place = above ++ [name ++ ".rsir"]) ∧ name ≠ "" := by
  rw [Option.bind_eq_some_iff]
  simp only [nameOf?_eq_some_iff, List.getLast?_eq_some_iff]
  constructor
  · rintro ⟨_, ⟨above, rfl⟩, rfl, hname⟩
    exact ⟨⟨above, rfl⟩, hname⟩
  · rintro ⟨⟨above, rfl⟩, hname⟩
    exact ⟨_, ⟨above, rfl⟩, rfl, hname⟩

theorem isSome_bind_nameOf?_iff {place : List String} :
    (place.getLast?.bind nameOf?).isSome ↔ IsLibraryFile place := by
  rw [Option.isSome_iff_exists]
  simp only [bind_nameOf?_eq_some_iff]
  constructor
  · rintro ⟨stem, ⟨above, rfl⟩, hstem⟩
    exact ⟨above, stem, rfl, hstem⟩
  · rintro ⟨above, stem, rfl, hstem⟩
    exact ⟨stem, ⟨above, rfl⟩, hstem⟩

instance (place : List String) : Decidable (IsLibraryFile place) :=
  decidable_of_iff _ isSome_bind_nameOf?_iff

/-! ### One file -/

theorem ofFile?_eq_map (place : List String) (bytes : Bytes) :
    ofFile? place bytes = (place.getLast?.bind nameOf?).map fun name =>
      (moduleOf bytes).map fun module => ⟨name, "/".intercalate place, module⟩ := by
  rw [ofFile?, moduleOf]
  rcases place.getLast?.bind nameOf? with _ | name
  · rfl
  rcases textOf bytes with e | text
  · rfl
  cases hread : Module.read text <;>
    simp [bind, Except.bind, Except.map, Except.mapError, hread]

theorem isSome_ofFile?_iff {place : List String} {bytes : Bytes} :
    (ofFile? place bytes).isSome ↔ IsLibraryFile place := by
  rw [ofFile?_eq_map, Option.isSome_map, isSome_bind_nameOf?_iff]

theorem ofFile?_eq_some_ok_iff {place : List String} {bytes : Bytes} {l : Library} :
    ofFile? place bytes = some (.ok l) ↔ Holds place bytes l := by
  have hmap : (∃ name, place.getLast?.bind nameOf? = some name ∧
        ∃ module, moduleOf bytes = .ok module ∧ ⟨name, "/".intercalate place, module⟩ = l) ↔
      Holds place bytes l := by
    simp only [bind_nameOf?_eq_some_iff, moduleOf_eq_ok_iff]
    constructor
    · rintro ⟨name, ⟨hnamed, hname⟩, module, hmodule, rfl⟩
      exact ⟨hnamed, hname, rfl, hmodule⟩
    · rintro ⟨hnamed, hname, hpath, hmodule⟩
      exact ⟨l.name, ⟨hnamed, hname⟩, l.module, hmodule, by rw [← hpath]⟩
  rw [← hmap, ofFile?_eq_map, Option.map_eq_some_iff]
  cases moduleOf bytes <;> simp [Except.map]

theorem ofFile?_eq_some_error_iff {place : List String} {bytes : Bytes} {e : LoadError} :
    ofFile? place bytes = some (.error e) ↔ IsLibraryFile place ∧ Faulty bytes e := by
  rw [← isSome_bind_nameOf?_iff, ← moduleOf_eq_error_iff, ofFile?_eq_map, Option.isSome_iff_exists]
  cases place.getLast?.bind nameOf? <;> cases moduleOf bytes <;> simp [Except.map]

/-! ### Files one after the other -/

section

variable {α β ε : Type} {g : α → Option (Except ε β)} {xs : List α}

theorem mapM_filterMap_eq_ok_iff {ys : List β} :
    (xs.filterMap g).mapM id = .ok ys ↔
      List.Forall₂ (fun x y => g x = some (.ok y)) (xs.filter fun x => (g x).isSome) ys := by
  induction xs generalizing ys with
  | nil => exact ⟨by rintro ⟨⟩; exact .nil, by rintro ⟨⟩; rfl⟩
  | cons x xs ih =>
    -- what is skipped, what ends the loading, and what goes before the others
    rcases hx : g x with _ | _ | y
    · rw [List.filterMap_cons_none hx, List.filter_cons_of_neg (by simp [hx]), ih]
    · rw [List.filterMap_cons_some hx, List.filter_cons_of_pos (by simp [hx]), List.mapM_cons,
        List.forall₂_cons_left_iff]
      exact ⟨nofun, by rintro ⟨y, ys, h, -⟩; rw [hx] at h; cases h⟩
    · rw [List.filterMap_cons_some hx, List.filter_cons_of_pos (by simp [hx]), List.mapM_cons,
        List.forall₂_cons_left_iff]
      change ((xs.filterMap g).mapM id).map (y :: ·) = .ok ys ↔ _
      constructor
      · intro h
        cases hxs : (xs.filterMap g).mapM id with
        | error e =>
          rw [hxs] at h
          cases h
        | ok others =>
          rw [hxs] at h
          cases h
          exact ⟨y, others, hx, ih.1 hxs, rfl⟩
      · rintro ⟨y', others, hy', hothers, rfl⟩
        obtain ⟨⟩ := hx.symm.trans hy'
        rw [ih.2 hothers]
        rfl

theorem mapM_filterMap_eq_error_iff {e : ε} :
    (xs.filterMap g).mapM id = .error e ↔
      ∃ before x after, (xs.filter fun x => (g x).isSome) = before ++ x :: after ∧
        g x = some (.error e) ∧ ∀ x' ∈ before, ∃ y, g x' = some (.ok y) := by
  induction xs with
  | nil => exact ⟨nofun, fun ⟨before, _, _, h, _⟩ => by cases before <;> cases h⟩
  | cons x xs ih =>
    rcases hx : g x with _ | e' | y
    · rw [List.filterMap_cons_none hx, List.filter_cons_of_neg (by simp [hx]), ih]
    · rw [List.filterMap_cons_some hx, List.filter_cons_of_pos (by simp [hx]), List.mapM_cons]
      constructor
      · rintro ⟨⟩
        exact ⟨[], x, _, rfl, hx, nofun⟩
      · rintro ⟨before, x', after, h, herror, hbefore⟩
        obtain ⟨rfl, ⟨⟩⟩ | ⟨before, rfl, -⟩ := List.cons_eq_append_iff.1 h
        · cases hx.symm.trans herror
          rfl
        · obtain ⟨y, hy⟩ := hbefore x (List.mem_cons_self ..)
          cases hx.symm.trans hy
    · rw [List.filterMap_cons_some hx, List.filter_cons_of_pos (by simp [hx]), List.mapM_cons]
      have hmap : ((xs.filterMap g).mapM id).map (y :: ·) = .error e ↔
          (xs.filterMap g).mapM id = .error e := by
        cases (xs.filterMap g).mapM id <;> simp [Except.map]
      refine (hmap.trans ih).trans ?_
      constructor
      · rintro ⟨before, x', after, h, herror, hbefore⟩
        refine ⟨x :: before, x', after, by rw [h]; rfl, herror, ?_⟩
        exact List.forall_mem_cons.2 ⟨⟨y, hx⟩, hbefore⟩
      · rintro ⟨before, x', after, h, herror, hbefore⟩
        obtain ⟨rfl, ⟨⟩⟩ | ⟨before, rfl, hxs⟩ := List.cons_eq_append_iff.1 h
        · cases hx.symm.trans herror
        · exact ⟨before, x', after, hxs, herror, (List.forall_mem_cons.1 hbefore).2⟩
end

/-- The library files among some files. -/
def libraryFiles (files : List (List String × Bytes)) : List (List String × Bytes) :=
  files.filter fun f => IsLibraryFile f.1

theorem filter_isSome_ofFile? (files : List (List String × Bytes)) :
    (files.filter fun f => (ofFile? f.1 f.2).isSome) = libraryFiles files :=
  List.filter_congr fun f _ => by rw [Bool.eq_iff_iff, decide_eq_true_iff, isSome_ofFile?_iff]

theorem loadTree_eq_ok_iff {t : Tree} {libraries : List Library} :
    loadTree t = .ok libraries ↔
      List.Forall₂ (fun f l => Holds f.1 f.2 l) (libraryFiles (t.files [])) libraries := by
  rw [loadTree, mapM_filterMap_eq_ok_iff, filter_isSome_ofFile?]
  simp only [ofFile?_eq_some_ok_iff]

theorem loadTree_eq_error_iff {t : Tree} {e : LoadError} :
    loadTree t = .error e ↔ ∃ before f after,
      libraryFiles (t.files []) = before ++ f :: after ∧ Faulty f.2 e ∧
        ∀ f' ∈ before, ∃ l, Holds f'.1 f'.2 l := by
  rw [loadTree, mapM_filterMap_eq_error_iff, filter_isSome_ofFile?]
  simp only [ofFile?_eq_some_ok_iff, ofFile?_eq_some_error_iff]
  constructor
  · rintro ⟨before, f, after, hfiles, ⟨-, hfaulty⟩, hbefore⟩
    exact ⟨before, f, after, hfiles, hfaulty, hbefore⟩
  · rintro ⟨before, f, after, hfiles, hfaulty, hbefore⟩
    have hmem : f ∈ libraryFiles (t.files []) := by simp [hfiles]
    have hlibrary : IsLibraryFile f.1 := of_decide_eq_true (List.mem_filter.1 hmem).2
    exact ⟨before, f, after, hfiles, ⟨hlibrary, hfaulty⟩, hbefore⟩

/-- What is loaded from a disk. -/
def loadedFrom (root : Option Path) (d : Disk) : Except LoadError (List Library) :=
  match root with
  | none => .ok bundled
  | some path =>
    match d.tree path with
    | none => .error (.noRoot path)
    | some t => loadTree t

/-- Loading changes no disk. -/
theorem run_loadFrom (root : Option Path) (d : Disk) :
    (Builder.loadFrom root : StateM Disk (Except LoadError (List Library))).run d =
      (loadedFrom root d, d) := by
  rcases root with _ | path
  · rfl
  change (match d.tree path with | none => _ | some t => _ : StateM Disk _).run d = _
  rw [loadedFrom]
  cases d.tree path <;> rfl

/-! ### Picking a library -/

theorem select?_eq_some_iff {libraries : List Library} {preferred : Option String} {l : Library} :
    select? libraries preferred = some l ↔ ∃ before after,
      libraries = before ++ l :: after ∧ l.name = preferred.getD "clcore" ∧
        ∀ l' ∈ before, l'.name ≠ preferred.getD "clcore" := by
  rw [select?, List.find?_eq_some_iff_append, defaultName]
  constructor
  · rintro ⟨hname, before, after, hlibraries, hbefore⟩
    exact ⟨before, after, hlibraries, by simpa using hname, by simpa using hbefore⟩
  · rintro ⟨before, after, hlibraries, hname, hbefore⟩
    exact ⟨by simpa using hname, before, after, hlibraries, by simpa using hbefore⟩

theorem select?_eq_none_iff {libraries : List Library} {preferred : Option String} :
    select? libraries preferred = none ↔ ∀ l ∈ libraries, l.name ≠ preferred.getD "clcore" := by
  simp [select?, defaultName]

/-- In whatever order the directories of a tree are listed, which makes a tree that shows the same,
the same is loaded: the library of every library file that a walk finds, in the order of the walk,
or the error of the first file that holds none.  Among those that are loaded, the first of a name is
picked. -/
theorem load_spec {t : Tree} (h : t.Distinct) :
    ∃ files result,
      (∀ found, Tree.Walks [] t found ↔ found = files) ∧
      (∀ place bytes, (place, bytes) ∈ files ↔ t.entryAt? place = some (.file bytes)) ∧
      (files.map Prod.fst).Nodup ∧
      (∀ (d : Disk) (root : Path) (listed : Tree), d.tree root = some listed → listed.Distinct →
        listed.entryAt? = t.entryAt? →
          (Builder.loadFrom (some root) : StateM Disk _).run d = (result, d)) ∧
      (∀ e, result = .error e ↔ ∃ before f after,
        libraryFiles files = before ++ f :: after ∧ Faulty f.2 e ∧
          ∀ f' ∈ before, ∃ l, Holds f'.1 f'.2 l) ∧
      (∀ libraries, result = .ok libraries ↔
        List.Forall₂ (fun f l => Holds f.1 f.2 l) (libraryFiles files) libraries) ∧
      ∀ libraries, result = .ok libraries → ∀ preferred,
        (∀ l, select? libraries preferred = some l ↔ ∃ before after,
          libraries = before ++ l :: after ∧ l.name = preferred.getD "clcore" ∧
            ∀ l' ∈ before, l'.name ≠ preferred.getD "clcore") ∧
        (select? libraries preferred = none ↔
          ∀ l ∈ libraries, l.name ≠ preferred.getD "clcore") := by
  refine ⟨t.files [], loadTree t, fun _ => Tree.walks_iff h, fun place bytes => ?_,
    Tree.nodup_files h [], fun d root listed hroot hlisted hview => ?_,
    fun _ => loadTree_eq_error_iff, fun _ => loadTree_eq_ok_iff,
    fun _ _ _ => ⟨fun _ => select?_eq_some_iff, select?_eq_none_iff⟩⟩
  · rw [Tree.mem_files_iff h]
    simp
  · rw [run_loadFrom, loadedFrom, hroot]
    dsimp only
    rw [loadTree, loadTree, Tree.files_congr h hlisted fun _ _ => by rw [hview]]

/-- An empty library in a directory. -/
def box : Tree := .dir [("b.rsir", .file [])]

/-- Two libraries of one name, and a hidden file that is none. -/
def shelf : Tree := .dir [(".rsir", .file [255]), ("b.rsir", .file []), ("a", box)]

/-- The same in another order. -/
def otherShelf : Tree := .dir [("a", box), ("b.rsir", .file []), (".rsir", .file [255])]

/-- The library at a path of these trees. -/
def shelved (path : Path) : Library := ⟨"b", path, { id := "script" }⟩

theorem holds_shelved (above : List String) :
    Holds (above ++ ["b.rsir"]) [] (shelved ("/".intercalate (above ++ ["b.rsir"]))) where
  named := ⟨above, rfl⟩
  name_ne := show "b" ≠ "" by decide
  path_eq := rfl
  module_eq :=
    have hread : Module.read "" = .ok { id := "script" } := by decide +kernel
    ⟨"", by decide +kernel, hread⟩

theorem distinct_box : box.Distinct :=
  .dir (by decide) (List.forall_mem_cons.2 ⟨.file [], nofun⟩)

theorem distinct_shelf : shelf.Distinct := by
  refine .dir (by decide) ?_
  simp only [List.forall_mem_cons]
  exact ⟨.file [255], .file [], distinct_box, nofun⟩

theorem distinct_otherShelf : otherShelf.Distinct := by
  refine .dir (by decide) ?_
  simp only [List.forall_mem_cons]
  exact ⟨distinct_box, .file [], .file [255], nofun⟩

theorem entryAt?_otherShelf : otherShelf.entryAt? = shelf.entryAt? := by
  funext place
  rcases place with _ | ⟨name, place⟩
  · rfl
  · simp only [otherShelf, shelf, Tree.entryAt?_dir_cons, Tree.lookup?_cons]
    grind

theorem walks_shelf :
    Tree.Walks [] shelf [([".rsir"], [255]), (["a", "b.rsir"], []), (["b.rsir"], [])] := by
  let order : List (String × Tree) := [(".rsir", .file [255]), ("a", box), ("b.rsir", .file [])]
  have hperm : order.Perm [(".rsir", .file [255]), ("b.rsir", .file []), ("a", box)] :=
    .cons _ (.swap _ _ _)
  have hbox : Tree.Walks ["a"] box [(["a", "b.rsir"], [])] :=
    .dir (.refl _) (by decide) (.cons (.file _ _) (.nil _))
  have horder : Tree.WalksEach [] order
      ([([".rsir"], [255])] ++ ([(["a", "b.rsir"], [])] ++ ([(["b.rsir"], [])] ++ []))) :=
    .cons (.file _ _) (.cons hbox (.cons (.file _ _) (.nil [])))
  exact .dir hperm (by decide +kernel) horder

/-- From both listings the library of the directory `a` is loaded first, and it is picked. -/
theorem load_spec_shelf :
    (∀ listed ∈ [shelf, otherShelf],
      (Builder.loadFrom (some "lib") : StateM Disk _).run { root := .dir [("lib", listed)] } =
        (.ok [shelved "a/b.rsir", shelved "b.rsir"], { root := .dir [("lib", listed)] })) ∧
      select? [shelved "a/b.rsir", shelved "b.rsir"] (some "b") = some (shelved "a/b.rsir") := by
  obtain ⟨files, result, hfiles, -, -, hload, -, hok, hpick⟩ := load_spec distinct_shelf
  obtain rfl := (hfiles _).1 walks_shelf
  have hresult : result = .ok [shelved "a/b.rsir", shelved "b.rsir"] :=
    (hok _).2 (.cons (holds_shelved ["a"]) (.cons (holds_shelved []) .nil))
  subst hresult
  refine ⟨?_, ((hpick _ rfl (some "b")).1 _).2 ⟨[], _, rfl, rfl, nofun⟩⟩
  simp only [List.forall_mem_cons]
  exact ⟨hload _ "lib" shelf rfl distinct_shelf rfl,
    hload _ "lib" otherShelf rfl distinct_otherShelf entryAt?_otherShelf, nofun⟩

end Library

end ComputeScript
