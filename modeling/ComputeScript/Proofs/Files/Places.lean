import ComputeScript.Files.Disk
import ComputeScript.Proofs.Text
import Mathlib.Logic.Function.Basic
import Mathlib.Tactic.SplitIfs

/-!
# What a tree shows

`Tree.entryAt?` views a tree as a function of its places: at a place there is a file with its bytes,
a directory, or nothing.  In this view writing and removing a file are updates at one place
(`put?_eq_some`, `entryAt?_remove`), and where a path leads is decided by the directories alone
(`place?_congr`).
-/

namespace ComputeScript

theorem Path.fields_ne_nil (path : Path) : path.fields ≠ [] :=
  List.map_eq_nil_iff.not.2 (Text.fields_ne_nil '/' path.toList)

namespace Tree

/-- What is at a place, apart from what is below it. -/
inductive Entry where
  | file (bytes : Bytes)
  | dir
  deriving DecidableEq, Repr

/-- What is at each place. -/
abbrev View := List String → Option Entry

/-- The root of a tree. -/
def entry : Tree → Entry
  | file bytes => .file bytes
  | dir _ => .dir

/-- What a tree has at a place. -/
def entryAt? (t : Tree) : View := fun place => (t.get? place).map entry

@[simp] theorem entryAt?_nil (t : Tree) : t.entryAt? [] = some t.entry := by
  simp [entryAt?, get?]

@[simp] theorem entryAt?_file_cons (bytes : Bytes) (name : String) (place : List String) :
    (file bytes).entryAt? (name :: place) = none := rfl

@[simp] theorem entryAt?_dir_cons (entries : List (String × Tree)) (name : String)
    (place : List String) :
    (dir entries).entryAt? (name :: place) = (lookup? entries name).bind (·.entryAt? place) := by
  rw [entryAt?, get?]
  cases lookup? entries name <;> rfl

/-! ### Entries of a directory -/

theorem lookup?_cons (e : String × Tree) (entries : List (String × Tree)) (name : String) :
    lookup? (e :: entries) name = if e.1 = name then some e.2 else lookup? entries name := by
  rw [lookup?]
  split_ifs with h
  · rw [List.find?_cons_of_pos (by simpa using h)]
    rfl
  · rw [List.find?_cons_of_neg (by simpa using h)]
    rfl

theorem lookup?_setEntry (name : String) (t : Tree) (entries : List (String × Tree))
    (other : String) :
    lookup? (setEntry name t entries) other =
      if other = name then some t else lookup? entries other := by
  induction entries with
  | nil => simp [setEntry, lookup?_cons, eq_comm]
  | cons e entries ih =>
    obtain rfl | hother := eq_or_ne other name
    · by_cases hname : e.1 = other <;> simp [setEntry, lookup?_cons, hname, ih]
    · rw [if_neg hother] at ih ⊢
      by_cases hname : e.1 = name
      · simp [setEntry, lookup?_cons, hname, Ne.symm hother]
      · simp [setEntry, lookup?_cons, hname, ih]

theorem lookup?_filter_ne (name : String) (entries : List (String × Tree)) (other : String) :
    lookup? (entries.filter fun e => e.1 != name) other =
      if other = name then none else lookup? entries other := by
  induction entries with
  | nil => simp [lookup?]
  | cons e entries ih =>
    obtain rfl | hother := eq_or_ne other name
    · rw [if_pos rfl] at ih ⊢
      by_cases hname : e.1 = other <;> simp [lookup?_cons, hname, ih]
    · rw [if_neg hother] at ih ⊢
      by_cases hname : e.1 = name
      · simp [hname, ih, lookup?_cons, Ne.symm hother]
      · simp [hname, ih, lookup?_cons]

/-! ### Changes at one place -/

/-- Nothing is below a place that has no directory. -/
theorem bind_entryAt?_cons {o : Option Tree} (h : o.bind (·.entryAt? []) ≠ some .dir)
    (name : String) (place : List String) : o.bind (·.entryAt? (name :: place)) = none := by
  match o, h with
  | none, _ => rfl
  | some (file _), _ => rfl
  | some (dir _), h => exact absurd rfl h

/-- Another entry of a directory that differs at one place makes a directory that does. -/
theorem entryAt?_dir_update {entries entries' : List (String × Tree)} {name : String}
    {place : List String} {new : Option Tree} {e : Option Entry}
    (hentries : ∀ other,
      lookup? entries' other = if other = name then new else lookup? entries other)
    (hnew : ∀ q, new.bind (·.entryAt? q) =
      if q = place then e else (lookup? entries name).bind (·.entryAt? q)) :
    (dir entries').entryAt? = Function.update (dir entries).entryAt? (name :: place) e := by
  funext q
  rcases q with _ | ⟨other, q⟩
  · simp [Function.update, entry]
  · rw [entryAt?_dir_cons, hentries]
    by_cases hother : other = name
    · subst hother
      simp only [if_pos, hnew, Function.update, entryAt?_dir_cons, List.cons.injEq, true_and,
        eq_rec_constant, dite_eq_ite]
    · simp only [hother, if_false, Function.update, entryAt?_dir_cons, List.cons.injEq, false_and,
        dite_false]

/-- Putting something with nothing below it where there is no directory changes what is at that
place only. -/
theorem entryAt?_set? {new t t' : Tree} {place : List String}
    (hnew : ∀ name q, new.entryAt? (name :: q) = none) (h : set? new t place = some t')
    (hfree : t.entryAt? place ≠ some .dir) :
    t'.entryAt? = Function.update t.entryAt? place (some new.entry) := by
  induction place generalizing t t' with
  | nil =>
    obtain ⟨rfl⟩ := h
    funext q
    cases t with
    | dir => exact absurd rfl hfree
    | file old => cases q <;> simp [hnew, Function.update]
  | cons name path ih =>
    cases t with
    | file => cases h
    | dir entries =>
      rw [entryAt?_dir_cons] at hfree
      cases path with
      | nil =>
        obtain ⟨rfl⟩ := h
        refine entryAt?_dir_update (lookup?_setEntry name new entries) fun q => ?_
        rcases q with _ | ⟨other, q⟩
        · exact entryAt?_nil new
        · exact (hnew other q).trans (bind_entryAt?_cons hfree other q).symm
      | cons next path =>
        rw [set?] at h
        split at h
        · rename_i below hbelow
          rw [hbelow] at hfree
          obtain ⟨below', hset, rfl⟩ := Option.map_eq_some_iff.1 h
          refine entryAt?_dir_update (lookup?_setEntry name below' entries) fun q => ?_
          rw [hbelow, Option.bind_some, Option.bind_some, ih hset hfree]
          simp [Function.update]
        · cases h
        · exact fun heq => absurd heq (List.cons_ne_nil next path)

/-- Removing a file changes what is at its place only. -/
theorem entryAt?_erase {t : Tree} {place : List String} (hne : place ≠ [])
    (hfree : t.entryAt? place ≠ some .dir) :
    (t.erase place).entryAt? = Function.update t.entryAt? place none := by
  induction place generalizing t with
  | nil => exact absurd rfl hne
  | cons name path ih =>
    cases t with
    | file => exact (Function.update_eq_self (name :: path) (file _).entryAt?).symm
    | dir entries =>
      rw [entryAt?_dir_cons] at hfree
      cases path with
      | nil =>
        refine entryAt?_dir_update (lookup?_filter_ne name entries) fun q => ?_
        rcases q with _ | ⟨other, q⟩
        · rfl
        · exact (bind_entryAt?_cons hfree other q).symm
      | cons next path =>
        rw [erase]
        split
        · rename_i below hbelow
          rw [hbelow] at hfree
          refine entryAt?_dir_update (lookup?_setEntry name _ entries) fun q => ?_
          rw [hbelow, Option.bind_some, Option.bind_some, ih (List.cons_ne_nil next path) hfree]
          simp [Function.update]
        · rename_i hbelow
          refine (Function.update_eq_self_iff.2 ?_).symm
          rw [entryAt?_dir_cons, hbelow, Option.bind_none]
        · exact fun heq => absurd heq (List.cons_ne_nil next path)

/-- A file is written at a place that is free or has a file. -/
theorem entryAt?_write? {bytes : Bytes} {t t' : Tree} {place : List String}
    (h : t.write? bytes place = some t') :
    t.entryAt? place ≠ some .dir ∧
      t'.entryAt? = Function.update t.entryAt? place (some (.file bytes)) := by
  unfold write? at h
  split at h
  · cases h
  · rename_i hdir
    have hfree : t.entryAt? place ≠ some .dir := by
      intro hentry
      obtain ⟨below, hget, hbelow⟩ := Option.map_eq_some_iff.1 hentry
      cases below with
      | file => cases hbelow
      | dir entries => exact hdir entries hget
    split at h
    · cases h
    · exact ⟨hfree, entryAt?_set? (fun _ _ => rfl) h hfree⟩

/-! ### Where paths lead -/

/-- Two views with the same directories. -/
def SameDirs (a b : View) : Prop := ∀ place, a place = some .dir ↔ b place = some .dir

theorem SameDirs.update {a : View} {place : List String} {e : Option Entry}
    (h : a place ≠ some .dir) (he : e ≠ some .dir) : SameDirs (Function.update a place e) a := by
  intro q
  by_cases hq : q = place
  · subst hq
    simp [h, he]
  · rw [Function.update_of_ne hq]

theorem follow?_cons (root : Tree) (place : List String) (field : String) (rest : List String) :
    root.follow? place (field :: rest) =
      if root.entryAt? place = some .dir then
        (Path.step? place field).bind fun next => root.follow? next rest
      else none := by
  rw [follow?, entryAt?]
  rcases root.get? place with _ | _ | _ <;> simp [entry]

theorem follow?_append (root : Tree) (place fields rest : List String) :
    root.follow? place (fields ++ rest) =
      (root.follow? place fields).bind fun next => root.follow? next rest := by
  induction fields generalizing place with
  | nil => rfl
  | cons field fields ih =>
    rw [List.cons_append, follow?_cons, follow?_cons]
    split_ifs
    · rw [Option.bind_assoc]
      exact congrArg _ (funext ih)
    · rfl

theorem follow?_congr {a b : Tree} (h : SameDirs a.entryAt? b.entryAt?)
    (place fields : List String) : a.follow? place fields = b.follow? place fields := by
  induction fields generalizing place with
  | nil => rfl
  | cons field fields ih =>
    rw [follow?_cons, follow?_cons, if_congr (h place) (congrArg _ (funext ih)) rfl]

/-- Where a path leads is decided by the directories. -/
theorem place?_congr {a b : Tree} (h : SameDirs a.entryAt? b.entryAt?) (path : Path) :
    a.place? path = b.place? path := by
  rw [place?, place?, follow?_congr h]

/-- What a file system with this view answers for the bytes at a place. -/
def Entry.bytes? : Entry → Option Bytes
  | file bytes => some bytes
  | dir => none

/-- The bytes that a view shows at a place, if there is one. -/
def View.read (view : View) (place? : Option (List String)) : Option Bytes :=
  (place?.bind view).bind Entry.bytes?

/-- What a path leads to, as far as a view shows it. -/
theorem map_entry_find? (t : Tree) (path : Path) :
    (t.find? path).map entry = (t.place? path).bind t.entryAt? := by
  rw [find?, Option.map_bind]
  rfl

theorem put?_eq_some {t t' : Tree} {path : Path} {bytes : Bytes} (h : t.put? path bytes = some t') :
    ∃ place, t.place? path = some place ∧ t.entryAt? place ≠ some .dir ∧
      t'.entryAt? = Function.update t.entryAt? place (some (.file bytes)) := by
  obtain ⟨place, hplace, hwrite⟩ := Option.bind_eq_some_iff.1 h
  exact ⟨place, hplace, entryAt?_write? hwrite⟩

theorem entryAt?_remove {t : Tree} {path : Path} {place : List String}
    (hplace : t.place? path = some place) (hne : place ≠ [])
    (hfree : t.entryAt? place ≠ some .dir) :
    (t.remove path).entryAt? = Function.update t.entryAt? place none := by
  rw [remove, hplace]
  exact entryAt?_erase hne hfree

/-! ### The last field of a path -/

theorem get?_append (t : Tree) (place rest : List String) :
    t.get? (place ++ rest) = (t.get? place).bind (·.get? rest) := by
  induction place generalizing t with
  | nil => rfl
  | cons name place ih =>
    cases t with
    | file => rfl
    | dir entries =>
      rw [List.cons_append, get?, get?]
      cases lookup? entries name with
      | none => rfl
      | some below => exact ih below

/-- A place below which there is something is a directory. -/
theorem entryAt?_dropLast {t : Tree} {place : List String} (h : t.entryAt? place = some .dir) :
    t.entryAt? place.dropLast = some .dir := by
  rcases List.eq_nil_or_concat place with rfl | ⟨above, name, rfl⟩
  · exact h
  · rw [List.concat_eq_append, List.dropLast_concat]
    obtain ⟨below, hbelow, -⟩ := Option.map_eq_some_iff.1 h
    rw [List.concat_eq_append, get?_append] at hbelow
    obtain ⟨parent, hparent, hname⟩ := Option.bind_eq_some_iff.1 hbelow
    cases parent with
    | file => cases hname
    | dir => rw [entryAt?, hparent]; rfl

/-- A path that leads to no directory leads to an entry of one, by its last field. -/
theorem exists_above_of_place? {t : Tree} {path : Path} {place : List String}
    (hplace : t.place? path = some place) (hdir : t.entryAt? place ≠ some .dir) :
    ∃ above name, place = above ++ [name] ∧ path.fields.getLast? = some name ∧
      t.entryAt? above = some .dir := by
  have hfollow : t.follow? [] path.fields = some place := by
    rw [place?] at hplace
    split_ifs at hplace
    exact hplace
  rcases List.eq_nil_or_concat path.fields with hnil | ⟨before, field, hfields⟩
  · exact absurd hnil path.fields_ne_nil
  · rw [List.concat_eq_append] at hfields
    rw [hfields, follow?_append] at hfollow
    obtain ⟨above, -, hlast⟩ := Option.bind_eq_some_iff.1 hfollow
    rw [follow?_cons] at hlast
    split_ifs at hlast with habove
    obtain ⟨next, hstep, hnext⟩ := Option.bind_eq_some_iff.1 hlast
    obtain ⟨rfl⟩ := hnext
    unfold Path.step? at hstep
    split at hstep
    · obtain ⟨rfl⟩ := hstep
      exact absurd habove hdir
    · obtain ⟨rfl⟩ := hstep
      exact absurd habove hdir
    · split_ifs at hstep
      obtain ⟨rfl⟩ := hstep
      exact absurd (entryAt?_dropLast habove) hdir
    · split_ifs at hstep
      obtain ⟨rfl⟩ := hstep
      exact ⟨above, field, rfl, by rw [hfields, List.getLast?_concat], habove⟩

/-- A path that leads to no directory leads to its last field. -/
theorem getLast?_place? {t : Tree} {path : Path} {place : List String}
    (hplace : t.place? path = some place) (hdir : t.entryAt? place ≠ some .dir) :
    place.getLast? = path.fields.getLast? := by
  obtain ⟨above, name, rfl, hlast, -⟩ := exists_above_of_place? hplace hdir
  rw [List.getLast?_concat, hlast]

/-! ### Where a file can be put -/

/-- In a directory anything can be put. -/
theorem exists_set?_concat (new : Tree) {t : Tree} {above : List String} (name : String)
    (h : t.entryAt? above = some .dir) : ∃ t', set? new t (above ++ [name]) = some t' := by
  induction above generalizing t with
  | nil =>
    cases t with
    | file => simp [entry] at h
    | dir entries => exact ⟨_, rfl⟩
  | cons next above ih =>
    cases t with
    | file => simp at h
    | dir entries =>
      rw [entryAt?_dir_cons] at h
      obtain ⟨below, hbelow, h⟩ := Option.bind_eq_some_iff.1 h
      obtain ⟨t', ht'⟩ := ih h
      obtain ⟨field, rest, hrest⟩ : ∃ field rest, above ++ [name] = field :: rest :=
        List.exists_cons_of_ne_nil (by simp)
      rw [hrest] at ht'
      refine ⟨dir (setEntry next t' entries), ?_⟩
      rw [List.cons_append, hrest, set?, hbelow]
      · simp only [ht', Option.map_some]
      · exact fun heq => absurd heq (List.cons_ne_nil _ _)

/-- A file can be put at a path unless that leads to a directory or nowhere. -/
theorem exists_put?_iff {t : Tree} {path : Path} {bytes : Bytes} :
    (∃ t', t.put? path bytes = some t') ↔
      ∃ place, t.place? path = some place ∧ t.entryAt? place ≠ some .dir := by
  constructor
  · rintro ⟨t', h⟩
    obtain ⟨place, hplace, hdir, -⟩ := put?_eq_some h
    exact ⟨place, hplace, hdir⟩
  · rintro ⟨place, hplace, hdir⟩
    obtain ⟨above, name, rfl, -, habove⟩ := exists_above_of_place? hplace hdir
    obtain ⟨t', ht'⟩ := exists_set?_concat (file bytes) name habove
    refine ⟨t', ?_⟩
    rw [put?, hplace, Option.bind_some, write?]
    split
    · next hget => exact absurd (by rw [entryAt?, hget]; rfl) hdir
    · rw [if_neg (by simp), ht']

end Tree

end ComputeScript
