import ComputeScript.Files.Path
import ComputeScript.Pass

/-!
# File trees

A `Tree` is a file or a directory with named entries, as a value.  Places are lists of names from
the root of the tree, and `Tree.follow?` gives the place that the fields of a path lead to.
`Tree.files` lists the files below a directory depth first, each directory in the order of the
names of its entries, and so does not depend on the order in which a directory holds them.
-/

namespace ComputeScript

/-- A file with its bytes or a directory with its entries. -/
inductive Tree where
  | file (bytes : Bytes)
  | dir (entries : List (String × Tree))
  deriving Repr, Inhabited

namespace Tree

/-- An empty directory. -/
def empty : Tree := .dir []

/-- Whether a tree is a directory. -/
def isDir : Tree → Bool
  | file _ => false
  | dir _ => true

/-- The entry of a name in a list of entries. -/
def lookup? (entries : List (String × Tree)) (name : String) : Option Tree :=
  (entries.find? fun e => e.1 == name).map Prod.snd

/-- The entries with one replaced, or added at the end if there is none of its name. -/
def setEntry (name : String) (t : Tree) : List (String × Tree) → List (String × Tree)
  | [] => [(name, t)]
  | e :: es => if e.1 == name then (name, t) :: es else e :: setEntry name t es

/-- What is at a place. -/
def get? : Tree → List String → Option Tree
  | t, [] => some t
  | file _, _ :: _ => none
  | dir entries, name :: path =>
    match lookup? entries name with
    | some t => t.get? path
    | none => none

/-- The tree with something else at a place, which must be in a directory. -/
def set? (new : Tree) : Tree → List String → Option Tree
  | _, [] => some new
  | file _, _ :: _ => none
  | dir entries, [name] => some (dir (setEntry name new entries))
  | dir entries, name :: path =>
    match lookup? entries name with
    | some t => (set? new t path).map fun t' => dir (setEntry name t' entries)
    | none => none

/-- The tree without what is at a place. -/
def erase : Tree → List String → Tree
  | t, [] => t
  | file bytes, _ :: _ => file bytes
  | dir entries, [name] => dir (entries.filter fun e => e.1 != name)
  | dir entries, name :: path =>
    match lookup? entries name with
    | some t => dir (setEntry name (t.erase path) entries)
    | none => dir entries

/-- The tree with a file at a place, which must be in a directory; a directory is not replaced by a
file. -/
def write? (bytes : Bytes) (t : Tree) (place : List String) : Option Tree :=
  match t.get? place with
  | some (dir _) => none
  | _ => if place.isEmpty then none else set? (file bytes) t place

/-- Entries in the order of their names, which is that of their UTF-8 bytes. -/
def sortByName {α : Type} (entries : List (String × α)) : List (String × α) :=
  entries.mergeSort fun a b => decide (a.1 ≤ b.1)

mutual

/-- The files of a tree, each with its path, which continues `path`.  No directory is left out, and
`Path.maxLength` is no limit for the paths. -/
def files (path : List String) : Tree → List (List String × Bytes)
  | file bytes => [(path, bytes)]
  | dir entries => (sortByName (filesOf path entries)).flatMap Prod.snd

/-- The files below each of some entries. -/
def filesOf (path : List String) :
    List (String × Tree) → List (String × List (List String × Bytes))
  | [] => []
  | (name, t) :: entries => (name, t.files (path ++ [name])) :: filesOf path entries

end

/-! ### Paths -/

/-- The place that some fields lead to from another one.  Whatever they are, each of them is looked
for in a directory. -/
def follow? (root : Tree) : List String → List String → Option (List String)
  | place, [] => some place
  | place, field :: rest =>
    match root.get? place with
    | some (dir _) => (Path.step? place field).bind fun next => follow? root next rest
    | _ => none

/-- The place that a path leads to.  There may be nothing at it. -/
def place? (root : Tree) (path : Path) : Option (List String) :=
  if path.isValid then root.follow? [] path.fields else none

/-- What a path leads to. -/
def find? (root : Tree) (path : Path) : Option Tree :=
  (root.place? path).bind root.get?

/-- The tree with a file at a path. -/
def put? (root : Tree) (path : Path) (bytes : Bytes) : Option Tree :=
  (root.place? path).bind (root.write? bytes)

/-- The tree without what a path leads to. -/
def remove (root : Tree) (path : Path) : Tree :=
  match root.place? path with
  | some place => root.erase place
  | none => root

/-- Makes a directory at a place, unless there is one. -/
def makeDir? (root : Tree) (place : List String) : Option Tree :=
  match root.get? place with
  | some (dir _) => some root
  | some (file _) => none
  | none => set? empty root place

/-- Makes the directories that some fields lead to from a place, one after the other, and answers
whether there is one at every field.  Those before the first failure stay. -/
def makeDirsFrom (root : Tree) : List String → List String → Bool × Tree
  | _, [] => (true, root)
  | place, field :: rest =>
    match Path.step? place field with
    | none => (false, root)
    | some next =>
      match root.makeDir? next with
      | none => (false, root)
      | some root => makeDirsFrom root next rest

/-- Makes the directories on the way of a path. -/
def makeDirs (root : Tree) (path : Path) : Bool × Tree :=
  if path.isValid then root.makeDirsFrom [] path.fields else (false, root)

end Tree

end ComputeScript
