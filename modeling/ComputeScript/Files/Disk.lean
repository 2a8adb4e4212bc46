import ComputeScript.Files

/-!
# File systems as values

A `Disk` is a file system held as a value: a tree, a count of the operations so far, and a
function that says which of them are refused although nothing is in their way.  Reading a file,
walking a directory and discarding a staged file are not counted and never refused.  Every
computation whose state holds a disk can access files.
-/

namespace ComputeScript

/-- A file system.  `refuses n` refuses the operation number `n`. -/
structure Disk where
  root : Tree := .empty
  clock : Nat := 0
  refuses : Nat → Bool := fun _ => false

namespace Disk

/-- The disk after one more operation, and whether that is refused. -/
def tick (d : Disk) : Bool × Disk :=
  (d.refuses d.clock, { d with clock := d.clock + 1 })

/-- Changes the tree and answers whether that succeeded, unless it is refused. -/
def alter (f : Tree → Bool × Tree) (d : Disk) : Bool × Disk :=
  match d.tick with
  | (true, d) => (false, d)
  | (false, d) => ((f d.root).1, { d with root := (f d.root).2 })

/-- Applies a change to the tree, unless it is refused or impossible. -/
def change (f : Tree → Option Tree) (d : Disk) : Bool × Disk :=
  d.alter fun root =>
    match f root with
    | some root => (true, root)
    | none => (false, root)

/-- The names that staged files have. -/
def stagedName (n : Nat) : String := s!".tmp{n}"

/-- A name for a staged file that no entry has. -/
def freshName (entries : List (String × Tree)) : Option String :=
  ((List.range (entries.length + 1)).map stagedName).find? fun name =>
    (Tree.lookup? entries name).isNone

/-- Creates an empty staged file in a directory. -/
def stage (dir : Path) (d : Disk) : Option Path × Disk :=
  match d.tick with
  | (true, d) => (none, d)
  | (false, d) =>
    match d.root.find? dir with
    | some (.dir entries) =>
      match freshName entries with
      | some name =>
        match d.root.put? (dir ++ "/" ++ name) [] with
        | some root => (some (dir ++ "/" ++ name), { d with root })
        | none => (none, d)
      | none => (none, d)
    | _ => (none, d)

/-- Renames a file; a directory is not replaced. -/
def rename (source target : Path) (d : Disk) : Bool × Disk :=
  d.change fun root =>
    match root.find? source with
    | some (.file bytes) => (root.remove source).put? target bytes
    | _ => none

/-- The directory at a path, with all that is in it.  This is never refused, whatever `refuses`
says, and what is in it may have paths that are too long to be valid. -/
def tree (path : Path) (d : Disk) : Option Tree :=
  (d.root.find? path).filter Tree.isDir

/-- The bytes of the file at a path.  This is never refused, whatever `refuses` says. -/
def read (path : Path) (d : Disk) : Option Bytes :=
  match d.root.find? path with
  | some (.file bytes) => some bytes
  | _ => none

end Disk

instance {m : Type → Type} [Monad m] [MonadStateOf Disk m] : Files m where
  read path := return (← getThe Disk).read path
  tree path := return (← getThe Disk).tree path
  makeDirs path := modifyGetThe Disk (Disk.alter fun root => root.makeDirs path)
  stage dir := modifyGetThe Disk (Disk.stage dir)
  fill path bytes := modifyGetThe Disk (Disk.change fun root => root.put? path bytes)
  flush _ := modifyGetThe Disk (Disk.change some)
  rename source target := modifyGetThe Disk (Disk.rename source target)
  discard path := modifyThe Disk fun d => { d with root := d.root.remove path }

end ComputeScript
