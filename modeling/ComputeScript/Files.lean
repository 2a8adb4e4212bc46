import ComputeScript.Files.Tree

/-!
# Access to files

`Files m` is what compiling asks of a file system, in a monad `m`.  Any operation may be refused;
a staged file is a temporary file that its owner renames or removes.
-/

namespace ComputeScript

/-- The operations on files.  Those that may be refused answer whether they succeeded, or give
nothing. -/
class Files (m : Type → Type) where
  /-- the bytes of a file -/
  read : Path → m (Option Bytes)
  /-- the directory at a path, with all that is in it -/
  tree : Path → m (Option Tree)
  /-- makes a directory and those that lead to it -/
  makeDirs : Path → m Bool
  /-- creates an empty staged file in a directory and gives its path -/
  stage : Path → m (Option Path)
  /-- puts bytes into a staged file -/
  fill : Path → Bytes → m Bool
  /-- makes sure that the bytes of a staged file are stored -/
  flush : Path → m Bool
  /-- renames a staged file to a path, where it replaces another file at once -/
  rename : Path → Path → m Bool
  /-- removes a staged file -/
  discard : Path → m Unit

end ComputeScript
