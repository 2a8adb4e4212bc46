import ComputeScript.Text.Fields

/-!
# Paths

A path is a text with slashes.  It is followed field by field from the root of a file system:
`Path.step?` says to which place one more field leads, where a place is a list of names from the
root.  An empty field and a dot stay where they are, and two dots go back.  `Path.parent` is the
path without its last name.
-/

namespace ComputeScript

/-- A path, relative to a working directory. -/
abbrev Path := String

namespace Path

/-- The bytes that a name has at most. -/
def maxName : Nat := 255

/-- The bytes that a path has at most. -/
def maxLength : Nat := 4095

/-- Whether a file system takes a text as a path at all. -/
def isValid (path : Path) : Bool :=
  !path.isEmpty && decide (path.utf8ByteSize ≤ maxLength) && !path.toList.contains '\x00'

/-- The texts between the slashes of a path. -/
def fields (path : Path) : List String :=
  (Text.fields '/' path.toList).map String.ofList

/-- The place that one more field leads to from a directory.  Nothing leads out of the root, and a
name that is too long leads nowhere. -/
def step? (place : List String) (field : String) : Option (List String) :=
  match field with
  | "" => some place
  | "." => some place
  | ".." => if place.isEmpty then none else some place.dropLast
  | name => if name.utf8ByteSize ≤ maxName then some (place ++ [name]) else none

/-- Whether a field stays where it is. -/
def stays : String → Bool
  | "" => true
  | "." => true
  | _ => false

/-- The path without its last name, nor the fields around it that stay where they are.  The first
field of a path is a name even if it is a dot. -/
def parent (path : Path) : Path :=
  match path.fields with
  | [] => ""
  | first :: rest =>
    match rest.reverse.dropWhile stays with
    | [] => ""
    | _ :: above =>
      match first, above.dropWhile stays with
      | "", [] => "/"
      | first, above => String.intercalate "/" (first :: above.reverse)

end Path

end ComputeScript
