/-!
# Fields of a text

`fields` cuts a text at every occurrence of a separator.  There is always one field more than
there are separators, and fields may be empty.
-/

namespace ComputeScript

namespace Text

/-- The pieces between the occurrences of a separator. -/
def fields (sep : Char) : List Char → List (List Char)
  | [] => [[]]
  | c :: cs =>
    if c = sep then [] :: fields sep cs
    else
      match fields sep cs with
      | [] => [[c]]
      | first :: others => (c :: first) :: others

end Text

end ComputeScript
