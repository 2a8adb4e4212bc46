import ComputeScript.Text.Glyph

/-!
# Quoted text

Diagnostics show a text between double quotes with everything in it visible: `escape` writes the
double quote, the backslash and four controls as a backslash pair and a character without a
visible form by its number, and leaves every other character as it is.
-/

namespace ComputeScript

namespace Text

/-- The lower-case hexadecimal digits of `n`, without leading zeros. -/
def hexDigits (n : Nat) : String :=
  String.ofList (Nat.toDigits 16 n)

/-- How one character is shown between double quotes. -/
def escape (c : Char) : String :=
  if c = '\x00' then "\\0"
  else if c = '\t' then "\\t"
  else if c = '\r' then "\\r"
  else if c = '\n' then "\\n"
  else if c = '"' then "\\\""
  else if c = '\\' then "\\\\"
  else if hasNoGlyph c then "\\u\x7b" ++ hexDigits c.toNat ++ "\x7d"
  else String.singleton c

/-- The text between double quotes, each character escaped. -/
def quote (s : String) : String :=
  "\"" ++ String.join (s.toList.map escape) ++ "\""

end Text

end ComputeScript
