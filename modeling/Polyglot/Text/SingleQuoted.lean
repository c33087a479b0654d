/-!
# Single-quoted literals

String literals in which only the backslash and the single quote are escaped, as PHP reads text
between single quotes. Every other character, newlines included, stands for itself.
-/

set_option autoImplicit false

namespace Polyglot.Text.SingleQuoted

/-- One character inside a literal. -/
def escape (c : Char) : List Char :=
  if c = '\\' then ['\\', '\\'] else if c = '\'' then ['\\', '\''] else [c]

/-- The characters of the literal for a text. -/
def encodeChars (cs : List Char) : List Char := '\'' :: (cs.flatMap escape ++ ['\''])

/-- The literal for a text. -/
def encode (s : String) : String := String.ofList (encodeChars s.toList)

end Polyglot.Text.SingleQuoted
