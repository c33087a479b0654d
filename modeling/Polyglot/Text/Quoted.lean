/-!
# Quoted literals

String literals with backslash escapes, as Python and TypeScript read them. A literal stands in
single quotes, or in double quotes when that leaves every quote in the text unescaped.

* `Quoted.mark` chooses the quote.
* `Quoted.encode` writes the literal.
-/

set_option autoImplicit false

namespace Polyglot.Text

/-- Whether a character has the general category `Cc`. -/
def isControl (c : Char) : Bool := c.toNat < 0x20 || (0x7f ≤ c.toNat && c.toNat < 0xa0)

namespace Quoted

/-- The quote around a text: double if the text holds single quotes and no double ones. -/
def mark (cs : List Char) : Char := if '\'' ∈ cs ∧ '"' ∉ cs then '"' else '\''

/-- Two hexadecimal digits for a code point below 256. -/
def hex2 (n : Nat) : List Char := [Nat.digitChar (n / 16), Nat.digitChar (n % 16)]

/-- One character inside a literal with the given quote. -/
def escape (quote c : Char) : List Char :=
  if c = '\\' then ['\\', '\\']
  else if c = '\n' then ['\\', 'n']
  else if c = '\r' then ['\\', 'r']
  else if c = '\t' then ['\\', 't']
  else if c = quote then ['\\', c]
  else if isControl c then '\\' :: 'x' :: hex2 c.toNat
  else [c]

/-- The characters of the literal for a text. -/
def encodeChars (cs : List Char) : List Char :=
  mark cs :: (cs.flatMap (escape (mark cs)) ++ [mark cs])

/-- The literal for a text. -/
def encode (s : String) : String := String.ofList (encodeChars s.toList)

theorem mark_eq (cs : List Char) : mark cs = '"' ∨ mark cs = '\'' := by
  unfold mark
  split <;> simp

end Quoted

end Polyglot.Text
