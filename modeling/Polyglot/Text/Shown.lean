import Polyglot.Text.Printable

/-!
# Names shown in messages

A name that may hold any character stands in a message between double quotes, on one line, with
everything that would not be seen written as an escape.
-/

set_option autoImplicit false

namespace Polyglot.Text.Shown

/-- One character of a shown name. -/
def escape (c : Char) : List Char :=
  if c = '\x00' then ['\\', '0']
  else if c = '\t' then ['\\', 't']
  else if c = '\r' then ['\\', 'r']
  else if c = '\n' then ['\\', 'n']
  else if c = '\\' ∨ c = '"' then ['\\', c]
  else if isPrintable c then [c]
  else '\\' :: 'u' :: '\x7b' :: (Nat.toDigits 16 c.toNat ++ ['\x7d'])

/-- The shown form of a name. -/
def encode (s : String) : String := String.ofList ('"' :: (s.toList.flatMap escape ++ ['"']))

end Polyglot.Text.Shown
