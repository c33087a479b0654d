/-!
# Text around interpolated expressions

The literal text inside a Python f-string in double quotes and inside a TypeScript template
literal. Braces are doubled in the first; the dollar sign is escaped in the second, so that no text
opens a field.
-/

set_option autoImplicit false

namespace Polyglot.Text

/-- One character of the text of an f-string. -/
def FString.escape (c : Char) : List Char :=
  if c = '\\' then ['\\', '\\']
  else if c = '"' then ['\\', '"']
  else if c = '\n' then ['\\', 'n']
  else if c = '\r' then ['\\', 'r']
  else if c = '\t' then ['\\', 't']
  else if c = '\x7b' then ['\x7b', '\x7b']
  else if c = '\x7d' then ['\x7d', '\x7d']
  else [c]

/-- Text inside an f-string. -/
def FString.encode (s : String) : String := String.ofList (s.toList.flatMap FString.escape)

/-- One character of the text of a template literal; `\x60` is the backtick that ends it. -/
def Template.escape (c : Char) : List Char :=
  if c = '\\' then ['\\', '\\']
  else if c = '\x60' then ['\\', '\x60']
  else if c = '$' then ['\\', '$']
  else if c = '\n' then ['\\', 'n']
  else if c = '\r' then ['\\', 'r']
  else if c = '\t' then ['\\', 't']
  else [c]

/-- Text inside a template literal. -/
def Template.encode (s : String) : String := String.ofList (s.toList.flatMap Template.escape)

end Polyglot.Text
