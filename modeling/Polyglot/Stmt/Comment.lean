import Polyglot.Layout
import Polyglot.Text.Blank

/-!
# Comments

Comments in the forms that the output languages have: a marker in front of every line, and
documentation blocks between `/**` and `*/`.
-/

set_option autoImplicit false

namespace Polyglot.Layout

/-- A comment, with the marker in front of every line of its text and no blanks at line ends. -/
def marked (marker text : String) : List Layout :=
  (Text.lines text).map fun l => .line (Text.trimEnd (marker ++ l))

/-- A comment whose marker stands only in front of the first line of its text. -/
def commented (marker text : String) : List Layout := [.line (Text.trimEnd (marker ++ text))]

/-- One text of a documentation block. -/
def docLine (text : String) : String := if text = "" then " *" else " * " ++ text

/-- A documentation block, if there is anything in it. -/
def docBlock (texts : List String) : List Layout :=
  if texts.isEmpty then []
  else .line "/**" :: (texts.map (fun t => .line (docLine t)) ++ [.line " */"])

/-- A documentation string between triple quotes, if there is anything in it. -/
def docString (texts : List String) : List Layout :=
  if texts.isEmpty then [] else .line "\"\"\"" :: (texts.map .line ++ [.line "\"\"\""])

end Polyglot.Layout
