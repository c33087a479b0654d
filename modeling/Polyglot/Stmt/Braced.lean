import Polyglot.Layout
import Polyglot.Stmt.Function

/-!
# Bodies in braces

What the languages with braces have in common: the body of a function, and empty lines between the
members of a class.
-/

set_option autoImplicit false

namespace Polyglot

/-- The body of a function and its end; an abstract function has neither. -/
def Signature.bracedBody (s : Signature) (inner : List Layout) : List Layout :=
  if s.isAbstract then [] else [.nest inner, .line "\x7d"]

/-- Groups of lines with an empty line between two of them, and one before the first if something
stands there already. -/
def Layout.spaced (started : Bool) : List (List Layout) → List Layout
  | [] => []
  | group :: rest => (if started then [blank] else []) ++ group ++ spaced true rest

end Polyglot
