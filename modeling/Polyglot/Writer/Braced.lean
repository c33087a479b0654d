import Polyglot.Stmt.Class
import Polyglot.Writer

/-!
# Writing bodies in braces

What the languages with braces have in common: the end of a function, and a class around its members.
-/

set_option autoImplicit false

namespace Polyglot

open WriteM

/-- A function behind its parameters; an abstract function ends there. -/
def Signature.writeBraced (s : Signature) (result : String) (block : WriteM Unit) : WriteM Unit :=
  if s.isAbstract then line0 (")" ++ result ++ ";")
  else do
    line0 (")" ++ result ++ " \x7b")
    nested block
    line0 "\x7d"

namespace Class

/-- The members of a class above its methods, with an empty line above the constructor if there is a
property. The result tells whether there are any. -/
def writeBracedMembers (c : Class) (t : Target) (property : Property → WriteM Unit)
    (construct : Constructor → WriteM Unit) : WriteM Bool := do
  c.properties.forM property
  match ← c.constructor t with
  | none => return !c.properties.isEmpty
  | some k =>
    when (!c.properties.isEmpty) blankLine
    construct k
    return true

/-- A class around its members. -/
def writeBraced (c : Class) (head : String) (members : WriteM Bool) (methods : Bool → WriteM Unit) :
    WriteM Unit := do
  docBlock c.docstring
  line0 head
  nested do
    let needBlank ← members
    methods needBlank
    c.remarks.forM fun r => line0 ("// " ++ r)
  line0 "\x7d"

end Class

end Polyglot
