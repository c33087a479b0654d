import Polyglot.Stmt.Php
import Polyglot.Stmt.Python
import Polyglot.Stmt.TypeScript

/-!
# Statements and bodies in any language
-/

set_option autoImplicit false

namespace Polyglot

/-- The lines of a statement in one language, at its depth. -/
def Stmt.layout (s : Stmt) : Target → Except Error (List Layout)
  | .python => s.toPython
  | .typescript => s.toTypeScript
  | .php => s.toPhp

/-- The lines of a body in one language, at the depth of its first statement. -/
def Body.layout (b : Body) : Target → Except Error (List Layout)
  | .python => b.toPython
  | .typescript => b.toTypeScript
  | .php => b.toPhp

end Polyglot
