import Polyglot.Expr.Php
import Polyglot.Expr.Python
import Polyglot.Expr.TypeScript

/-!
# Expressions in any language
-/

set_option autoImplicit false

namespace Polyglot

def Expr.render (e : Expr) : Target → Except Error Code
  | .python => e.toPython
  | .typescript => e.toTypeScript
  | .php => e.toPhp

end Polyglot
