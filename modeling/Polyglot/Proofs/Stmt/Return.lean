import Polyglot.Stmt.Php
import Polyglot.Stmt.Python
import Polyglot.Stmt.TypeScript

/-!
# Returns

A return of the sentinel for a missing argument returns nothing; every other return has a value.
-/

set_option autoImplicit false

namespace Polyglot

theorem Expr.eq_omit_of_isOmit {e : Expr} (h : e.isOmit = true) : e = .omit := by
  cases e <;> first | rfl | cases h

namespace Plain

theorem toPython_ret {value : Expr} (h : value.isOmit = false) :
    (Plain.ret value).toPython = (do
      let v ← value.pythonText
      return [.line ("return " ++ v)]) := by
  cases value <;> first | rfl | cases h

theorem toTypeScript_ret {value : Expr} (h : value.isOmit = false) :
    (Plain.ret value).toTypeScript = (do
      let v ← value.typeScriptText
      return [.line ("return " ++ v ++ ";")]) := by
  cases value <;> first | rfl | cases h

theorem toPhp_ret {value : Expr} (h : value.isOmit = false) :
    (Plain.ret value).toPhp = (do
      let v ← value.phpText
      return [.line ("return " ++ v ++ ";")]) := by
  cases value <;> first | rfl | cases h

end Plain

end Polyglot
