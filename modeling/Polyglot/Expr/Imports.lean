import Polyglot.Expr.Basic
import Polyglot.Ty.Imports

/-!
# Imports of expressions

What the code of an expression needs in scope: the types of its casts and, in Python, the function
that casts. Other types in the tree are not written and need nothing.
-/

set_option autoImplicit false

namespace Polyglot

mutual

/-- The requirements of an expression for one language, with repetitions. -/
def Expr.imports (t : Target) : Expr → List Import
  | .literal _ | .null | .omit | .var _ _ | .field _ _ | .only _ _ | .perTarget _ => []
  | .list items _ | .junction _ items => Expr.importsAll t items
  | .dict entries _ => Expr.importsNamed t entries
  | .cast ty value => Ty.typing t "cast" ++ ty.imports t ++ value.imports t
  | .item _ target key => target.imports t ++ key.imports t
  | .itemOr _ target key fallback => target.imports t ++ key.imports t ++ fallback.imports t
  | .prop owner _ _ => owner.imports t
  | .call _ _ args named => Expr.importsAll t args ++ Expr.importsNamed t named
  | .apply callee _ args named =>
    callee.imports t ++ Expr.importsAll t args ++ Expr.importsNamed t named
  | .text parts => Part.importsAll t parts
  | .compare _ _ left right => left.imports t ++ right.imports t
  | .not value | .length value | .isNull _ value | .isType _ value | .supplied value
  | .await value => value.imports t

def Expr.importsAll (t : Target) : List Expr → List Import
  | [] => []
  | e :: es => e.imports t ++ Expr.importsAll t es

def Expr.importsNamed (t : Target) : List (String × Expr) → List Import
  | [] => []
  | (_, e) :: es => e.imports t ++ Expr.importsNamed t es

def Part.importsAll (t : Target) : List Part → List Import
  | [] => []
  | .chars _ :: ps => Part.importsAll t ps
  | .value e :: ps => e.imports t ++ Part.importsAll t ps

end

end Polyglot
