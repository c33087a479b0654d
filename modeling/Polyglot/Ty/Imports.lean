import Polyglot.Ty.Basic

/-!
# Imports of types

What the written form of a type needs in scope, in the order in which the parts are written and
with repetitions. Only Python imports the names of generic types; the imports of a custom type are
the caller's. A named type needs nothing by itself where its alias is declared; PHP writes the base
in its place and needs what the base needs.
-/

set_option autoImplicit false

namespace Polyglot.Ty

/-- A name of Python's `typing` module, and nothing in other languages. -/
def typing (t : Target) (name : String) : List Import :=
  match t with
  | .python => [.named "typing" name]
  | _ => []

mutual

def imports (t : Target) : Ty → List Import
  | .any => typing t "Any"
  | .str | .num | .bool | .null | .python _ _ | .typescript _ => []
  | .omit =>
    match t with
    | .python => [.whole "builtins"]
    | _ => []
  | .literal _ => typing t "Literal"
  | .optional inner => typing t "Optional" ++ inner.imports t
  | .list inner => typing t "List" ++ inner.imports t
  | .set inner => typing t "Set" ++ inner.imports t
  | .dict key value => typing t "Dict" ++ key.imports t ++ value.imports t
  | .map key value => typing t "Mapping" ++ key.imports t ++ value.imports t
  | .union members => typing t "Union" ++ importsAll t members
  | .callable params result => typing t "Callable" ++ importsAll t params ++ result.imports t
  | .alias _ base =>
    match t with
    | .php => base.imports t
    | _ => []
  | .custom spelling => spelling.imports.for t

def importsAll (t : Target) : List Ty → List Import
  | [] => []
  | ty :: tys => ty.imports t ++ importsAll t tys

end

end Polyglot.Ty
