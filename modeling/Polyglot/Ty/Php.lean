import Polyglot.Error
import Polyglot.Ty.Basic

/-!
# Types in PHP

PHP has two notations: strict types in signatures, which cannot express every type, and types in
documentation comments, which can. PHP has no sets, no sentinel for an argument that was not
supplied, and no named types: a named type is written as its base.
-/

set_option autoImplicit false

namespace Polyglot

/-- The plain PHP type of a constant. -/
def Literal.phpType : Literal → String
  | .bool _ => "bool"
  | .int _ => "int"
  | .str _ => "string"

/-- The plain PHP types of the members of a set, in ascending order. -/
def LiteralSet.phpTypes (s : LiteralSet) : List String := ascending (s.values.map Literal.phpType)

/-- The PHP forms of a type: in signatures, if PHP can express one, and in comments. It is `closed`
if an array suffix applies to all of the latter. -/
structure PhpTy where
  strict : Option String
  doc : String
  closed : Bool
  deriving DecidableEq, Repr

namespace Ty

mutual

/-- The PHP forms of a type. -/
def toPhp : Ty → Except Error PhpTy
  | .any => .ok ⟨none, "mixed", true⟩
  | .str => .ok ⟨some "string", "string", true⟩
  | .num => .ok ⟨some "int", "int", true⟩
  | .bool => .ok ⟨some "bool", "boolean", true⟩
  | .null => .ok ⟨none, "null", true⟩
  | .omit => .error (.notSupported .omittedType .php)
  | .set _ => .error (.notSupported .setType .php)
  | .literal values =>
    match values.phpTypes with
    | [] => .error (.invalid .emptyLiteral)
    | [only] => .ok ⟨some only, only, true⟩
    | many => .ok ⟨some "mixed", "|".intercalate many, false⟩
  | .optional inner => do
    let i ← inner.toPhp
    return ⟨none, "null|" ++ i.doc, false⟩
  | .list inner => do
    let i ← inner.toPhp
    return ⟨some "array", if i.closed then i.doc ++ "[]" else "mixed", false⟩
  | .dict _ value => do
    let v ← value.toPhp
    return ⟨some "array", if v.closed then v.doc ++ "[]" else "mixed", false⟩
  | .map _ _ => .ok ⟨some "\\Ds\\Map", "\\Ds\\Map", true⟩
  | .union [] => .error (.invalid .emptyUnion)
  | .union members => do
    let ms ← toPhpAll members
    return ⟨none, "|".intercalate (ms.map PhpTy.doc), false⟩
  | .callable _ _ => .ok ⟨none, "callable", true⟩
  | .alias _ base => base.toPhp
  | .custom spelling =>
    match spelling.php with
    | some php => .ok ⟨php.strict, php.doc, false⟩
    | none => .error (.missing .type .php)
  | .python _ _ => .error (.notSupported (.typeFor .python) .php)
  | .typescript _ => .error (.notSupported (.typeFor .typescript) .php)

def toPhpAll : List Ty → Except Error (List PhpTy)
  | [] => .ok []
  | ty :: tys => do
    let t ← ty.toPhp
    let ts ← toPhpAll tys
    return t :: ts

end

/-- A comment that states the type of what follows it. -/
def phpVarComment (ty : Ty) : Except Error String := do
  let t ← ty.toPhp
  return "/** @var " ++ t.doc ++ " */"

end Ty

end Polyglot
