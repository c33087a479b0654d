import Polyglot.Expr.Basic

/-!
# Static types of expressions

The type of an expression as far as it follows from the tree, and what iterating over the
expression yields.

* `Expr.typeOf` : the type, or the reason why it is not known.
* `Expr.elementType?`, `Expr.entryTypes?` : what a loop over the expression binds.
-/

set_option autoImplicit false

namespace Polyglot

/-- The type of a constant. -/
def Literal.ty : Literal → Ty
  | .bool _ => .bool
  | .int _ => .num
  | .str _ => .str

namespace Expr

/-- The static type of an expression. -/
def typeOf : Expr → Except Error Ty
  | .literal value => .ok value.ty
  | .null => .ok .null
  | .omit => .ok .omit
  | .list _ inner => .ok (.list inner)
  | .dict _ valueType => .ok (.dict .str valueType)
  | .cast ty _ => .ok ty
  | .item selector target _ | .itemOr selector target _ _ => do
    let ty ← target.typeOf
    match selector, ty with
    | .position, .list inner => return inner
    | .position, _ => throw (.untyped .indexOfNonList)
    | .key, .dict _ value | .key, .map _ value => return value
    | .key, _ => throw (.untyped .keyOfNonDict)
  | .var _ (some ty) => .ok ty
  | .var name none => .error (.untyped (.variable name))
  | .field _ ty | .prop _ _ ty => .ok ty
  | .call .. | .apply .. => .error (.untyped .call)
  | .text _ => .ok .str
  | .only _ _ => .error (.untyped .languageSpecific)
  | .junction _ _ | .not _ | .isNull _ _ | .compare _ _ _ _ | .isType _ _ | .supplied _ =>
    .ok .bool
  | .length _ => .ok .num
  | .await _ => .error (.untyped .awaited)
  | .perTarget _ => .error (.untyped .hardCoded)

/-- The type of the elements, if the expression is known to be a list or a set. -/
def elementType? (e : Expr) : Option Ty :=
  match e.typeOf with
  | .ok (.list inner) | .ok (.set inner) => some inner
  | _ => none

/-- The types of the keys and the values, if the expression is known to be a dict or a map. -/
def entryTypes? (e : Expr) : Option (Ty × Ty) :=
  match e.typeOf with
  | .ok (.dict key value) | .ok (.map key value) => some (key, value)
  | _ => none

/-- Whether the expression is known to be a map object rather than a dict. -/
def isMap (e : Expr) : Bool :=
  match e.typeOf with
  | .ok (.map _ _) => true
  | _ => false

end Expr

end Polyglot
