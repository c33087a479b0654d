import Polyglot.Proofs.Expr.Negation
import Polyglot.Proofs.Name

/-!
# Core expressions

The expressions that every output language can write without help from the caller and without
folding one node into another, and expressions without their static types.

* `Expr.IsCore` : variables, constants, lists, properties, subscripts, calls by position,
  comparisons, negations and logical combinations, nested in any way.
* `Expr.untyped` : the tree without the types that are not part of its code.
-/

set_option autoImplicit false

namespace Polyglot

namespace Expr

mutual

/-- Whether the expression belongs to the core of the language, at every depth. -/
def IsCore : Expr → Prop
  | .literal _ | .null => True
  | .var name _ => IsName name
  | .prop owner name _ => owner.IsCore ∧ IsName name
  | .item .position target key => target.IsCore ∧ key.IsCore
  | .list items _ => AllCore items
  | .call callee false args [] => IsName callee ∧ AllCore args
  | .apply (.prop owner name _) false args [] => owner.IsCore ∧ IsName name ∧ AllCore args
  | .compare _ _ left right => left.IsCore ∧ right.IsCore
  | .junction _ (first :: second :: rest) => first.IsCore ∧ second.IsCore ∧ AllCore rest
  | .not operand => operand.foldsNegation = false ∧ operand.IsCore
  | _ => False

/-- Whether all expressions belong to the core of the language. -/
def AllCore : List Expr → Prop
  | [] => True
  | e :: es => e.IsCore ∧ AllCore es

end

mutual

/-- The expression without the static types that its code does not show. -/
def untyped : Expr → Expr
  | .literal value => .literal value
  | .null => .null
  | .omit => .omit
  | .list items _ => .list (untypedAll items) .any
  | .dict entries _ => .dict (untypedNamed entries) .any
  | .cast ty value => .cast ty value.untyped
  | .item selector target key => .item selector target.untyped key.untyped
  | .itemOr selector target key fallback =>
    .itemOr selector target.untyped key.untyped fallback.untyped
  | .var name _ => .var name none
  | .field name _ => .field name .any
  | .prop owner name _ => .prop owner.untyped name .any
  | .call callee construct args named =>
    .call callee construct (untypedAll args) (untypedNamed named)
  | .apply callee construct args named =>
    .apply callee.untyped construct (untypedAll args) (untypedNamed named)
  | .text parts => .text (untypedParts parts)
  | .only language code => .only language code
  | .junction op operands => .junction op (untypedAll operands)
  | .not operand => .not operand.untyped
  | .length value => .length value.untyped
  | .isNull negated value => .isNull negated value.untyped
  | .compare op negated left right => .compare op negated left.untyped right.untyped
  | .isType test value => .isType test value.untyped
  | .supplied value => .supplied value.untyped
  | .await value => .await value.untyped
  | .perTarget codes => .perTarget codes

def untypedAll : List Expr → List Expr
  | [] => []
  | e :: es => e.untyped :: untypedAll es

def untypedNamed : List (String × Expr) → List (String × Expr)
  | [] => []
  | (name, e) :: es => (name, e.untyped) :: untypedNamed es

def untypedParts : List Part → List Part
  | [] => []
  | .chars s :: ps => .chars s :: untypedParts ps
  | .value e :: ps => .value e.untyped :: untypedParts ps

end

theorem foldsNegation_untyped (e : Expr) : e.untyped.foldsNegation = e.foldsNegation := by
  cases e <;> rfl

end Expr

end Polyglot
