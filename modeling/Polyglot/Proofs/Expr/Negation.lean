import Polyglot.Expr.Render

/-!
# Negations

A negation is written as another test where the operand has a negated form, and in front of its
operand everywhere else.

* `Expr.foldsNegation` : whether the operand has a negated form.
* `Expr.toPython_not`, `Expr.toTypeScript_not`, `Expr.toPhp_not` : the negations of other operands.
-/

set_option autoImplicit false

namespace Polyglot.Expr

/-- Whether a negation of this expression is written as another test. -/
def foldsNegation : Expr → Bool
  | .not _ | .compare _ _ _ _ | .isNull _ _ => true
  | _ => false

theorem toPython_not {e : Expr} (h : e.foldsNegation = false) :
    (Expr.not e).toPython = (do
      let o ← e.toPython
      return ⟨"not " ++ o.operand, .product⟩) := by
  cases e with
  | not _ | compare _ _ _ _ | isNull _ _ => cases h
  | _ => rfl

theorem toTypeScript_not {e : Expr} (h : e.foldsNegation = false) :
    (Expr.not e).toTypeScript = (do
      let o ← e.toTypeScript
      return ⟨"!" ++ o.operand, .product⟩) := by
  cases e with
  | not _ | compare _ _ _ _ | isNull _ _ => cases h
  | _ => rfl

theorem toPhp_not {e : Expr} (h : e.foldsNegation = false) :
    (Expr.not e).toPhp = (do
      let o ← e.toPhp
      return ⟨"!" ++ o.operand, .product⟩) := by
  cases e with
  | not _ | compare _ _ _ _ | isNull _ _ => cases h
  | _ => rfl

end Polyglot.Expr
