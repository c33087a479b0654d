/-!
# Rendered code and how tightly it binds

An expression is rendered to a text with a tag for its loosest operator. The surrounding code
decides from the tag alone whether to put parentheses around the text.

* `Code.base` : the text in front of a selector, a subscript or an argument list.
* `Code.operand` : the text beside an operator.
-/

set_option autoImplicit false

namespace Polyglot

/-- How tightly code binds, from an atom to an additive operator. -/
inductive Precedence where
  | literal
  | access
  | product
  | sum
  deriving DecidableEq, Repr

namespace Precedence

/-- A lower rank binds more tightly. -/
def rank : Precedence → Nat
  | .literal => 1
  | .access => 2
  | .product => 3
  | .sum => 4

end Precedence

/-- The text of an expression and how tightly it binds. -/
structure Code where
  text : String
  tag : Precedence
  deriving DecidableEq, Repr

namespace Code

def parenthesized (s : String) : String := "(" ++ s ++ ")"

/-- The text as the base of a selector, a subscript or a call: anything looser than member access
is parenthesized. -/
def base (c : Code) : String :=
  if Precedence.access.rank < c.tag.rank then parenthesized c.text else c.text

/-- The text as an operand: operators are parenthesized. -/
def operand (c : Code) : String :=
  if Precedence.product.rank ≤ c.tag.rank then parenthesized c.text else c.text

/-- On ranks that are whole numbers the two rules parenthesize the same code. -/
theorem base_eq_operand (c : Code) : c.base = c.operand := rfl

end Code

end Polyglot
