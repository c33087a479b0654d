import Polyglot.Expr.Basic
import Polyglot.Text.SingleQuoted
import Polyglot.Ty.Php

/-!
# Expressions in PHP

Each node is written from the code of its parts, which are parenthesized by their tags alone. A
negation is folded into the test below it where that test has a negated form. PHP has no casts to
the types of this library, so a cast is written as its value; it has no sentinel for an argument
that was not supplied, no named arguments and nothing to await.
-/

set_option autoImplicit false

namespace Polyglot

/-- A constant in PHP. -/
def Literal.toPhp : Literal → String
  | .bool true => "true"
  | .bool false => "false"
  | .int n => toString n
  | .str s => Text.SingleQuoted.encode s

/-- The PHP operator of a comparison. -/
def Comparison.phpOperator : Comparison → Bool → String
  | .eq, false => "==="
  | .eq, true => "!=="
  | .lt, false => "<"
  | .lt, true => ">="
  | .gt, false => ">"
  | .gt, true => "<="

/-- The PHP operator that joins operands. -/
def Junction.phpOperator : Junction → String
  | .and => " && "
  | .or => " || "

/-- The PHP function of a type test. -/
def TypeTest.phpFunction : TypeTest → String
  | .str => "is_string"
  | .int => "is_int"
  | .bool => "is_bool"
  | .list => "is_array"

/-- The PHP code of a comparison of two rendered operands. -/
def Comparison.toPhp (op : Comparison) (negated : Bool) (left right : Code) : Code :=
  ⟨left.operand ++ " " ++ op.phpOperator negated ++ " " ++ right.operand, .product⟩

/-- The PHP code of a test for null of a rendered value. -/
def Code.phpIsNull (negated : Bool) (value : Code) : Code :=
  ⟨value.base ++ (if negated then " !== null" else " === null"), .product⟩

def Junction.toPhp (op : Junction) : List Code → String
  | [only] => "(bool)" ++ only.base
  | codes => op.phpOperator.intercalate (codes.map Code.base)

/-- The PHP code of a call, or of the creation of an object. -/
def Code.phpCall (callee : String) (construct : Bool) (args : List Code) : Code :=
  let call := callee ++ "(" ++ ", ".intercalate (args.map text) ++ ")"
  if construct then ⟨"new " ++ call, .product⟩ else ⟨call, .access⟩

mutual

/-- The PHP code of an expression. -/
def Expr.toPhp : Expr → Except Error Code
  | .literal value => .ok ⟨value.toPhp, .literal⟩
  | .null => .ok ⟨"null", .literal⟩
  | .omit => .error (.notSupported .omittedArgument .php)
  | .list items _ => do
    let cs ← Expr.toPhpAll items
    return ⟨"[" ++ ", ".intercalate (cs.map Code.text) ++ "]", .literal⟩
  | .dict entries _ => do
    let es ← Expr.toPhpNamed entries
    let texts := es.map fun e => Text.SingleQuoted.encode e.1 ++ " => " ++ e.2.text
    return ⟨"[" ++ ", ".intercalate texts ++ "]", .literal⟩
  | .cast _ value => value.toPhp
  | .item _ target key => do
    let t ← target.toPhp
    let k ← key.toPhp
    return ⟨t.base ++ "[" ++ k.text ++ "]", .access⟩
  | .itemOr _ target key fallback => do
    let t ← target.toPhp
    let k ← key.toPhp
    let f ← fallback.toPhp
    return ⟨t.base ++ "[" ++ k.text ++ "] ?? " ++ f.operand, .product⟩
  | .var name _ => .ok ⟨"$" ++ name, .literal⟩
  | .field name _ => .ok ⟨"$this->" ++ name, .access⟩
  | .prop owner name _ => do
    let o ← owner.toPhp
    return ⟨o.base ++ "->" ++ name, .access⟩
  | .call _ _ _ (_ :: _) => .error (.notSupported .namedArguments .php)
  | .call callee construct args [] => do
    let cs ← Expr.toPhpAll args
    return .phpCall callee construct cs
  | .apply _ _ _ (_ :: _) => .error (.notSupported .namedArguments .php)
  | .apply callee construct args [] => do
    let cs ← Expr.toPhpAll args
    let c ← callee.toPhp
    return .phpCall c.base construct cs
  | .text [] => .ok ⟨"''", .literal⟩
  | .text parts => do
    let ps ← Part.toPhpAll parts
    return ⟨" . ".intercalate ps, .product⟩
  | .only .php code => .ok code
  | .only language _ => .error (.notSupported (.exprFor language) .php)
  | .junction _ [] => .error (.invalid .emptyJunction)
  | .junction op operands => do
    let cs ← Expr.toPhpAll operands
    return ⟨op.toPhp cs, .product⟩
  | .not (.not operand) => operand.toPhp
  | .not (.isNull negated value) => do
    let v ← value.toPhp
    return v.phpIsNull (!negated)
  | .not (.compare op negated left right) => do
    let l ← left.toPhp
    let r ← right.toPhp
    return op.toPhp (!negated) l r
  | .not operand => do
    let o ← operand.toPhp
    return ⟨"!" ++ o.operand, .product⟩
  | .length value => do
    let v ← value.toPhp
    return ⟨"count(" ++ v.text ++ ")", .literal⟩
  | .isNull negated value => do
    let v ← value.toPhp
    return v.phpIsNull negated
  | .compare op negated left right => do
    let l ← left.toPhp
    let r ← right.toPhp
    return op.toPhp negated l r
  | .isType test value => do
    let v ← value.toPhp
    return ⟨test.phpFunction ++ "(" ++ v.text ++ ")", .access⟩
  | .supplied _ => .error (.notSupported .omittedArgument .php)
  | .await _ => .error (.notSupported .awaiting .php)
  | .perTarget codes =>
    match codes.php with
    | some code => .ok code
    | none => .error (.missing .expr .php)

def Expr.toPhpAll : List Expr → Except Error (List Code)
  | [] => .ok []
  | e :: es => do
    let c ← e.toPhp
    let cs ← Expr.toPhpAll es
    return c :: cs

def Expr.toPhpNamed : List (String × Expr) → Except Error (List (String × Code))
  | [] => .ok []
  | (name, e) :: es => do
    let c ← e.toPhp
    let cs ← Expr.toPhpNamed es
    return (name, c) :: cs

/-- The operands of a text put together from parts. -/
def Part.toPhpAll : List Part → Except Error (List String)
  | [] => .ok []
  | .chars s :: ps => do
    let rest ← Part.toPhpAll ps
    return Text.SingleQuoted.encode s :: rest
  | .value e :: ps => do
    let c ← e.toPhp
    let rest ← Part.toPhpAll ps
    return c.operand :: rest

end

/-- The PHP text of an expression. -/
def Expr.phpText (e : Expr) : Except Error String := do
  let c ← e.toPhp
  return c.text

end Polyglot
