import Polyglot.Expr.Basic
import Polyglot.Text.Interpolated
import Polyglot.Ty.TypeScript

/-!
# Expressions in TypeScript

Each node is written from the code of its parts, which are parenthesized by their tags alone. A
negation is folded into the test below it where that test has a negated form. TypeScript has no
named arguments.
-/

set_option autoImplicit false

namespace Polyglot

/-- The TypeScript operator of a comparison. -/
def Comparison.typeScriptOperator : Comparison → Bool → String
  | .eq, false => "==="
  | .eq, true => "!=="
  | .lt, false => "<"
  | .lt, true => ">="
  | .gt, false => ">"
  | .gt, true => "<="

/-- The TypeScript operator that joins operands. -/
def Junction.typeScriptOperator : Junction → String
  | .and => " && "
  | .or => " || "

/-- The TypeScript code of a comparison of two rendered operands. -/
def Comparison.toTypeScript (op : Comparison) (negated : Bool) (left right : Code) : Code :=
  ⟨left.operand ++ " " ++ op.typeScriptOperator negated ++ " " ++ right.operand, .product⟩

/-- The TypeScript code of a test for null of a rendered value. -/
def Code.typeScriptIsNull (negated : Bool) (value : Code) : Code :=
  ⟨value.base ++ (if negated then " !== null" else " === null"), .sum⟩

/-- The TypeScript code of operands joined to a truth value. -/
def Junction.toTypeScript (op : Junction) : List Code → String
  | [only] => "!!" ++ only.operand
  | codes => "!!(" ++ op.typeScriptOperator.intercalate (codes.map Code.operand) ++ ")"

/-- The TypeScript code of a type test of a rendered value. -/
def TypeTest.toTypeScript : TypeTest → Code → Code
  | .str, value => ⟨"typeof " ++ value.base ++ " === 'string'", .product⟩
  | .int, value => ⟨"typeof " ++ value.base ++ " === 'number'", .product⟩
  | .bool, value => ⟨"typeof " ++ value.base ++ " === 'boolean'", .product⟩
  | .list, value => ⟨"Array.isArray(" ++ value.base ++ ")", .access⟩

/-- The TypeScript text of a call, or of the creation of an object. -/
def Code.typeScriptCall (callee : String) (construct : Bool) (args : List Code) : String :=
  (if construct then "new " else "") ++ callee ++ "(" ++ ", ".intercalate (args.map text) ++ ")"

mutual

/-- The TypeScript code of an expression. -/
def Expr.toTypeScript : Expr → Except Error Code
  | .literal value => .ok ⟨value.toTypeScript, .literal⟩
  | .null => .ok ⟨"null", .literal⟩
  | .omit => .ok ⟨"undefined", .literal⟩
  | .list items _ => do
    let cs ← Expr.toTypeScriptAll items
    return ⟨"[" ++ ", ".intercalate (cs.map Code.text) ++ "]", .literal⟩
  | .dict entries _ => do
    let es ← Expr.toTypeScriptNamed entries
    let texts := es.map fun e => Text.Quoted.encode e.1 ++ ": " ++ e.2.text
    return ⟨"\x7b" ++ ", ".intercalate texts ++ "\x7d", .literal⟩
  | .cast ty value => do
    let v ← value.toTypeScript
    let t ← ty.typeScriptText
    return ⟨"(" ++ v.base ++ " as " ++ t ++ ")", .literal⟩
  | .item _ target key => do
    let t ← target.toTypeScript
    let k ← key.toTypeScript
    return ⟨t.base ++ "[" ++ k.text ++ "]", .access⟩
  | .itemOr _ target key fallback => do
    let t ← target.toTypeScript
    let k ← key.toTypeScript
    let f ← fallback.toTypeScript
    let access := t.base ++ "[" ++ k.text ++ "]"
    return ⟨access ++ " !== undefined ? " ++ access ++ " : " ++ f.text, .sum⟩
  | .var name _ => .ok ⟨name, .literal⟩
  | .field name _ => .ok ⟨"this." ++ name, .access⟩
  | .prop owner name _ => do
    let o ← owner.toTypeScript
    return ⟨o.base ++ "." ++ name, .access⟩
  | .call _ _ _ (_ :: _) => .error (.notSupported .namedArguments .typescript)
  | .call callee construct args [] => do
    let cs ← Expr.toTypeScriptAll args
    return ⟨Code.typeScriptCall callee construct cs, .access⟩
  | .apply _ _ _ (_ :: _) => .error (.notSupported .namedArguments .typescript)
  | .apply callee construct args [] => do
    let c ← callee.toTypeScript
    let cs ← Expr.toTypeScriptAll args
    return ⟨Code.typeScriptCall c.base construct cs, .access⟩
  | .text parts => do
    let ps ← Part.toTypeScriptAll parts
    return ⟨"\x60" ++ String.join ps ++ "\x60", .literal⟩
  | .only .typescript code => .ok code
  | .only language _ => .error (.notSupported (.exprFor language) .typescript)
  | .junction _ [] => .error (.invalid .emptyJunction)
  | .junction op operands => do
    let cs ← Expr.toTypeScriptAll operands
    return ⟨op.toTypeScript cs, .product⟩
  | .not (.not operand) => operand.toTypeScript
  | .not (.isNull negated value) => do
    let v ← value.toTypeScript
    return v.typeScriptIsNull (!negated)
  | .not (.compare op negated left right) => do
    let l ← left.toTypeScript
    let r ← right.toTypeScript
    return op.toTypeScript (!negated) l r
  | .not operand => do
    let o ← operand.toTypeScript
    return ⟨"!" ++ o.operand, .product⟩
  | .length value => do
    let v ← value.toTypeScript
    return ⟨v.base ++ ".length", .access⟩
  | .isNull negated value => do
    let v ← value.toTypeScript
    return v.typeScriptIsNull negated
  | .compare op negated left right => do
    let l ← left.toTypeScript
    let r ← right.toTypeScript
    return op.toTypeScript negated l r
  | .isType test value => do
    let v ← value.toTypeScript
    return test.toTypeScript v
  | .supplied value => do
    let v ← value.toTypeScript
    return ⟨"typeof " ++ v.base ++ " !== 'undefined'", .product⟩
  | .await value => do
    let v ← value.toTypeScript
    return ⟨"await " ++ v.base, .product⟩
  | .perTarget codes =>
    match codes.typescript with
    | some code => .ok code
    | none => .error (.missing .expr .typescript)

def Expr.toTypeScriptAll : List Expr → Except Error (List Code)
  | [] => .ok []
  | e :: es => do
    let c ← e.toTypeScript
    let cs ← Expr.toTypeScriptAll es
    return c :: cs

def Expr.toTypeScriptNamed : List (String × Expr) → Except Error (List (String × Code))
  | [] => .ok []
  | (name, e) :: es => do
    let c ← e.toTypeScript
    let cs ← Expr.toTypeScriptNamed es
    return (name, c) :: cs

/-- The pieces between the backticks of a template literal. -/
def Part.toTypeScriptAll : List Part → Except Error (List String)
  | [] => .ok []
  | .chars s :: ps => do
    let rest ← Part.toTypeScriptAll ps
    return Text.Template.encode s :: rest
  | .value e :: ps => do
    let c ← e.toTypeScript
    let rest ← Part.toTypeScriptAll ps
    return ("$\x7b" ++ c.text ++ "\x7d") :: rest

end

/-- The TypeScript text of an expression. -/
def Expr.typeScriptText (e : Expr) : Except Error String := do
  let c ← e.toTypeScript
  return c.text

end Polyglot
