import Polyglot.Expr.Basic
import Polyglot.Text.Interpolated
import Polyglot.Ty.Python

/-!
# Expressions in Python

Each node is written from the code of its parts. A part is parenthesized by its tag alone, with
`Code.base` in front of a selector and `Code.operand` beside an operator. A negation is folded into
the test below it where that test has a negated form.
-/

set_option autoImplicit false

namespace Polyglot

/-- The Python operator of a comparison. -/
def Comparison.pythonOperator : Comparison → Bool → String
  | .eq, false => "=="
  | .eq, true => "!="
  | .lt, false => "<"
  | .lt, true => ">="
  | .gt, false => ">"
  | .gt, true => "<="

/-- The Python operator that joins operands. -/
def Junction.pythonOperator : Junction → String
  | .and => " and "
  | .or => " or "

/-- The Python class of a type test. -/
def TypeTest.pythonClass : TypeTest → String
  | .str => "str"
  | .int => "int"
  | .bool => "bool"
  | .list => "list"

/-- The Python code of a comparison of two rendered operands. -/
def Comparison.toPython (op : Comparison) (negated : Bool) (left right : Code) : Code :=
  ⟨left.operand ++ " " ++ op.pythonOperator negated ++ " " ++ right.operand, .product⟩

/-- The Python code of a test for null of a rendered value. -/
def Code.pythonIsNull (negated : Bool) (value : Code) : Code :=
  ⟨value.operand ++ (if negated then " is not None" else " is None"), .sum⟩

/-- The Python code of operands joined to a truth value. -/
def Junction.toPython (op : Junction) : List Code → String
  | [only] => "bool(" ++ only.text ++ ")"
  | codes => "bool(" ++ op.pythonOperator.intercalate (codes.map Code.operand) ++ ")"

/-- The text of a call. -/
def Code.callText (callee : String) (args : List String) : String :=
  callee ++ "(" ++ ", ".intercalate args ++ ")"

mutual

/-- The Python code of an expression. -/
def Expr.toPython : Expr → Except Error Code
  | .literal value => .ok ⟨value.toPython, .literal⟩
  | .null => .ok ⟨"None", .literal⟩
  | .omit => .ok ⟨"...", .product⟩
  | .list items _ => do
    let cs ← Expr.toPythonAll items
    return ⟨"[" ++ ", ".intercalate (cs.map Code.text) ++ "]", .literal⟩
  | .dict entries _ => do
    let es ← Expr.toPythonNamed entries
    let texts := es.map fun e => Text.Quoted.encode e.1 ++ ": " ++ e.2.text
    return ⟨"\x7b" ++ ", ".intercalate texts ++ "\x7d", .literal⟩
  | .cast ty value => do
    let t ← ty.pythonText
    let v ← value.toPython
    return ⟨Code.callText "cast" [t, v.text], .access⟩
  | .item _ target key => do
    let t ← target.toPython
    let k ← key.toPython
    return ⟨t.base ++ "[" ++ k.text ++ "]", .access⟩
  | .itemOr .position target index fallback => do
    let t ← target.toPython
    let i ← index.toPython
    let f ← fallback.toPython
    return ⟨t.base ++ "[" ++ i.text ++ "] if len(" ++ t.text ++ ") > " ++ i.operand ++
      " else " ++ f.text, .sum⟩
  | .itemOr .key target key fallback => do
    let t ← target.toPython
    let k ← key.toPython
    let f ← fallback.toPython
    return ⟨Code.callText (t.base ++ ".get") [k.text, f.text], .access⟩
  | .var name _ => .ok ⟨name, .literal⟩
  | .field name _ => .ok ⟨"self." ++ name, .access⟩
  | .prop owner name _ => do
    let o ← owner.toPython
    return ⟨o.base ++ "." ++ name, .access⟩
  | .call callee _ args named => do
    let cs ← Expr.toPythonAll args
    let ns ← Expr.toPythonNamed named
    return ⟨Code.callText callee
      (cs.map Code.text ++ ns.map fun n => n.1 ++ "=" ++ n.2.text), .access⟩
  | .apply callee _ args named => do
    let c ← callee.toPython
    let cs ← Expr.toPythonAll args
    let ns ← Expr.toPythonNamed named
    return ⟨Code.callText c.base
      (cs.map Code.text ++ ns.map fun n => n.1 ++ "=" ++ n.2.text), .access⟩
  | .text parts => do
    let ps ← Part.toPythonAll parts
    return ⟨"f\"" ++ String.join ps ++ "\"", .literal⟩
  | .only .python code => .ok code
  | .only language _ => .error (.notSupported (.exprFor language) .python)
  | .junction _ [] => .error (.invalid .emptyJunction)
  | .junction op operands => do
    let cs ← Expr.toPythonAll operands
    return ⟨op.toPython cs, .access⟩
  | .not (.not operand) => operand.toPython
  | .not (.isNull negated value) => do
    let v ← value.toPython
    return v.pythonIsNull (!negated)
  | .not (.compare op negated left right) => do
    let l ← left.toPython
    let r ← right.toPython
    return op.toPython (!negated) l r
  | .not operand => do
    let o ← operand.toPython
    return ⟨"not " ++ o.operand, .product⟩
  | .length value => do
    let v ← value.toPython
    return ⟨Code.callText "len" [v.text], .access⟩
  | .isNull negated value => do
    let v ← value.toPython
    return v.pythonIsNull negated
  | .compare op negated left right => do
    let l ← left.toPython
    let r ← right.toPython
    return op.toPython negated l r
  | .isType test value => do
    let v ← value.toPython
    return ⟨Code.callText "isinstance" [v.text, test.pythonClass], .access⟩
  | .supplied value => do
    let v ← value.toPython
    return ⟨"not " ++ Code.callText "isinstance" [v.text, "type(...)"], .product⟩
  | .await value => do
    let v ← value.toPython
    return ⟨"await " ++ v.base, .product⟩
  | .perTarget codes =>
    match codes.python with
    | some code => .ok code
    | none => .error (.missing .expr .python)

def Expr.toPythonAll : List Expr → Except Error (List Code)
  | [] => .ok []
  | e :: es => do
    let c ← e.toPython
    let cs ← Expr.toPythonAll es
    return c :: cs

def Expr.toPythonNamed : List (String × Expr) → Except Error (List (String × Code))
  | [] => .ok []
  | (name, e) :: es => do
    let c ← e.toPython
    let cs ← Expr.toPythonNamed es
    return (name, c) :: cs

/-- The pieces between the quotes of an f-string. -/
def Part.toPythonAll : List Part → Except Error (List String)
  | [] => .ok []
  | .chars s :: ps => do
    let rest ← Part.toPythonAll ps
    return Text.FString.encode s :: rest
  | .value e :: ps => do
    let c ← e.toPython
    let rest ← Part.toPythonAll ps
    return ("\x7b" ++ c.text ++ "\x7d") :: rest

end

/-- The Python text of an expression. -/
def Expr.pythonText (e : Expr) : Except Error String := do
  let c ← e.toPython
  return c.text

end Polyglot
