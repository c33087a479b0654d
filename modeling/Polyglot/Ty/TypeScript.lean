import Polyglot.Error
import Polyglot.Text.Quoted
import Polyglot.Ty.Basic

/-!
# Types in TypeScript

A type is written with a flag that says whether it is closed, that is, whether an array suffix
written behind it applies to all of it. An open element type makes its list a generic one.
-/

set_option autoImplicit false

namespace Polyglot

def Literal.toTypeScript : Literal → String
  | .bool true => "true"
  | .bool false => "false"
  | .int n => toString n
  | .str s => Text.Quoted.encode s

/-- A TypeScript type and whether it is closed. -/
structure TypeScriptTy where
  text : String
  closed : Bool
  deriving DecidableEq, Repr

namespace Ty

/-- The names of the parameters in a function type, in order. -/
def parameterNames : List String :=
  "abcdefghijklmnopqrstuvwxyzABCDEFGHIJKLMNOPQRSTUVWXYZ".toList.map String.singleton

mutual

/-- The TypeScript form of a type. -/
def toTypeScript : Ty → Except Error TypeScriptTy
  | .any => .ok ⟨"any", true⟩
  | .str => .ok ⟨"string", true⟩
  | .num => .ok ⟨"number", true⟩
  | .bool => .ok ⟨"boolean", true⟩
  | .null => .ok ⟨"null", true⟩
  | .omit => .ok ⟨"undefined", true⟩
  | .literal values =>
    .ok ⟨" | ".intercalate (values.values.map Literal.toTypeScript), values.size == 1⟩
  | .optional inner => do
    let i ← inner.toTypeScript
    return ⟨i.text ++ " | null", false⟩
  | .list inner => do
    let i ← inner.toTypeScript
    return ⟨if i.closed then i.text ++ "[]" else "Array<" ++ i.text ++ ">", false⟩
  | .set inner => do
    let i ← inner.toTypeScript
    return ⟨"Set<" ++ i.text ++ ">", true⟩
  | .dict key value => do
    let k ← key.toTypeScript
    let v ← value.toTypeScript
    return ⟨"\x7b[k: " ++ k.text ++ "]: " ++ v.text ++ "\x7d", true⟩
  | .map key value => do
    let k ← key.toTypeScript
    let v ← value.toTypeScript
    return ⟨"Map<" ++ k.text ++ ", " ++ v.text ++ ">", true⟩
  | .union [] => .error (.invalid .emptyUnion)
  | .union members => do
    let ms ← toTypeScriptAll members
    return ⟨" | ".intercalate (ms.map TypeScriptTy.text), false⟩
  | .callable params result => do
    if parameterNames.length < params.length then
      throw (.invalid (.tooManyParameters parameterNames.length))
    let ps ← toTypeScriptAll params
    let r ← result.toTypeScript
    let typed := parameterNames.zipWith (fun name p => name ++ ": " ++ p.text) ps
    return ⟨"(" ++ ", ".intercalate typed ++ ") => " ++ r.text, false⟩
  | .alias name _ => .ok ⟨name, true⟩
  | .custom spelling =>
    match spelling.typescript with
    | some text => .ok ⟨text, false⟩
    | none => .error (.missing .type .typescript)
  | .python _ _ => .error (.notSupported (.typeFor .python) .typescript)
  | .typescript text => .ok ⟨text, false⟩

def toTypeScriptAll : List Ty → Except Error (List TypeScriptTy)
  | [] => .ok []
  | ty :: tys => do
    let t ← ty.toTypeScript
    let ts ← toTypeScriptAll tys
    return t :: ts

end

/-- The TypeScript form of a type as it stands in code. -/
def typeScriptText (ty : Ty) : Except Error String := do
  let t ← ty.toTypeScript
  return t.text

end Ty

end Polyglot
