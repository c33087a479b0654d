import Polyglot.Error
import Polyglot.Text.Quoted
import Polyglot.Ty.Basic

/-!
# Types in Python

A type is written as an annotation. Some annotations refer to names that exist only for the type
checker; these have to be written as a string, and the need spreads from a part to the whole.
-/

set_option autoImplicit false

namespace Polyglot

def Literal.toPython : Literal → String
  | .bool true => "True"
  | .bool false => "False"
  | .int n => toString n
  | .str s => Text.Quoted.encode s

/-- An annotation and whether it has to be written as a string. -/
structure Annotation where
  text : String
  quoted : Bool
  deriving DecidableEq, Repr

namespace Annotation

/-- The annotation as it stands in code. -/
def written (a : Annotation) : String := if a.quoted then Text.Quoted.encode a.text else a.text

/-- The texts of several annotations, with commas between them. -/
def commas (as : List Annotation) : String := ", ".intercalate (as.map text)

/-- A generic type applied to arguments. -/
def generic (name : String) (args : List Annotation) : Annotation :=
  ⟨name ++ "[" ++ commas args ++ "]", args.any quoted⟩

end Annotation

namespace Ty

mutual

/-- The annotation for a type. -/
def toPython : Ty → Except Error Annotation
  | .any => .ok ⟨"Any", false⟩
  | .str => .ok ⟨"str", false⟩
  | .num => .ok ⟨"int", false⟩
  | .bool => .ok ⟨"bool", false⟩
  | .null => .ok ⟨"None", false⟩
  | .omit => .ok ⟨"builtins.ellipsis", true⟩
  | .literal values =>
    .ok ⟨"Literal[" ++ ", ".intercalate (values.values.map Literal.toPython) ++ "]", false⟩
  | .optional inner => do
    let i ← inner.toPython
    return .generic "Optional" [i]
  | .list inner => do
    let i ← inner.toPython
    return .generic "List" [i]
  | .set inner => do
    let i ← inner.toPython
    return .generic "Set" [i]
  | .dict key value => do
    let k ← key.toPython
    let v ← value.toPython
    return .generic "Dict" [k, v]
  | .map key value => do
    let k ← key.toPython
    let v ← value.toPython
    return .generic "Mapping" [k, v]
  | .union [] => .error (.invalid .emptyUnion)
  | .union members => do
    let ms ← toPythonAll members
    return .generic "Union" ms
  | .callable params result => do
    let ps ← toPythonAll params
    let r ← result.toPython
    return ⟨"Callable[[" ++ Annotation.commas ps ++ "], " ++ r.text ++ "]",
      ps.any Annotation.quoted || r.quoted⟩
  | .alias name _ => .ok ⟨name, false⟩
  | .custom spelling =>
    match spelling.python with
    | some text => .ok ⟨text, true⟩
    | none => .error (.missing .type .python)
  | .python text quoted => .ok ⟨text, quoted⟩
  | .typescript _ => .error (.notSupported (.typeFor .typescript) .python)

def toPythonAll : List Ty → Except Error (List Annotation)
  | [] => .ok []
  | ty :: tys => do
    let a ← ty.toPython
    let as ← toPythonAll tys
    return a :: as

end

/-- The annotation for a type as it stands in code. -/
def pythonText (ty : Ty) : Except Error String := do
  let a ← ty.toPython
  return a.written

end Ty

end Polyglot
