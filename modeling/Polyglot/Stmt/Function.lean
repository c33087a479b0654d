import Polyglot.Expr.Basic
import Polyglot.Ty.Widening

/-!
# Function signatures

Everything about a function but its statements: parameters, result, overloads and modifiers.

* `ParamSpec.build` : a parameter defaults to the sentinel only if its type accepts it.
* `Signature.addPositional`, `Signature.addKeyword` : the parameters are fixed once there is an
  overload.
* `Signature.addOverload` : an overload changes parameters that exist.
-/

set_option autoImplicit false

namespace Polyglot

/-- A declared parameter. -/
structure Param where
  name : String
  ty : Ty
  default : Option Expr

/-- The parameter as a variable of the function's body. -/
def Param.var (p : Param) : Expr := .var p.name (some p.ty)

/-- What a caller says about a parameter. An argument that may be left out is the sentinel then, if
there is no default. -/
structure ParamSpec where
  name : String
  ty : Ty
  default : Option Expr
  nullable : Bool
  omittable : Bool

namespace ParamSpec

/-- The type with all that the parameter accepts. -/
def widened (s : ParamSpec) : Ty :=
  let ty := if s.nullable then s.ty.orNull else s.ty
  if s.omittable then ty.orOmit else ty

/-- The parameter that is described. -/
def build (s : ParamSpec) : Except Error Param :=
  match s.omittable, s.default with
  | true, none => .ok ⟨s.name, s.widened, some .omit⟩
  | false, some .omit => .error (.invalid (.omitDefault s.name))
  | _, default => .ok ⟨s.name, s.widened, default⟩

end ParamSpec

/-- A narrower signature for the same function: parameters by name, with another type or, without
one, removed. -/
structure Overload where
  changes : List (String × Option Ty)
  result : Option Ty

/-- A function without its statements. Without a result nothing is returned; keyword parameters are
given by name only. -/
structure Signature where
  name : String
  result : Option Ty
  positional : List Param
  keyword : List Param
  overloads : List Overload
  pythonDecorators : List String
  typeScriptDecorators : List String
  isMethod : Bool
  isStatic : Bool
  isAbstract : Bool
  isAsync : Bool
  isConstructor : Bool
  docstring : List String

namespace Signature

/-- A function without parameters. -/
def function (name : String) (result : Option Ty) : Signature where
  name
  result
  positional := []
  keyword := []
  overloads := []
  pythonDecorators := []
  typeScriptDecorators := []
  isMethod := false
  isStatic := false
  isAbstract := false
  isAsync := false
  isConstructor := false
  docstring := []

/-- A method without parameters. -/
def method (name : String) (result : Option Ty) : Signature :=
  { function name result with isMethod := true }

/-- The constructor of a class, under the name that PHP gives it. -/
def constructor (params : List Param) : Signature :=
  { method "__construct" none with isConstructor := true, positional := params }

/-- All parameters, in the order in which they are written. -/
def params (s : Signature) : List Param := s.positional ++ s.keyword

/-- Whether one more parameter can be added. -/
def checkOpen (s : Signature) (param : String) : Except Error Unit :=
  if s.overloads.isEmpty then .ok ()
  else .error (.invalid (.parameterAfterOverload param s.name))

/-- Adds a parameter that is given by position. -/
def addPositional (s : Signature) (spec : ParamSpec) : Except Error (Signature × Param) := do
  let p ← spec.build
  s.checkOpen p.name
  return ({ s with positional := s.positional ++ [p] }, p)

/-- Adds a parameter that is given by name. -/
def addKeyword (s : Signature) (spec : ParamSpec) : Except Error (Signature × Param) := do
  let p ← spec.build
  s.checkOpen p.name
  return ({ s with keyword := s.keyword ++ [p] }, p)

/-- Adds an overload that changes parameters of the function. -/
def addOverload (s : Signature) (o : Overload) : Except Error Signature :=
  match o.changes.find? fun c => c.1 ∉ s.params.map Param.name with
  | some c => .error (.invalid (.unknownParameter s.name c.1))
  | none => .ok { s with overloads := s.overloads ++ [o] }

/-- A function that is abstract has no statements. -/
def checkBody (s : Signature) (isEmpty : Bool) : Except Error Unit :=
  if s.isAbstract && !isEmpty then .error (.invalid (.abstractBody s.name)) else .ok ()

end Signature

/-- A parameter under an overload: of the first change for its name, and without a default. -/
def Overload.param? (o : Overload) (p : Param) : Option Param :=
  match o.changes.find? fun c => c.1 = p.name with
  | some (_, none) => none
  | some (_, some ty) => some ⟨p.name, ty, none⟩
  | none => some { p with default := none }

/-- The signature of an overload, as a function of its own. -/
def Signature.variant (s : Signature) (o : Overload) : Signature where
  name := s.name
  result := o.result
  positional := s.positional.filterMap o.param?
  keyword := s.keyword.filterMap o.param?
  overloads := []
  pythonDecorators := "typing.overload" :: s.pythonDecorators
  typeScriptDecorators := []
  isMethod := s.isMethod
  isStatic := s.isStatic
  isAbstract := false
  isAsync := s.isAsync
  isConstructor := s.isConstructor
  docstring := []

end Polyglot
