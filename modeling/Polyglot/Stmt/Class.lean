import Polyglot.Stmt.Function
import Polyglot.Stmt.Plain

/-!
# Classes without their methods

Names, parents and properties of a class, and the constructor that follows from the properties.

* `Class.addProperty` : properties have different names.
* `Class.setParent` : one parent for every language, set language by language.
* `Class.constructor` : the constructor for a language, if the class needs one there.
-/

set_option autoImplicit false

namespace Polyglot

/-- A property of a class. An `initarg` is an argument of the constructor; TypeScript can observe or
forbid changes of the value. -/
structure Property where
  name : String
  ty : Ty
  default : Option Expr
  initarg : Bool
  observable : Bool
  readonly : Bool

namespace Property

/-- The property of the object whose method is running. -/
def expr (p : Property) : Expr := .field p.name p.ty

/-- The default, if it is a constant that can stand beside the declaration. -/
def literalDefault? (p : Property) : Option Expr := p.default.filter Expr.isLiteral

/-- The constructor's parameter for the property. -/
def param (p : Property) : Except Error Param :=
  ParamSpec.build ⟨p.name, p.ty, p.default, false, false⟩

/-- The default that the constructor assigns: Python has no other place for one, the other
languages write constants beside the declaration. -/
def assignedDefault? (t : Target) (p : Property) : Option Expr :=
  if p.initarg then none
  else match t with
    | .python => p.default
    | .typescript | .php => p.default.filter fun e => !e.isLiteral

end Property

/-- A class without its methods. A Python constructor that `forwardsArgs` takes further arguments
and hands them to the bases. -/
structure Class where
  name : String
  docstring : List String
  isAbstract : Bool
  isDataclass : Bool
  isExported : Bool
  pythonBases : List String
  forwardsArgs : Bool
  typeScriptParent : Option String
  phpParent : Option String
  properties : List Property
  remarks : List String
  imports : Requests

namespace Class

def new (name : String) : Class where
  name
  docstring := []
  isAbstract := false
  isDataclass := false
  isExported := false
  pythonBases := []
  forwardsArgs := false
  typeScriptParent := none
  phpParent := none
  properties := []
  remarks := []
  imports := []

/-- Adds a Python base; all bases receive the further arguments or none does. -/
def addPythonBase (c : Class) (base : String) (forwardsArgs : Bool) : Except Error Class :=
  if !c.pythonBases.isEmpty && c.forwardsArgs != forwardsArgs then
    .error (.invalid (.mixedForwarding base c.name))
  else .ok { c with pythonBases := c.pythonBases ++ [base], forwardsArgs }

/-- Sets the TypeScript parent, once. -/
def setTypeScriptParent (c : Class) (parent : String) : Except Error Class :=
  if c.typeScriptParent.isSome then .error (.invalid (.secondParent .typescript c.name))
  else .ok { c with typeScriptParent := some parent }

/-- Sets the PHP parent, once. -/
def setPhpParent (c : Class) (parent : String) : Except Error Class :=
  if c.phpParent.isSome then .error (.invalid (.secondParent .php c.name))
  else .ok { c with phpParent := some parent }

/-- Sets one parent for Python, then TypeScript, then PHP, up to the first error. The class is
given back with what was set until then. -/
def setParent (c : Class) (parent : String) : Class × Except Error Unit :=
  match c.addPythonBase parent false with
  | .error e => (c, .error e)
  | .ok c =>
    match c.setTypeScriptParent parent with
    | .error e => (c, .error e)
    | .ok c =>
      match c.setPhpParent parent with
      | .error e => (c, .error e)
      | .ok c => (c, .ok ())

/-- Adds a property under a name that is not taken yet. -/
def addProperty (c : Class) (p : Property) : Except Error Class :=
  if p.name ∈ c.properties.map Property.name then
    .error (.invalid (.duplicateProperty c.name p.name))
  else .ok { c with properties := c.properties ++ [p] }

/-- The properties that the constructor takes as arguments. -/
def initargs (c : Class) : List Property := c.properties.filter Property.initarg

/-- The call of the parent's constructor, if the class has a parent in the language. -/
def parentCall? (c : Class) : Target → Option Plain
  | .python =>
    if c.pythonBases.isEmpty then none
    else
      let call := if c.forwardsArgs then "super().__init__(*args, **kwargs)"
        else "super().__init__()"
      some (.snippet ⟨.code call, .omitted, .omitted⟩)
  | .typescript => c.typeScriptParent.map fun _ => .snippet ⟨.omitted, .code "super();", .omitted⟩
  | .php => c.phpParent.map fun _ => .snippet ⟨.omitted, .omitted, .code "parent::__construct();"⟩

/-- The parameters behind which the further arguments of the Python constructor stand. -/
def forwardedParams (c : Class) : Target → List Param
  | .python =>
    if c.forwardsArgs && !c.pythonBases.isEmpty then
      [⟨"*args", .any, none⟩, ⟨"**kwargs", .any, none⟩]
    else []
  | .typescript | .php => []

/-- A constructor that follows from the properties. -/
structure Constructor where
  signature : Signature
  body : List Plain

/-- The statement that stores an argument of the constructor. -/
def storeArgument (p : Property) : Plain := .assign (.assign p.expr (.var p.name (some p.ty)))

/-- The statement that stores a default, if the constructor stores one. -/
def storeDefault? (t : Target) (p : Property) : Option Plain :=
  (p.assignedDefault? t).map fun e => .assign (.assign p.expr e)

/-- The constructor for a language, if there is anything for it to do. Arguments are stored in the
order of the properties, and defaults after them. The parent is constructed first in TypeScript,
where the object does not exist before that, and between arguments and defaults elsewhere. -/
def constructor (c : Class) (t : Target) : Except Error (Option Constructor) :=
  let defaults := c.properties.filterMap (storeDefault? t)
  if c.initargs.isEmpty && defaults.isEmpty then .ok none
  else do
    let params ← c.initargs.mapM Property.param
    let arguments := c.initargs.map storeArgument
    let parent := (c.parentCall? t).toList
    let start := match t with
      | .typescript => parent ++ arguments
      | .python | .php => arguments ++ parent
    return some ⟨.constructor (params ++ c.forwardedParams t), start ++ defaults⟩

end Class

end Polyglot
