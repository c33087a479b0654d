import Polyglot.Target
import Polyglot.Text.Shown

/-!
# Errors

Everything that can go wrong when a program is built or written out, by cause. The wording of each
cause stands in one place, `Error.message`.
-/

set_option autoImplicit false

namespace Polyglot

/-- A construct that some language lacks. -/
inductive Construct where
  | typeFor (language : Target)
  | exprFor (language : Target)
  | omittedType
  | setType
  | omittedArgument
  | awaiting
  | namedArguments
  | overloads
  | asyncFunction
  | interface
  | interfaceProperties
  | declarationWithoutValue
  | omittableEntries
  deriving DecidableEq, Repr

def Construct.title : Construct → String
  | .typeFor t => t.title ++ "-only type"
  | .exprFor t => t.title ++ "-only expression"
  | .omittedType => "the omitted-argument type"
  | .setType => "set types"
  | .omittedArgument => "omitted arguments"
  | .awaiting => "await"
  | .namedArguments => "keyword arguments"
  | .overloads => "function overloads"
  | .asyncFunction => "async functions"
  | .interface => "InterfaceSpec"
  | .interfaceProperties => "interface properties"
  | .declarationWithoutValue => "declaring a variable without a value"
  | .omittableEntries => "omittable dict builder entries"

/-- A node whose code the caller supplies for each language. -/
inductive Supplied where
  | type
  | expr
  | stmt
  deriving DecidableEq, Repr

def Supplied.title : Supplied → String
  | .type => "CustomType"
  | .expr => "HardCodedExpr"
  | .stmt => "HardCodedStatement"

/-- A program that no language could be given, or a builder call that breaks a rule. -/
inductive Fault where
  | emptyUnion
  | emptyLiteral
  | tooManyParameters (limit : Nat)
  | emptyJunction
  | duplicateArgument (name : String)
  | notAssignable
  | notDeclarable
  | declarationWithoutType (name : String)
  | builderWithoutVariable
  | builderNotDict (name : String)
  | secondElse
  | secondFinally
  | noHandlers
  | catchVariables
  | catchAllNotLast
  | catchWithoutVariable
  | omitDefault (parameter : String)
  | parameterAfterOverload (parameter function : String)
  | unknownParameter (function parameter : String)
  | abstractBody (function : String)
  | asyncConstructor
  | mixedForwarding (base name : String)
  | secondParent (language : Target) (name : String)
  | duplicateProperty (owner name : String)
  | duplicateAlias (name : String)
  deriving DecidableEq, Repr

/-- What a fault is called in messages. -/
def Fault.message : Fault → String
  | .emptyUnion => "union without members"
  | .emptyLiteral => "literal type without values"
  | .tooManyParameters limit =>
      "callable types support at most " ++ toString limit ++ " arguments"
  | .emptyJunction => "boolean combinator without operands"
  | .duplicateArgument name => "duplicate kwarg " ++ Text.Shown.encode name
  | .notAssignable => "cannot assign to"
  | .notDeclarable => "can only declare variables, not"
  | .declarationWithoutType name =>
      "cannot declare variable " ++ name ++ " with a type it does not have"
  | .builderWithoutVariable => "dict builders need a variable"
  | .builderNotDict name => "variable " ++ name ++ " has type"
  | .secondElse => "conditional already has an else block"
  | .secondFinally => "try block already has a finally block"
  | .noHandlers => "try block needs at least one catch or finally block"
  | .catchVariables => "every catch arm must bind the same variable name for TypeScript"
  | .catchAllNotLast => "the catch arm without a TypeScript exception class must come last"
  | .catchWithoutVariable => "typed catch arms need a bound variable for TypeScript"
  | .omitDefault parameter =>
      "argument " ++ parameter ++ " must be omittable to default to the omission sentinel"
  | .parameterAfterOverload parameter function =>
      "cannot add argument " ++ parameter ++ " to " ++ function ++ "() after overloads"
  | .unknownParameter function parameter =>
      "overload of " ++ function ++ "() modifies unknown argument " ++ parameter
  | .abstractBody function =>
      "Abstract FunctionSpec " ++ function ++ "() must not have any statements"
  | .asyncConstructor => "a constructor cannot be async"
  | .mixedForwarding base name =>
      "cannot add Python base " ++ base ++ " to " ++ name ++
        ": bases must all forward *args, **kwargs or none may"
  | .secondParent language name =>
      "cannot add multiple " ++ language.title ++ " parent classes to " ++ name
  | .duplicateProperty owner name => "duplicate property " ++ owner ++ "." ++ name
  | .duplicateAlias name => "new type " ++ name ++ " is already defined"

/-- Why an expression has no static type. -/
inductive Untyped where
  | indexOfNonList
  | keyOfNonDict
  | variable (name : String)
  | call
  | languageSpecific
  | awaited
  | hardCoded
  deriving DecidableEq, Repr

/-- The reason as it stands in messages. -/
def Untyped.message : Untyped → String
  | .indexOfNonList => "index access on a value that is not a list"
  | .keyOfNonDict => "key access on a value that is not a dict"
  | .variable name => "variable " ++ name ++ " has no type"
  | .call => "call results are untyped"
  | .languageSpecific => "language-specific expressions are untyped"
  | .awaited => "await results are untyped"
  | .hardCoded => "hard-coded expressions are untyped"

/-- A request that the library leaves to later. -/
inductive Pending where
  | dictKeys
  | prettySource
  | prettyHandle
  | prettyFile (language : Target)
  deriving DecidableEq, Repr

/-- The request as it stands in messages. -/
def Pending.message : Pending → String
  | .dictKeys => "dict builders only support str keys"
  | .prettySource => "cannot prettify source code in memory"
  | .prettyHandle => "cannot prettify an open handle"
  | .prettyFile language => "prettifying " ++ language.title ++ " files"

/-- An error, by cause. What is missing is code that the caller has to supply. -/
inductive Error where
  | notSupported (construct : Construct) (language : Target)
  | missing (node : Supplied) (language : Target)
  | invalid (fault : Fault)
  | untyped (reason : Untyped)
  | notYetSupported (request : Pending)
  | formatter (program : String)
  | options
  | file
  | unknownTarget (name : String)
  deriving DecidableEq, Repr

/-- The full text of an error. -/
def Error.message : Error → String
  | .notSupported construct language =>
      construct.title ++ " is not supported by " ++ language.title
  | .missing node language =>
      node.title ++ " was not given a " ++ language.title ++ " implementation"
  | .invalid fault => "invalid logic: " ++ fault.message
  | .untyped reason => "type missing: " ++ reason.message
  | .notYetSupported request => "not yet supported: " ++ request.message
  | .formatter program => "formatter " ++ program ++ " failed"
  | .options => "invalid render options"
  | .file => "cannot write the file"
  | .unknownTarget name => "unknown target language: " ++ name

/-- The language that a user means, or the error that names what was asked for. -/
def Target.parse (s : String) : Except Error Target :=
  match Target.named? s with
  | some t => .ok t
  | none => .error (.unknownTarget s)

end Polyglot
