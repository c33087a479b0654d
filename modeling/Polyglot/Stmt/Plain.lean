import Polyglot.Expr.Typing

/-!
# Statements without a body

Statements that hold no other statements, and the rules under which they are built. A rule that is
broken is an error when the statement is built, before anything is written.

* `Assignment.assign` : only variables, properties and subscripts are assigned to.
* `Assignment.declareVar` : only variables are declared, and with a type only if they have one.
* `DictBuilder.new`, `DictBuilder.into` : built dicts have text keys.
-/

set_option autoImplicit false

namespace Polyglot

/-- Code that the caller supplies for one language. Without it the program cannot be written in the
language; it may also be left out on purpose. -/
inductive Snippet where
  | missing
  | omitted
  | code (text : String)
  deriving DecidableEq, Repr

/-- What a raised exception reports. -/
inductive Report where
  | text (s : String)
  | value (e : Expr)

/-- The raising of an exception, with the class for all languages or for single ones. -/
structure Raise where
  report : Report
  anyClass : Option String
  classes : PerTarget (Option String)

/-- The exception class that is used when none is given. -/
def Target.exceptionClass : Target → String
  | .python => "Exception"
  | .typescript => "Error"
  | .php => "\\Exception"

/-- The class for a language: its own, else the common one, else the language's usual one. -/
def Raise.classFor (r : Raise) (t : Target) : String :=
  ((r.classes.get t).or r.anyClass).getD t.exceptionClass

/-- The setting of a variable or a part of a value. A new variable has its type if that is to be
written, and its value if it has one. -/
inductive Assignment where
  | assign (target value : Expr)
  | declare (name : String) (ty : Option Ty) (value : Option Expr)

namespace Assignment

/-- An assignment to a variable, a property or a subscript. -/
def assign? (target value : Expr) : Except Error Assignment :=
  match target with
  | .var .. | .field .. | .prop .. | .item .. | .itemOr .. => .ok (.assign target value)
  | _ => .error (.invalid .notAssignable)

/-- The declaration of an expression that is a variable, with the variable's own type written if
`typed` is set. -/
def declareVar (var : Expr) (value : Option Expr) (typed : Bool) : Except Error Assignment :=
  match var, typed with
  | .var name _, false => .ok (.declare name none value)
  | .var name (some ty), true => .ok (.declare name (some ty) value)
  | .var name none, true => .error (.invalid (.declarationWithoutType name))
  | _, _ => .error (.invalid .notDeclarable)

end Assignment

/-- One pair of a dict under construction; it may be one that is left out when the value is the
sentinel for a missing argument. -/
structure BuilderEntry where
  key : String
  value : Expr
  allowOmit : Bool

/-- The construction of a dict with text keys in a new variable. -/
structure DictBuilder where
  name : String
  valueType : Ty
  entries : List BuilderEntry

namespace DictBuilder

/-- An empty dict under construction; the keys have to be texts. -/
def new (name : String) (keyType valueType : Ty) : Except Error DictBuilder :=
  if keyType = .str then .ok ⟨name, valueType, []⟩ else .error (.notYetSupported .dictKeys)

/-- An empty dict under construction in a variable that is known to be a dict. -/
def into (var : Expr) : Except Error DictBuilder :=
  match var.varName? with
  | none => .error (.invalid .builderWithoutVariable)
  | some name => do
    let ty ← var.typeOf
    match ty with
    | .dict key value => new name key value
    | _ => throw (.invalid (.builderNotDict name))

/-- Adds a pair at the end. -/
def addPair (b : DictBuilder) (key : String) (value : Expr) (allowOmit : Bool) : DictBuilder :=
  { b with entries := b.entries ++ [⟨key, value, allowOmit⟩] }

/-- The type of the dict. -/
def ty (b : DictBuilder) : Ty := .dict .str b.valueType

/-- The variable that holds the dict. -/
def var (b : DictBuilder) : Expr := .var b.name (some b.ty)

/-- The pairs that are always there. -/
def fixed (b : DictBuilder) : List BuilderEntry := b.entries.filter fun e => !e.allowOmit

/-- The pairs that may be left out. -/
def guarded (b : DictBuilder) : List BuilderEntry := b.entries.filter fun e => e.allowOmit

end DictBuilder

/-- The declaration of the properties that an object has. -/
structure Interface where
  name : String
  isExported : Bool
  properties : List (String × Ty)

namespace Interface

/-- Adds a property under a name that is not taken yet. -/
def addProperty (i : Interface) (name : String) (ty : Ty) : Except Error Interface :=
  if name ∈ i.properties.map Prod.fst then .error (.invalid (.duplicateProperty i.name name))
  else .ok { i with properties := i.properties ++ [(name, ty)] }

end Interface

/-- A statement without a body. The sentinel as a value returns nothing. -/
inductive Plain where
  | blank
  | comment (text : String)
  | expr (e : Expr)
  | snippet (codes : PerTarget Snippet)
  | raise (r : Raise)
  | ret (value : Expr)
  | assign (a : Assignment)
  | append (list value : Expr)
  | build (b : DictBuilder)
  | interface (i : Interface)

end Polyglot
