import Polyglot.Code
import Polyglot.Error
import Polyglot.Ty.Basic

/-!
# Expressions

Expressions that every output language can be asked for, as a tree. A node carries the static type
of its value where the type cannot be derived from the parts.

* `Expr.negated?` : the twin with the opposite truth value, where a node has one.
* `Arguments.add` : named arguments have different names.
-/

set_option autoImplicit false

namespace Polyglot

/-- How the operands of a logical combination are joined. -/
inductive Junction where
  | and
  | or
  deriving DecidableEq, Repr

/-- Comparison of two values; equality is without conversion. -/
inductive Comparison where
  | eq
  | lt
  | gt
  deriving DecidableEq, Repr

/-- A class of values that is tested when the program runs. -/
inductive TypeTest where
  | str
  | int
  | bool
  | list
  deriving DecidableEq, Repr

/-- What a subscript selects by: the position in a list, or the key in an associative value. -/
inductive Selector where
  | position
  | key
  deriving DecidableEq, Repr

mutual

/-- An expression. `omit` is the sentinel for an argument that was not supplied, and `supplied` asks
for anything but the sentinel. A `field` is a property of the object whose method is running. A call
with `construct` creates an object. `only` and `perTarget` hold code as given. -/
inductive Expr where
  | literal (value : Literal)
  | null
  | omit
  | list (items : List Expr) (inner : Ty)
  | dict (entries : List (String × Expr)) (valueType : Ty)
  | cast (ty : Ty) (value : Expr)
  | item (selector : Selector) (target key : Expr)
  | itemOr (selector : Selector) (target key fallback : Expr)
  | var (name : String) (ty : Option Ty)
  | field (name : String) (ty : Ty)
  | prop (owner : Expr) (name : String) (ty : Ty)
  | call (callee : String) (construct : Bool) (args : List Expr) (named : List (String × Expr))
  | apply (callee : Expr) (construct : Bool) (args : List Expr) (named : List (String × Expr))
  | text (parts : List Part)
  | only (language : Target) (code : Code)
  | junction (op : Junction) (operands : List Expr)
  | not (operand : Expr)
  | length (value : Expr)
  | isNull (negated : Bool) (value : Expr)
  | compare (op : Comparison) (negated : Bool) (left right : Expr)
  | isType (test : TypeTest) (value : Expr)
  | supplied (value : Expr)
  | await (value : Expr)
  | perTarget (codes : PerTarget (Option Code))

/-- A part of a text: literal characters, or the value of an expression. -/
inductive Part where
  | chars (s : String)
  | value (e : Expr)

end

namespace Expr

def isLiteral : Expr → Bool
  | .literal _ | .null => true
  | _ => false

/-- Whether this is the sentinel for an argument that was not supplied. -/
def isOmit : Expr → Bool
  | .omit => true
  | _ => false

/-- The name of a plain variable. -/
def varName? : Expr → Option String
  | .var name _ => some name
  | _ => none

/-- The same test with the opposite answer, for a node that has one. -/
def negated? : Expr → Option Expr
  | .isNull negated value => some (.isNull (!negated) value)
  | .compare op negated left right => some (.compare op (!negated) left right)
  | .not operand => some operand
  | _ => none

/-- A call of a method of an object. -/
def callMethod (owner : Expr) (name : String) (args : List Expr) : Expr :=
  .apply (.prop owner name .any) false args []

/-- Code for one language that binds like a multiplication. -/
def verbatim (language : Target) (text : String) : Expr := .only language ⟨text, .product⟩

end Expr

/-- Named arguments of a call, in order. -/
abbrev Arguments := List (String × Expr)

namespace Arguments

def names (as : Arguments) : List String := as.map Prod.fst

/-- Adds an argument under a name that is not taken yet. -/
def add (as : Arguments) (name : String) (value : Expr) : Except Error Arguments :=
  if name ∈ as.names then .error (.invalid (.duplicateArgument name))
  else .ok (as ++ [(name, value)])

theorem add_nodup {as bs : Arguments} {name : String} {value : Expr} (h : as.names.Nodup)
    (hadd : as.add name value = .ok bs) : bs.names.Nodup := by
  unfold add at hadd
  split at hadd
  next => cases hadd
  next hn =>
    cases hadd
    simp [names, List.nodup_append] at hn h ⊢
    exact ⟨h, fun a b hab e => hn b (e ▸ hab)⟩

end Arguments

end Polyglot
