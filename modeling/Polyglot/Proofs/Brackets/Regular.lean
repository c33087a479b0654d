import Polyglot.Proofs.Brackets.Text
import Polyglot.Script

/-!
# Regular scripts

The scripts that are made of nothing but the nodes of this library: no code, types or comments of
the caller are copied into the file, and names hold no brackets or quotes. Texts are free wherever
they are written as string literals.

* `Ty.IsRegular`, `Expr.IsRegular`, `Stmt.IsRegular` : the parts, at any depth.
* `Script.IsRegular`, `Options.AreRegular` : the file.
-/

set_option autoImplicit false

namespace Polyglot

/-! ## Types and expressions -/

namespace Ty

mutual

/-- Whether the type is regular; an opaque type is not. -/
def IsRegular : Ty → Prop
  | .any | .str | .num | .bool | .null | .omit | .literal _ => True
  | .optional inner | .list inner | .set inner => inner.IsRegular
  | .dict key value | .map key value => key.IsRegular ∧ value.IsRegular
  | .union members => AllRegular members
  | .callable params result => AllRegular params ∧ result.IsRegular
  | .alias name base => isInert name = true ∧ base.IsRegular
  | .custom _ | .python _ _ | .typescript _ => False

def AllRegular : List Ty → Prop
  | [] => True
  | ty :: tys => ty.IsRegular ∧ AllRegular tys

end

end Ty

mutual

/-- Whether the expression is regular; static types that are not written do not count. -/
def Expr.IsRegular : Expr → Prop
  | .literal _ | .null | .omit => True
  | .list items _ | .junction _ items => Expr.AllRegular items
  | .dict entries _ => Expr.NamedRegular entries
  | .cast ty value => ty.IsRegular ∧ value.IsRegular
  | .item _ target key => target.IsRegular ∧ key.IsRegular
  | .itemOr _ target key fallback => target.IsRegular ∧ key.IsRegular ∧ fallback.IsRegular
  | .var name _ | .field name _ => isInert name = true
  | .prop owner name _ => owner.IsRegular ∧ isInert name = true
  | .call callee _ args named =>
    isInert callee = true ∧ Expr.AllRegular args ∧ Expr.NamedRegular named ∧
      ∀ a ∈ named, isInert a.1 = true
  | .apply callee _ args named =>
    callee.IsRegular ∧ Expr.AllRegular args ∧ Expr.NamedRegular named ∧
      ∀ a ∈ named, isInert a.1 = true
  | .text parts => Part.AllRegular parts
  | .compare _ _ left right => left.IsRegular ∧ right.IsRegular
  | .not value | .length value | .isNull _ value | .isType _ value | .supplied value
  | .await value => value.IsRegular
  | .only _ _ | .perTarget _ => False

/-- Whether all expressions are regular. -/
def Expr.AllRegular : List Expr → Prop
  | [] => True
  | e :: es => e.IsRegular ∧ Expr.AllRegular es

/-- Whether the values of all entries are regular. -/
def Expr.NamedRegular : List (String × Expr) → Prop
  | [] => True
  | (_, e) :: es => e.IsRegular ∧ Expr.NamedRegular es

/-- Whether all parts of a text are regular; its characters are free. -/
def Part.AllRegular : List Part → Prop
  | [] => True
  | .chars _ :: ps => Part.AllRegular ps
  | .value e :: ps => e.IsRegular ∧ Part.AllRegular ps

end

/-! ## Statements without a body -/

/-- Whether what is raised is regular; a text that is reported is free. -/
structure Raise.IsRegular (r : Raise) : Prop where
  value : ∀ e, r.report = .value e → e.IsRegular
  anyClass : ∀ name ∈ r.anyClass, isInert name = true
  classes : ∀ t : Target, ∀ name ∈ r.classes.get t, isInert name = true

def Assignment.IsRegular : Assignment → Prop
  | .assign target value => target.IsRegular ∧ value.IsRegular
  | .declare name ty value =>
    isInert name = true ∧ (∀ x ∈ ty, x.IsRegular) ∧ ∀ e ∈ value, e.IsRegular

/-- Whether a dict under construction is regular; its keys are free. -/
structure DictBuilder.IsRegular (b : DictBuilder) : Prop where
  name : isInert b.name = true
  valueType : b.valueType.IsRegular
  values : ∀ e ∈ b.entries, e.value.IsRegular

/-- Whether an interface is regular. -/
structure Interface.IsRegular (i : Interface) : Prop where
  name : isInert i.name = true
  names : ∀ p ∈ i.properties, isInert p.1 = true
  types : ∀ p ∈ i.properties, p.2.IsRegular

/-- Whether a statement without a body is regular; comments and code of the caller are not. -/
def Plain.IsRegular : Plain → Prop
  | .blank => True
  | .comment _ | .snippet _ => False
  | .expr e | .ret e => e.IsRegular
  | .raise r => r.IsRegular
  | .assign a => a.IsRegular
  | .append list value => list.IsRegular ∧ value.IsRegular
  | .build b => b.IsRegular
  | .interface i => i.IsRegular

/-! ## Functions and classes -/

/-- Whether a parameter is regular. -/
structure Param.IsRegular (p : Param) : Prop where
  name : isInert p.name = true
  ty : p.ty.IsRegular
  default : ∀ e ∈ p.default, e.IsRegular

/-- Whether a signature is regular: without documentation and decorators. Only Python writes
overloads, so they do not count. -/
structure Signature.IsRegular (s : Signature) : Prop where
  name : isInert s.name = true
  result : ∀ ty ∈ s.result, ty.IsRegular
  params : ∀ p ∈ s.params, p.IsRegular
  typeScriptDecorators : s.typeScriptDecorators = []
  docstring : s.docstring = []

/-- Whether a requirement is regular. Other languages than PHP write modules as string literals. -/
structure Import.IsRegular (t : Target) (i : Import) : Prop where
  module : t = .php → isInert i.module = true
  name : ∀ name ∈ i.name, isInert name = true

def Requests.AreRegular (rs : Requests) : Prop := ∀ r ∈ rs, r.2.IsRegular r.1

/-- Whether a property is regular. -/
structure Property.IsRegular (p : Property) : Prop where
  name : isInert p.name = true
  ty : p.ty.IsRegular
  default : ∀ e ∈ p.default, e.IsRegular

/-- Whether a class is regular: without documentation and remarks. -/
structure Class.IsRegular (c : Class) : Prop where
  name : isInert c.name = true
  typeScriptParent : ∀ name ∈ c.typeScriptParent, isInert name = true
  phpParent : ∀ name ∈ c.phpParent, isInert name = true
  properties : ∀ p ∈ c.properties, p.IsRegular
  imports : c.imports.AreRegular
  docstring : c.docstring = []
  remarks : c.remarks = []

/-! ## Statements and scripts -/

/-- Whether the head of a handler is regular. -/
structure Catch.IsRegular (arm : Catch) : Prop where
  var : ∀ name ∈ arm.var, isInert name = true
  classes : ∀ t : Target, ∀ name ∈ arm.classes.get t, isInert name = true

mutual

/-- Whether a body is regular. -/
def Body.IsRegular : Body → Prop
  | ⟨imports, stmts⟩ => imports.AreRegular ∧ Stmt.AllRegular stmts

def Function.IsRegular : Function → Prop
  | ⟨signature, body⟩ => signature.IsRegular ∧ body.IsRegular

def Function.AllRegular : List Function → Prop
  | [] => True
  | f :: fs => f.IsRegular ∧ Function.AllRegular fs

def Branches.AreRegular : Branches → Prop
  | .done => True
  | .otherwise body => body.IsRegular
  | .elseIf test body rest => test.IsRegular ∧ body.IsRegular ∧ rest.AreRegular

def Handlers.AreRegular : Handlers → Prop
  | .done => True
  | .cleanup body => body.IsRegular
  | .handler arm body rest => arm.IsRegular ∧ body.IsRegular ∧ rest.AreRegular

/-- Whether a statement is regular, at any depth. -/
def Stmt.IsRegular : Stmt → Prop
  | .plain p => p.IsRegular
  | .conditional test body branches => test.IsRegular ∧ body.IsRegular ∧ branches.AreRegular
  | .forEach name iterable body => isInert name = true ∧ iterable.IsRegular ∧ body.IsRegular
  | .forEntries key value iterable body =>
    (∀ name ∈ key, isInert name = true) ∧ isInert value = true ∧ iterable.IsRegular ∧
      body.IsRegular
  | .attempt body handlers => body.IsRegular ∧ handlers.AreRegular
  | .function f => f.IsRegular
  | .classDef c methods => c.IsRegular ∧ Function.AllRegular methods
  | .block body => body.IsRegular

/-- Whether all statements are regular. -/
def Stmt.AllRegular : List Stmt → Prop
  | [] => True
  | s :: ss => s.IsRegular ∧ Stmt.AllRegular ss

end

/-- Whether a script is regular: without comments at its head. -/
structure Script.IsRegular (s : Script) : Prop where
  body : s.body.IsRegular
  aliases : ∀ a ∈ s.aliases, isInert a.name = true ∧ a.base.IsRegular
  comments : s.comments = []

/-- Whether lines are indented by spaces and tabs, and the namespace is a name. -/
structure Options.AreRegular (o : Options) : Prop where
  indent : ∀ c ∈ o.indent.toList, Brackets.IsIndent c
  phpNamespace : ∀ name ∈ o.phpNamespace, isInert name = true

end Polyglot
