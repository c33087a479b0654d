import Polyglot.Proofs.Expr.Operands
import Polyglot.Proofs.Stmt.Parts

/-!
# What written code needs in scope

The things in a written file that can be used only with an import, and where they stand. The
relations follow the writers and not the collection of imports: an overload is a function of its
own, a constructor is the one that is written, and a cast counts at any depth.

* `Need.imports` : what has to be imported for one such thing.
* `Script.Needs` : the things that stand in a written script.
-/

set_option autoImplicit false

namespace Polyglot

/-- A thing in written code that is not usable without an import. -/
inductive Need where
  | type (ty : Ty)
  | cast
  | abstract
  | overload
  | dataclass
  | dictBuilder
  | newType
  | observable

/-- The imports for one thing; the marks and functions exist in one language each. -/
def Need.imports (t : Target) : Need → List Import
  | .type ty => ty.imports t
  | .cast => Import.ifPython t (.named "typing" "cast")
  | .abstract => Import.ifPython t (.whole "abc")
  | .overload => Import.ifPython t (.whole "typing")
  | .dataclass => Import.ifPython t (.named "dataclasses" "dataclass")
  | .dictBuilder => Import.ifPython t (.named "typing" "Dict")
  | .newType => Import.ifPython t (.named "typing" "NewType")
  | .observable =>
    match t with
    | .typescript => [.named "mobx" "observable"]
    | _ => []

/-! ## Expressions -/

/-- Something needed stands in an expression: a cast, at any depth. -/
inductive Expr.Needs : Expr → Need → Prop
  | cast (ty : Ty) (value : Expr) : Needs (.cast ty value) .cast
  | castType (ty : Ty) (value : Expr) : Needs (.cast ty value) (.type ty)
  | operand {e inner : Expr} {n : Need} : inner ∈ e.operands → Needs inner n → Needs e n

/-! ## Statements without a body -/

namespace Plain

/-- The expressions of a statement without a body. -/
def exprs : Plain → List Expr
  | .blank | .comment _ | .snippet _ | .interface _ => []
  | .expr e | .ret e => [e]
  | .raise r =>
    match r.report with
    | .text _ => []
    | .value e => [e]
  | .assign (.assign target value) => [target, value]
  | .assign (.declare _ _ value) => value.toList
  | .append list value => [list, value]
  | .build b => b.entries.map BuilderEntry.value

/-- The types that are written with a statement without a body. -/
def types : Plain → List Ty
  | .assign (.declare _ ty _) => ty.toList
  | .build b => [b.ty]
  | .interface i => i.properties.map Prod.snd
  | _ => []

/-- Something needed stands in a statement without a body. -/
inductive Needs : Plain → Need → Prop
  | expr {p : Plain} {e : Expr} {n : Need} : e ∈ p.exprs → e.Needs n → Needs p n
  | type {p : Plain} {ty : Ty} : ty ∈ p.types → Needs p (.type ty)
  | dictBuilder (b : DictBuilder) : Needs (.build b) .dictBuilder

end Plain

/-! ## Functions and classes -/

namespace Signature

/-- The types of a signature. -/
def types (s : Signature) : List Ty := s.params.map Param.ty ++ s.result.toList

/-- The defaults of the parameters. -/
def defaults (s : Signature) : List Expr := s.params.filterMap Param.default

/-- Something needed stands in a signature or, below its mark, in an overload. -/
inductive Needs : Signature → Need → Prop
  | type {s : Signature} {ty : Ty} : ty ∈ s.types → Needs s (.type ty)
  | default {s : Signature} {e : Expr} {n : Need} : e ∈ s.defaults → e.Needs n → Needs s n
  | abstract {s : Signature} : s.isAbstract = true → Needs s .abstract
  | overload {s : Signature} {o : Overload} : o ∈ s.overloads → Needs s .overload
  | variant {s : Signature} {o : Overload} {n : Need} :
      o ∈ s.overloads → Needs (s.variant o) n → Needs s n

end Signature

/-- Something needed stands in a class, outside its methods, as it is written in one language. -/
inductive Class.Needs (t : Target) (c : Class) : Need → Prop
  | abstract : c.isAbstract = true → Needs t c .abstract
  | dataclass : c.isDataclass = true → Needs t c .dataclass
  | observable {p : Property} : p ∈ c.properties → p.observable = true → Needs t c .observable
  | property {p : Property} : p ∈ c.properties → Needs t c (.type p.ty)
  | default {p : Property} {e : Expr} {n : Need} :
      p ∈ c.properties → e ∈ p.default → e.Needs n → Needs t c n
  | constructor {k : Class.Constructor} {n : Need} :
      c.constructor t = .ok (some k) → k.signature.Needs n → Needs t c n
  | store {k : Class.Constructor} {p : Plain} {n : Need} :
      c.constructor t = .ok (some k) → p ∈ k.body → p.Needs n → Needs t c n

/-! ## Statements and scripts -/

/-- Something needed stands in a statement, at any depth, as it is written in one language. -/
inductive Stmt.Needs (t : Target) : Stmt → Need → Prop
  | plain {p : Plain} {n : Need} : p.Needs n → Needs t (.plain p) n
  | expr {s : Stmt} {e : Expr} {n : Need} : e ∈ s.exprs → e.Needs n → Needs t s n
  | function {s : Stmt} {f : Function} {n : Need} :
      f ∈ s.functions → f.signature.Needs n → Needs t s n
  | classDef {c : Class} {methods : List Function} {n : Need} :
      c.Needs t n → Needs t (.classDef c methods) n
  | inner {s inner : Stmt} {b : Body} {n : Need} :
      b ∈ s.bodies → inner ∈ b.stmts → Needs t inner n → Needs t s n

/-- Something needed stands in a script as it is written in one language. PHP declares no named
types. -/
inductive Script.Needs (t : Target) (s : Script) : Need → Prop
  | stmt {st : Stmt} {n : Need} : st ∈ s.body.stmts → st.Needs t n → Needs t s n
  | base {a : Alias} : t ≠ .php → a ∈ s.aliases → Needs t s (.type a.base)
  | newType {a : Alias} : a ∈ s.aliases → Needs t s .newType

end Polyglot
