import Polyglot.Expr.Imports
import Polyglot.Stmt.Basic

/-!
# Imports of statements

What the code of a statement needs in scope, with repetitions. Statements, functions and classes
are walked as they are written; constructors and overloads that exist only in the written form are
walked, too. A class whose constructor cannot be built has no answer.
-/

set_option autoImplicit false

namespace Polyglot

/-- A requirement of Python code, and nothing in other languages. -/
def Import.ifPython (t : Target) (i : Import) : List Import :=
  match t with
  | .python => [i]
  | _ => []

/-- The requirements of an expression that may be absent. -/
def Expr.importsOption (t : Target) : Option Expr → List Import
  | none => []
  | some e => e.imports t

/-- The requirements of a type that may be absent. -/
def Ty.importsOption (t : Target) : Option Ty → List Import
  | none => []
  | some ty => ty.imports t

def Assignment.imports (t : Target) : Assignment → List Import
  | .assign target value => target.imports t ++ value.imports t
  | .declare _ ty value => Expr.importsOption t value ++ Ty.importsOption t ty

def DictBuilder.imports (t : Target) (b : DictBuilder) : List Import :=
  b.valueType.imports t ++ Ty.typing t "Dict" ++ b.entries.flatMap fun e => e.value.imports t

def Plain.imports (t : Target) : Plain → List Import
  | .blank | .comment _ | .snippet _ => []
  | .expr e | .ret e => e.imports t
  | .raise r =>
    match r.report with
    | .text _ => []
    | .value e => e.imports t
  | .assign a => a.imports t
  | .append list value => list.imports t ++ value.imports t
  | .build b => b.imports t
  | .interface i => i.properties.flatMap fun p => p.2.imports t

def Param.imports (t : Target) (p : Param) : List Import :=
  p.ty.imports t ++ Expr.importsOption t p.default

namespace Signature

def ownImports (t : Target) (s : Signature) : List Import :=
  s.params.flatMap (Param.imports t) ++ Ty.importsOption t s.result

/-- The requirements of a signature with its overloads, which only Python writes. -/
def imports (t : Target) (s : Signature) : List Import :=
  let modifiers := if s.isAbstract then Import.ifPython t (.whole "abc") else []
  let overloads := match t with
    | .python => s.overloads.flatMap fun o => .whole "typing" :: (s.variant o).ownImports t
    | _ => []
  modifiers ++ overloads ++ s.ownImports t

end Signature

namespace Class

def decorationImports (c : Class) : Target → List Import
  | .python =>
    (if c.isAbstract then [.whole "abc"] else []) ++
      (if c.isDataclass then [.named "dataclasses" "dataclass"] else [])
  | .typescript => if c.properties.any Property.observable then [.named "mobx" "observable"] else []
  | .php => []

def propertyImports (t : Target) (p : Property) : List Import :=
  p.ty.imports t ++ Expr.importsOption t p.default

def Constructor.imports (t : Target) (k : Constructor) : List Import :=
  k.signature.imports t ++ k.body.flatMap (Plain.imports t)

def ownImports (c : Class) (t : Target) : Except Error (List Import) := do
  let k ← c.constructor t
  let own := match k with
    | none => []
    | some k => k.imports t
  return c.imports.for t ++ c.decorationImports t ++ c.properties.flatMap (propertyImports t) ++ own

end Class

mutual

/-- The requirements of a body: what it asks for, then what its statements need. -/
def Body.needs (t : Target) : Body → Except Error (List Import)
  | ⟨imports, stmts⟩ => do
    let rest ← Stmt.importsAll t stmts
    return imports.for t ++ rest

def Function.imports (t : Target) : Function → Except Error (List Import)
  | ⟨signature, body⟩ => do
    let inner ← body.needs t
    return signature.imports t ++ inner

def Function.importsAll (t : Target) : List Function → Except Error (List Import)
  | [] => .ok []
  | f :: fs => do
    let here ← f.imports t
    let rest ← Function.importsAll t fs
    return here ++ rest

/-- The requirements of the arms of a conditional after the first. -/
def Branches.imports (t : Target) : Branches → Except Error (List Import)
  | .done => .ok []
  | .otherwise body => body.needs t
  | .elseIf test body rest => do
    let here ← body.needs t
    let there ← rest.imports t
    return test.imports t ++ here ++ there

def Handlers.imports (t : Target) : Handlers → Except Error (List Import)
  | .done => .ok []
  | .cleanup body => body.needs t
  | .handler _ body rest => do
    let here ← body.needs t
    let there ← rest.imports t
    return here ++ there

/-- The requirements of a statement. -/
def Stmt.imports (t : Target) : Stmt → Except Error (List Import)
  | .plain p => .ok (p.imports t)
  | .conditional test body branches => do
    let here ← body.needs t
    let there ← branches.imports t
    return test.imports t ++ here ++ there
  | .forEach _ iterable body | .forEntries _ _ iterable body => do
    let inner ← body.needs t
    return iterable.imports t ++ inner
  | .attempt body handlers => do
    let here ← body.needs t
    let there ← handlers.imports t
    return here ++ there
  | .function f => f.imports t
  | .classDef c methods => do
    let own ← c.ownImports t
    let rest ← Function.importsAll t methods
    return own ++ rest
  | .block body => body.needs t

def Stmt.importsAll (t : Target) : List Stmt → Except Error (List Import)
  | [] => .ok []
  | s :: ss => do
    let here ← s.imports t
    let rest ← Stmt.importsAll t ss
    return here ++ rest

end

end Polyglot
