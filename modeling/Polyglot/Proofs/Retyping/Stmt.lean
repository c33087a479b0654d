import Polyglot.Proofs.Retyping.Class

/-!
# Other types in a statement

* `Body.mapTypes`, `Body.heldTypes` : the replacement in statements at any depth, and the types it
  reaches.
* `Body.heldTypes_mapTypes` : it reaches every type.
* `Body.toPhp_mapTypes`, `Body.needs_mapTypes` : what PHP writes and what it needs.
-/

set_option autoImplicit false

namespace Polyglot

open Outcome

/-! ## The replacement -/

mutual

/-- The body with other types in it. -/
def Body.mapTypes (f : Ty → Ty) : Body → Body
  | ⟨imports, stmts⟩ => ⟨imports, Stmt.mapTypesAll f stmts⟩

def Function.mapTypes (f : Ty → Ty) : Function → Function
  | ⟨signature, body⟩ => ⟨signature.mapTypes f, body.mapTypes f⟩

def Function.mapTypesAll (f : Ty → Ty) : List Function → List Function
  | [] => []
  | fn :: fns => fn.mapTypes f :: Function.mapTypesAll f fns

def Branches.mapTypes (f : Ty → Ty) : Branches → Branches
  | .done => .done
  | .otherwise body => .otherwise (body.mapTypes f)
  | .elseIf test body rest => .elseIf (test.mapTypes f) (body.mapTypes f) (rest.mapTypes f)

def Handlers.mapTypes (f : Ty → Ty) : Handlers → Handlers
  | .done => .done
  | .cleanup body => .cleanup (body.mapTypes f)
  | .handler arm body rest => .handler arm (body.mapTypes f) (rest.mapTypes f)

/-- The statement with other types in it. -/
def Stmt.mapTypes (f : Ty → Ty) : Stmt → Stmt
  | .plain p => .plain (p.mapTypes f)
  | .conditional test body branches =>
    .conditional (test.mapTypes f) (body.mapTypes f) (branches.mapTypes f)
  | .forEach name iterable body => .forEach name (iterable.mapTypes f) (body.mapTypes f)
  | .forEntries key value iterable body =>
    .forEntries key value (iterable.mapTypes f) (body.mapTypes f)
  | .attempt body handlers => .attempt (body.mapTypes f) (handlers.mapTypes f)
  | .function fn => .function (fn.mapTypes f)
  | .classDef c methods => .classDef (c.mapTypes f) (Function.mapTypesAll f methods)
  | .block body => .block (body.mapTypes f)

def Stmt.mapTypesAll (f : Ty → Ty) : List Stmt → List Stmt
  | [] => []
  | s :: ss => s.mapTypes f :: Stmt.mapTypesAll f ss

end

/-! ## The types that are replaced -/

mutual

/-- The types that a body holds, at any depth. -/
def Body.heldTypes : Body → List Ty
  | ⟨_, stmts⟩ => Stmt.heldTypesAll stmts

def Function.heldTypes : Function → List Ty
  | ⟨signature, body⟩ => signature.heldTypes ++ body.heldTypes

def Function.heldTypesAll : List Function → List Ty
  | [] => []
  | f :: fs => f.heldTypes ++ Function.heldTypesAll fs

def Branches.heldTypes : Branches → List Ty
  | .done => []
  | .otherwise body => body.heldTypes
  | .elseIf test body rest => test.heldTypes ++ body.heldTypes ++ rest.heldTypes

def Handlers.heldTypes : Handlers → List Ty
  | .done => []
  | .cleanup body => body.heldTypes
  | .handler _ body rest => body.heldTypes ++ rest.heldTypes

/-- The types that a statement holds. -/
def Stmt.heldTypes : Stmt → List Ty
  | .plain p => p.heldTypes
  | .conditional test body branches => test.heldTypes ++ body.heldTypes ++ branches.heldTypes
  | .forEach _ iterable body | .forEntries _ _ iterable body =>
    iterable.heldTypes ++ body.heldTypes
  | .attempt body handlers => body.heldTypes ++ handlers.heldTypes
  | .function f => f.heldTypes
  | .classDef c methods => c.heldTypes ++ Function.heldTypesAll methods
  | .block body => body.heldTypes

def Stmt.heldTypesAll : List Stmt → List Ty
  | [] => []
  | s :: ss => s.heldTypes ++ Stmt.heldTypesAll ss

end

mutual

/-- Every type of a body is replaced. -/
theorem Body.heldTypes_mapTypes (f : Ty → Ty) :
    ∀ b : Body, (b.mapTypes f).heldTypes = b.heldTypes.map f
  | ⟨_, stmts⟩ => Stmt.heldTypesAll_mapTypes f stmts

theorem Function.heldTypes_mapTypes (f : Ty → Ty) :
    ∀ fn : Function, (fn.mapTypes f).heldTypes = fn.heldTypes.map f
  | ⟨signature, body⟩ => by
      rw [Function.mapTypes, Function.heldTypes, Function.heldTypes, List.map_append,
        Signature.heldTypes_mapTypes, Body.heldTypes_mapTypes f body]

theorem Function.heldTypesAll_mapTypes (f : Ty → Ty) : ∀ fns : List Function,
    Function.heldTypesAll (Function.mapTypesAll f fns) = (Function.heldTypesAll fns).map f
  | [] => rfl
  | fn :: fns => by
      rw [Function.mapTypesAll, Function.heldTypesAll, Function.heldTypesAll, List.map_append,
        Function.heldTypes_mapTypes f fn, Function.heldTypesAll_mapTypes f fns]

theorem Branches.heldTypes_mapTypes (f : Ty → Ty) :
    ∀ bs : Branches, (bs.mapTypes f).heldTypes = bs.heldTypes.map f
  | .done => rfl
  | .otherwise body => Body.heldTypes_mapTypes f body
  | .elseIf test body rest => by
      rw [Branches.mapTypes, Branches.heldTypes, Branches.heldTypes, List.map_append,
        List.map_append, Expr.heldTypes_mapTypes, Body.heldTypes_mapTypes f body,
        Branches.heldTypes_mapTypes f rest]

theorem Handlers.heldTypes_mapTypes (f : Ty → Ty) :
    ∀ hs : Handlers, (hs.mapTypes f).heldTypes = hs.heldTypes.map f
  | .done => rfl
  | .cleanup body => Body.heldTypes_mapTypes f body
  | .handler _ body rest => by
      rw [Handlers.mapTypes, Handlers.heldTypes, Handlers.heldTypes, List.map_append,
        Body.heldTypes_mapTypes f body, Handlers.heldTypes_mapTypes f rest]

theorem Stmt.heldTypes_mapTypes (f : Ty → Ty) :
    ∀ s : Stmt, (s.mapTypes f).heldTypes = s.heldTypes.map f
  | .plain p => Plain.heldTypes_mapTypes f p
  | .conditional test body branches => by
      rw [Stmt.mapTypes, Stmt.heldTypes, Stmt.heldTypes, List.map_append, List.map_append,
        Expr.heldTypes_mapTypes, Body.heldTypes_mapTypes f body,
        Branches.heldTypes_mapTypes f branches]
  | .forEach _ iterable body | .forEntries _ _ iterable body => by
      rw [Stmt.mapTypes, Stmt.heldTypes, Stmt.heldTypes, List.map_append, Expr.heldTypes_mapTypes,
        Body.heldTypes_mapTypes f body]
  | .attempt body handlers => by
      rw [Stmt.mapTypes, Stmt.heldTypes, Stmt.heldTypes, List.map_append,
        Body.heldTypes_mapTypes f body, Handlers.heldTypes_mapTypes f handlers]
  | .function fn => Function.heldTypes_mapTypes f fn
  | .classDef c methods => by
      rw [Stmt.mapTypes, Stmt.heldTypes, Stmt.heldTypes, List.map_append, Class.heldTypes_mapTypes,
        Function.heldTypesAll_mapTypes f methods]
  | .block body => Body.heldTypes_mapTypes f body

theorem Stmt.heldTypesAll_mapTypes (f : Ty → Ty) : ∀ ss : List Stmt,
    Stmt.heldTypesAll (Stmt.mapTypesAll f ss) = (Stmt.heldTypesAll ss).map f
  | [] => rfl
  | s :: ss => by
      rw [Stmt.mapTypesAll, Stmt.heldTypesAll, Stmt.heldTypesAll, List.map_append,
        Stmt.heldTypes_mapTypes f s, Stmt.heldTypesAll_mapTypes f ss]

end

/-! ## PHP -/

theorem Stmt.isEmpty_mapTypesAll (f : Ty → Ty) (ss : List Stmt) :
    (mapTypesAll f ss).isEmpty = ss.isEmpty := by
  cases ss <;> rfl

theorem Handlers.check_mapTypes (f : Ty → Ty) (hs : Handlers) :
    (hs.mapTypes f).check = hs.check := by
  cases hs <;> rfl

mutual

/-- PHP writes a body the same. -/
theorem Body.toPhp_mapTypes {f : Ty → Ty} (hf : Ty.KeepsPhp f) :
    ∀ b : Body, (b.mapTypes f).toPhp = b.toPhp
  | ⟨_, stmts⟩ => Stmt.toPhpAll_mapTypes hf stmts

theorem Function.toPhp_mapTypes {f : Ty → Ty} (hf : Ty.KeepsPhp f) :
    ∀ fn : Function, (fn.mapTypes f).toPhp = fn.toPhp
  | ⟨signature, ⟨imports, stmts⟩⟩ => by
      have hbody := Stmt.toPhpAll_mapTypes hf stmts
      simp only [Function.mapTypes, Body.mapTypes, Function.toPhp, Body.toPhp,
        Signature.checkBody_mapTypes, Signature.phpHead_mapTypes hf, Signature.bracedBody_mapTypes,
        Stmt.isEmpty_mapTypesAll, hbody]

theorem Function.toPhpAll_mapTypes {f : Ty → Ty} (hf : Ty.KeepsPhp f) : ∀ fns : List Function,
    Function.toPhpAll (Function.mapTypesAll f fns) = Function.toPhpAll fns
  | [] => rfl
  | fn :: fns => by
      rw [Function.mapTypesAll, Function.toPhpAll, Function.toPhpAll,
        Function.toPhp_mapTypes hf fn, Function.toPhpAll_mapTypes hf fns]

theorem Branches.toPhp_mapTypes {f : Ty → Ty} (hf : Ty.KeepsPhp f) :
    ∀ bs : Branches, (bs.mapTypes f).toPhp = bs.toPhp
  | .done => rfl
  | .otherwise body => by
      rw [Branches.mapTypes, Branches.toPhp, Branches.toPhp, Body.toPhp_mapTypes hf body]
  | .elseIf test body rest => by
      rw [Branches.mapTypes, Branches.toPhp, Branches.toPhp, Expr.phpText_mapTypes,
        Body.toPhp_mapTypes hf body, Branches.toPhp_mapTypes hf rest]

theorem Handlers.toPhp_mapTypes {f : Ty → Ty} (hf : Ty.KeepsPhp f) :
    ∀ hs : Handlers, (hs.mapTypes f).toPhp = hs.toPhp
  | .done => rfl
  | .cleanup body => by
      rw [Handlers.mapTypes, Handlers.toPhp, Handlers.toPhp, Body.toPhp_mapTypes hf body]
  | .handler _ body rest => by
      rw [Handlers.mapTypes, Handlers.toPhp, Handlers.toPhp, Body.toPhp_mapTypes hf body,
        Handlers.toPhp_mapTypes hf rest]

theorem Stmt.toPhp_mapTypes {f : Ty → Ty} (hf : Ty.KeepsPhp f) :
    ∀ s : Stmt, (s.mapTypes f).toPhp = s.toPhp
  | .plain p => Plain.toPhp_mapTypes hf p
  | .conditional test body branches => by
      rw [Stmt.mapTypes, Stmt.toPhp, Stmt.toPhp, Expr.phpText_mapTypes,
        Body.toPhp_mapTypes hf body, Branches.toPhp_mapTypes hf branches]
  | .forEach _ iterable body => by
      rw [Stmt.mapTypes, Stmt.toPhp, Stmt.toPhp, Expr.phpText_mapTypes, Body.toPhp_mapTypes hf body]
  | .forEntries key _ iterable body => by
      have ih := Body.toPhp_mapTypes hf body
      cases key <;> simp only [Stmt.mapTypes, Stmt.toPhp, Expr.phpText_mapTypes, ih]
  | .attempt body handlers => by
      rw [Stmt.mapTypes, Stmt.toPhp, Stmt.toPhp, Handlers.check_mapTypes,
        Body.toPhp_mapTypes hf body, Handlers.toPhp_mapTypes hf handlers]
  | .function fn => Function.toPhp_mapTypes hf fn
  | .classDef c methods => by
      have hproperties : (c.mapTypes f).properties.mapM Class.phpProperty =
          c.properties.mapM Class.phpProperty :=
        mapM_map_of_eq (Class.phpProperty_mapTypes hf) c.properties
      have hisEmpty : (c.mapTypes f).properties.isEmpty = c.properties.isEmpty := List.isEmpty_map
      rw [Stmt.mapTypes, Stmt.toPhp, Stmt.toPhp, hproperties, hisEmpty,
        Class.phpConstructor_mapTypes hf, Function.toPhpAll_mapTypes hf methods]
      rfl
  | .block body => Body.toPhp_mapTypes hf body

theorem Stmt.toPhpAll_mapTypes {f : Ty → Ty} (hf : Ty.KeepsPhp f) :
    ∀ ss : List Stmt, Stmt.toPhpAll (Stmt.mapTypesAll f ss) = Stmt.toPhpAll ss
  | [] => rfl
  | s :: ss => by
      rw [Stmt.mapTypesAll, Stmt.toPhpAll, Stmt.toPhpAll, Stmt.toPhp_mapTypes hf s,
        Stmt.toPhpAll_mapTypes hf ss]

end

/-! ## Imports -/

mutual

/-- PHP needs the same imports for a body. -/
theorem Body.needs_mapTypes {f : Ty → Ty} (hf : Ty.KeepsPhp f) :
    ∀ b : Body, (b.mapTypes f).needs .php = b.needs .php
  | ⟨_, stmts⟩ => by
      rw [Body.mapTypes, Body.needs, Body.needs, Stmt.importsAll_mapTypes hf stmts]

theorem Function.imports_mapTypes {f : Ty → Ty} (hf : Ty.KeepsPhp f) :
    ∀ fn : Function, (fn.mapTypes f).imports .php = fn.imports .php
  | ⟨signature, body⟩ => by
      rw [Function.mapTypes, Function.imports, Function.imports, Signature.imports_mapTypes hf,
        Body.needs_mapTypes hf body]

theorem Function.importsAll_mapTypes {f : Ty → Ty} (hf : Ty.KeepsPhp f) : ∀ fns : List Function,
    Function.importsAll .php (Function.mapTypesAll f fns) = Function.importsAll .php fns
  | [] => rfl
  | fn :: fns => by
      rw [Function.mapTypesAll, Function.importsAll, Function.importsAll,
        Function.imports_mapTypes hf fn, Function.importsAll_mapTypes hf fns]

theorem Branches.imports_mapTypes {f : Ty → Ty} (hf : Ty.KeepsPhp f) :
    ∀ bs : Branches, (bs.mapTypes f).imports .php = bs.imports .php
  | .done => rfl
  | .otherwise body => Body.needs_mapTypes hf body
  | .elseIf test body rest => by
      rw [Branches.mapTypes, Branches.imports, Branches.imports, Expr.imports_mapTypes hf,
        Body.needs_mapTypes hf body, Branches.imports_mapTypes hf rest]

theorem Handlers.imports_mapTypes {f : Ty → Ty} (hf : Ty.KeepsPhp f) :
    ∀ hs : Handlers, (hs.mapTypes f).imports .php = hs.imports .php
  | .done => rfl
  | .cleanup body => Body.needs_mapTypes hf body
  | .handler _ body rest => by
      rw [Handlers.mapTypes, Handlers.imports, Handlers.imports, Body.needs_mapTypes hf body,
        Handlers.imports_mapTypes hf rest]

theorem Stmt.imports_mapTypes {f : Ty → Ty} (hf : Ty.KeepsPhp f) :
    ∀ s : Stmt, (s.mapTypes f).imports .php = s.imports .php
  | .plain p => congrArg Except.ok (Plain.imports_mapTypes hf p)
  | .conditional test body branches => by
      rw [Stmt.mapTypes, Stmt.imports, Stmt.imports, Expr.imports_mapTypes hf,
        Body.needs_mapTypes hf body, Branches.imports_mapTypes hf branches]
  | .forEach _ iterable body | .forEntries _ _ iterable body => by
      rw [Stmt.mapTypes, Stmt.imports, Stmt.imports, Expr.imports_mapTypes hf,
        Body.needs_mapTypes hf body]
  | .attempt body handlers => by
      rw [Stmt.mapTypes, Stmt.imports, Stmt.imports, Body.needs_mapTypes hf body,
        Handlers.imports_mapTypes hf handlers]
  | .function fn => Function.imports_mapTypes hf fn
  | .classDef c methods => by
      rw [Stmt.mapTypes, Stmt.imports, Stmt.imports, Class.ownImports_mapTypes hf,
        Function.importsAll_mapTypes hf methods]
  | .block body => Body.needs_mapTypes hf body

theorem Stmt.importsAll_mapTypes {f : Ty → Ty} (hf : Ty.KeepsPhp f) :
    ∀ ss : List Stmt, Stmt.importsAll .php (Stmt.mapTypesAll f ss) = Stmt.importsAll .php ss
  | [] => rfl
  | s :: ss => by
      rw [Stmt.mapTypesAll, Stmt.importsAll, Stmt.importsAll, Stmt.imports_mapTypes hf s,
        Stmt.importsAll_mapTypes hf ss]

end

end Polyglot
