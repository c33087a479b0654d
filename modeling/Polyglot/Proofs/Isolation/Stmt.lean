import Polyglot.Proofs.Isolation.Class

/-!
# What a language sees of a statement

* `Stmt.seenBy` : what is left when everything for other languages is blanked, at any depth.
* `Stmt.toPython_seenBy`, `Stmt.toTypeScript_seenBy`, `Stmt.toPhp_seenBy` : it is written the same,
  or fails with the same error.
* `Body.needs_seenBy` : it needs the same imports.
-/

set_option autoImplicit false

namespace Polyglot

open Outcome

def Catch.seenBy (t : Target) (arm : Catch) : Catch where
  var := arm.var
  classes := arm.classes.seenBy none t

mutual

/-- What one language sees of a body. -/
def Body.seenBy (t : Target) : Body → Body
  | ⟨imports, stmts⟩ => ⟨imports.seenBy t, Stmt.seenByAll t stmts⟩

def Function.seenBy (t : Target) : Function → Function
  | ⟨signature, body⟩ => ⟨signature.seenBy t, body.seenBy t⟩

def Function.seenByAll (t : Target) : List Function → List Function
  | [] => []
  | f :: fs => f.seenBy t :: Function.seenByAll t fs

def Branches.seenBy (t : Target) : Branches → Branches
  | .done => .done
  | .otherwise body => .otherwise (body.seenBy t)
  | .elseIf test body rest => .elseIf (test.seenBy t) (body.seenBy t) (rest.seenBy t)

def Handlers.seenBy (t : Target) : Handlers → Handlers
  | .done => .done
  | .cleanup body => .cleanup (body.seenBy t)
  | .handler arm body rest => .handler (arm.seenBy t) (body.seenBy t) (rest.seenBy t)

/-- What one language sees of a statement. -/
def Stmt.seenBy (t : Target) : Stmt → Stmt
  | .plain p => .plain (p.seenBy t)
  | .conditional test body branches =>
    .conditional (test.seenBy t) (body.seenBy t) (branches.seenBy t)
  | .forEach name iterable body => .forEach name (iterable.seenBy t) (body.seenBy t)
  | .forEntries key value iterable body =>
    .forEntries key value (iterable.seenBy t) (body.seenBy t)
  | .attempt body handlers => .attempt (body.seenBy t) (handlers.seenBy t)
  | .function f => .function (f.seenBy t)
  | .classDef c methods => .classDef (c.seenBy t) (Function.seenByAll t methods)
  | .block body => .block (body.seenBy t)

def Stmt.seenByAll (t : Target) : List Stmt → List Stmt
  | [] => []
  | s :: ss => s.seenBy t :: Stmt.seenByAll t ss

end

theorem Stmt.isEmpty_seenByAll (t : Target) (ss : List Stmt) :
    (seenByAll t ss).isEmpty = ss.isEmpty := by
  cases ss <;> rfl

theorem Handlers.check_seenBy (t : Target) (hs : Handlers) : (hs.seenBy t).check = hs.check := by
  cases hs <;> rfl

/-! ## Python -/

mutual

theorem Body.hasCode_seenBy : ∀ b : Body, (b.seenBy .python).hasCode = b.hasCode
  | ⟨_, stmts⟩ => Stmt.anyCode_seenBy stmts

theorem Stmt.hasCode_seenBy : ∀ s : Stmt, (s.seenBy .python).hasCode = s.hasCode
  | .plain p => Plain.hasCode_seenBy p
  | .block body => Body.hasCode_seenBy body
  | .conditional _ _ _ | .forEach _ _ _ | .forEntries _ _ _ _ | .attempt _ _ | .function _
  | .classDef _ _ => rfl

theorem Stmt.anyCode_seenBy :
    ∀ ss : List Stmt, Stmt.anyCode (Stmt.seenByAll .python ss) = Stmt.anyCode ss
  | [] => rfl
  | s :: ss => by
      rw [Stmt.seenByAll, Stmt.anyCode, Stmt.anyCode, Stmt.hasCode_seenBy s,
        Stmt.anyCode_seenBy ss]

end

mutual

theorem Body.toPython_seenBy : ∀ b : Body, (b.seenBy .python).toPython = b.toPython
  | ⟨_, stmts⟩ => Stmt.toPythonAll_seenBy stmts

theorem Function.toPython_seenBy : ∀ f : Function, (f.seenBy .python).toPython = f.toPython
  | ⟨signature, ⟨imports, stmts⟩⟩ => by
      have hbody := Stmt.toPythonAll_seenBy stmts
      have hcode := Stmt.anyCode_seenBy stmts
      simp only [Function.seenBy, Body.seenBy, Function.toPython, Body.toPython, Body.hasCode,
        Signature.checkBody_seenBy, Signature.pythonOverloads_seenBy, Signature.pythonHead_seenBy,
        Signature.pythonSuite_seenBy, Stmt.isEmpty_seenByAll, hbody, hcode]

theorem Function.toPythonAll_seenBy : ∀ fs : List Function,
    Function.toPythonAll (Function.seenByAll .python fs) = Function.toPythonAll fs
  | [] => rfl
  | f :: fs => by
      rw [Function.seenByAll, Function.toPythonAll, Function.toPythonAll,
        Function.toPython_seenBy f, Function.toPythonAll_seenBy fs]

theorem Branches.toPython_seenBy : ∀ bs : Branches, (bs.seenBy .python).toPython = bs.toPython
  | .done => rfl
  | .otherwise body => by
      rw [Branches.seenBy, Branches.toPython, Branches.toPython, Body.toPython_seenBy body,
        Body.hasCode_seenBy]
  | .elseIf test body rest => by
      rw [Branches.seenBy, Branches.toPython, Branches.toPython, Expr.pythonText_seenBy,
        Body.toPython_seenBy body, Body.hasCode_seenBy, Branches.toPython_seenBy rest]

theorem Handlers.toPython_seenBy : ∀ hs : Handlers, (hs.seenBy .python).toPython = hs.toPython
  | .done => rfl
  | .cleanup body => by
      rw [Handlers.seenBy, Handlers.toPython, Handlers.toPython, Body.toPython_seenBy body,
        Body.hasCode_seenBy]
  | .handler arm body rest => by
      rw [Handlers.seenBy, Handlers.toPython, Handlers.toPython, Body.toPython_seenBy body,
        Body.hasCode_seenBy, Handlers.toPython_seenBy rest]
      rfl

/-- A statement is written from what Python sees of it. -/
theorem Stmt.toPython_seenBy : ∀ s : Stmt, (s.seenBy .python).toPython = s.toPython
  | .plain p => Plain.toPython_seenBy p
  | .conditional test body branches => by
      rw [Stmt.seenBy, Stmt.toPython, Stmt.toPython, Expr.pythonText_seenBy,
        Body.toPython_seenBy body, Body.hasCode_seenBy, Branches.toPython_seenBy branches]
  | .forEach _ iterable body => by
      rw [Stmt.seenBy, Stmt.toPython, Stmt.toPython, Expr.pythonText_seenBy,
        Body.toPython_seenBy body, Body.hasCode_seenBy]
  | .forEntries _ _ iterable body => by
      rw [Stmt.seenBy, Stmt.toPython, Stmt.toPython, Expr.toPython_seenBy,
        Body.toPython_seenBy body, Body.hasCode_seenBy]
  | .attempt body handlers => by
      rw [Stmt.seenBy, Stmt.toPython, Stmt.toPython, Handlers.check_seenBy,
        Body.toPython_seenBy body, Body.hasCode_seenBy, Handlers.toPython_seenBy handlers]
  | .function f => Function.toPython_seenBy f
  | .classDef c methods => by
      rw [Stmt.seenBy, Stmt.toPython, Stmt.toPython, Class.pythonProperties_seenBy,
        Class.pythonConstructor_seenBy, Class.pythonHead_seenBy, Class.seenBy_docstring,
        Class.seenBy_remarks, Function.toPythonAll_seenBy methods]
  | .block body => Body.toPython_seenBy body

theorem Stmt.toPythonAll_seenBy :
    ∀ ss : List Stmt, Stmt.toPythonAll (Stmt.seenByAll .python ss) = Stmt.toPythonAll ss
  | [] => rfl
  | s :: ss => by
      rw [Stmt.seenByAll, Stmt.toPythonAll, Stmt.toPythonAll, Stmt.toPython_seenBy s,
        Stmt.toPythonAll_seenBy ss]

end

/-! ## TypeScript -/

theorem Dispatch.add_seenBy (d : Dispatch) (arm : Catch) :
    d.add (arm.seenBy .typescript) = d.add arm := rfl

theorem Dispatch.ofCatches_seenBy (arms : List Catch) :
    Dispatch.ofCatches (arms.map (Catch.seenBy .typescript)) = Dispatch.ofCatches arms := by
  rw [ofCatches, List.foldlM_map, ofCatches]
  simp only [add_seenBy]

theorem Handlers.catches_seenBy (t : Target) :
    ∀ hs : Handlers, (hs.seenBy t).catches = hs.catches.map (Catch.seenBy t)
  | .done | .cleanup _ => rfl
  | .handler arm _ rest => by
      rw [seenBy, catches, catches, catches_seenBy t rest, List.map_cons]

mutual

theorem Body.toTypeScript_seenBy :
    ∀ b : Body, (b.seenBy .typescript).toTypeScript = b.toTypeScript
  | ⟨_, stmts⟩ => Stmt.toTypeScriptAll_seenBy stmts

theorem Function.toTypeScript_seenBy :
    ∀ f : Function, (f.seenBy .typescript).toTypeScript = f.toTypeScript
  | ⟨signature, ⟨imports, stmts⟩⟩ => by
      have hbody := Stmt.toTypeScriptAll_seenBy stmts
      simp only [Function.seenBy, Body.seenBy, Function.toTypeScript, Body.toTypeScript,
        Signature.checkBody_seenBy, Signature.typeScriptHead_seenBy, Signature.bracedBody_seenBy,
        Stmt.isEmpty_seenByAll, hbody]

theorem Function.toTypeScriptAll_seenBy : ∀ fs : List Function,
    Function.toTypeScriptAll (Function.seenByAll .typescript fs) = Function.toTypeScriptAll fs
  | [] => rfl
  | f :: fs => by
      rw [Function.seenByAll, Function.toTypeScriptAll, Function.toTypeScriptAll,
        Function.toTypeScript_seenBy f, Function.toTypeScriptAll_seenBy fs]

theorem Branches.toTypeScript_seenBy :
    ∀ bs : Branches, (bs.seenBy .typescript).toTypeScript = bs.toTypeScript
  | .done => rfl
  | .otherwise body => by
      rw [Branches.seenBy, Branches.toTypeScript, Branches.toTypeScript,
        Body.toTypeScript_seenBy body]
  | .elseIf test body rest => by
      rw [Branches.seenBy, Branches.toTypeScript, Branches.toTypeScript,
        Expr.typeScriptText_seenBy, Body.toTypeScript_seenBy body,
        Branches.toTypeScript_seenBy rest]

theorem Handlers.toTypeScript_seenBy :
    ∀ hs : Handlers, (hs.seenBy .typescript).toTypeScript = hs.toTypeScript
  | .done => rfl
  | .cleanup body => by
      rw [Handlers.seenBy, Handlers.toTypeScript, Handlers.toTypeScript,
        Body.toTypeScript_seenBy body]
  | .handler arm body rest => by
      rw [Handlers.seenBy, Handlers.toTypeScript, Handlers.toTypeScript,
        Body.toTypeScript_seenBy body, Handlers.toTypeScript_seenBy rest]

/-- A statement is written from what TypeScript sees of it. -/
theorem Stmt.toTypeScript_seenBy :
    ∀ s : Stmt, (s.seenBy .typescript).toTypeScript = s.toTypeScript
  | .plain p => Plain.toTypeScript_seenBy p
  | .conditional test body branches => by
      rw [Stmt.seenBy, Stmt.toTypeScript, Stmt.toTypeScript, Expr.typeScriptText_seenBy,
        Body.toTypeScript_seenBy body, Branches.toTypeScript_seenBy branches]
  | .forEach _ iterable body => by
      rw [Stmt.seenBy, Stmt.toTypeScript, Stmt.toTypeScript, Expr.typeScriptText_seenBy,
        Body.toTypeScript_seenBy body]
  | .forEntries key _ iterable body => by
      have ih := Body.toTypeScript_seenBy body
      cases key <;> simp only [Stmt.seenBy, Stmt.toTypeScript, Expr.toTypeScript_seenBy,
        Expr.isMap_seenBy, ih]
  | .attempt body handlers => by
      rw [Stmt.seenBy, Stmt.toTypeScript, Stmt.toTypeScript, Handlers.check_seenBy,
        Handlers.catches_seenBy, Dispatch.ofCatches_seenBy, Body.toTypeScript_seenBy body,
        Handlers.toTypeScript_seenBy handlers]
  | .function f => Function.toTypeScript_seenBy f
  | .classDef c methods => by
      rw [Stmt.seenBy, Stmt.toTypeScript, Stmt.toTypeScript, Class.seenBy_properties,
        mapM_map_of_eq Class.typeScriptProperty_seenBy, Class.typeScriptConstructor_seenBy,
        Class.typeScriptHead_seenBy, Class.seenBy_docstring, Class.seenBy_remarks,
        List.isEmpty_map, Function.toTypeScriptAll_seenBy methods]
  | .block body => Body.toTypeScript_seenBy body

theorem Stmt.toTypeScriptAll_seenBy : ∀ ss : List Stmt,
    Stmt.toTypeScriptAll (Stmt.seenByAll .typescript ss) = Stmt.toTypeScriptAll ss
  | [] => rfl
  | s :: ss => by
      rw [Stmt.seenByAll, Stmt.toTypeScriptAll, Stmt.toTypeScriptAll, Stmt.toTypeScript_seenBy s,
        Stmt.toTypeScriptAll_seenBy ss]

end

/-! ## PHP -/

mutual

theorem Body.toPhp_seenBy : ∀ b : Body, (b.seenBy .php).toPhp = b.toPhp
  | ⟨_, stmts⟩ => Stmt.toPhpAll_seenBy stmts

theorem Function.toPhp_seenBy : ∀ f : Function, (f.seenBy .php).toPhp = f.toPhp
  | ⟨signature, ⟨imports, stmts⟩⟩ => by
      have hbody := Stmt.toPhpAll_seenBy stmts
      simp only [Function.seenBy, Body.seenBy, Function.toPhp, Body.toPhp,
        Signature.checkBody_seenBy, Signature.phpHead_seenBy, Signature.bracedBody_seenBy,
        Stmt.isEmpty_seenByAll, hbody]

theorem Function.toPhpAll_seenBy : ∀ fs : List Function,
    Function.toPhpAll (Function.seenByAll .php fs) = Function.toPhpAll fs
  | [] => rfl
  | f :: fs => by
      rw [Function.seenByAll, Function.toPhpAll, Function.toPhpAll, Function.toPhp_seenBy f,
        Function.toPhpAll_seenBy fs]

theorem Branches.toPhp_seenBy : ∀ bs : Branches, (bs.seenBy .php).toPhp = bs.toPhp
  | .done => rfl
  | .otherwise body => by
      rw [Branches.seenBy, Branches.toPhp, Branches.toPhp, Body.toPhp_seenBy body]
  | .elseIf test body rest => by
      rw [Branches.seenBy, Branches.toPhp, Branches.toPhp, Expr.phpText_seenBy,
        Body.toPhp_seenBy body, Branches.toPhp_seenBy rest]

theorem Handlers.toPhp_seenBy : ∀ hs : Handlers, (hs.seenBy .php).toPhp = hs.toPhp
  | .done => rfl
  | .cleanup body => by
      rw [Handlers.seenBy, Handlers.toPhp, Handlers.toPhp, Body.toPhp_seenBy body]
  | .handler arm body rest => by
      rw [Handlers.seenBy, Handlers.toPhp, Handlers.toPhp, Body.toPhp_seenBy body,
        Handlers.toPhp_seenBy rest]
      rfl

/-- A statement is written from what PHP sees of it. -/
theorem Stmt.toPhp_seenBy : ∀ s : Stmt, (s.seenBy .php).toPhp = s.toPhp
  | .plain p => Plain.toPhp_seenBy p
  | .conditional test body branches => by
      rw [Stmt.seenBy, Stmt.toPhp, Stmt.toPhp, Expr.phpText_seenBy, Body.toPhp_seenBy body,
        Branches.toPhp_seenBy branches]
  | .forEach _ iterable body => by
      rw [Stmt.seenBy, Stmt.toPhp, Stmt.toPhp, Expr.phpText_seenBy, Body.toPhp_seenBy body]
  | .forEntries key _ iterable body => by
      have ih := Body.toPhp_seenBy body
      cases key <;> simp only [Stmt.seenBy, Stmt.toPhp, Expr.phpText_seenBy, ih]
  | .attempt body handlers => by
      rw [Stmt.seenBy, Stmt.toPhp, Stmt.toPhp, Handlers.check_seenBy, Body.toPhp_seenBy body,
        Handlers.toPhp_seenBy handlers]
  | .function f => Function.toPhp_seenBy f
  | .classDef c methods => by
      rw [Stmt.seenBy, Stmt.toPhp, Stmt.toPhp, Class.seenBy_properties,
        mapM_map_of_eq Class.phpProperty_seenBy, Class.phpConstructor_seenBy,
        Class.phpHead_seenBy, Class.seenBy_docstring, Class.seenBy_remarks, List.isEmpty_map,
        Function.toPhpAll_seenBy methods]
  | .block body => Body.toPhp_seenBy body

theorem Stmt.toPhpAll_seenBy :
    ∀ ss : List Stmt, Stmt.toPhpAll (Stmt.seenByAll .php ss) = Stmt.toPhpAll ss
  | [] => rfl
  | s :: ss => by
      rw [Stmt.seenByAll, Stmt.toPhpAll, Stmt.toPhpAll, Stmt.toPhp_seenBy s,
        Stmt.toPhpAll_seenBy ss]

end

/-! ## Imports -/

mutual

/-- What a language sees of a body needs the same imports. -/
theorem Body.needs_seenBy (t : Target) : ∀ b : Body, (b.seenBy t).needs t = b.needs t
  | ⟨imports, stmts⟩ => by
      rw [Body.seenBy, Body.needs, Body.needs, Requests.for_seenBy, Stmt.importsAll_seenBy t stmts]

theorem Function.imports_seenBy (t : Target) :
    ∀ f : Function, (f.seenBy t).imports t = f.imports t
  | ⟨signature, body⟩ => by
      rw [Function.seenBy, Function.imports, Function.imports, Signature.imports_seenBy,
        Body.needs_seenBy t body]

theorem Function.importsAll_seenBy (t : Target) : ∀ fs : List Function,
    Function.importsAll t (Function.seenByAll t fs) = Function.importsAll t fs
  | [] => rfl
  | f :: fs => by
      rw [Function.seenByAll, Function.importsAll, Function.importsAll,
        Function.imports_seenBy t f, Function.importsAll_seenBy t fs]

theorem Branches.imports_seenBy (t : Target) :
    ∀ bs : Branches, (bs.seenBy t).imports t = bs.imports t
  | .done => rfl
  | .otherwise body => Body.needs_seenBy t body
  | .elseIf test body rest => by
      rw [Branches.seenBy, Branches.imports, Branches.imports, Expr.imports_seenBy,
        Body.needs_seenBy t body, Branches.imports_seenBy t rest]

theorem Handlers.imports_seenBy (t : Target) :
    ∀ hs : Handlers, (hs.seenBy t).imports t = hs.imports t
  | .done => rfl
  | .cleanup body => Body.needs_seenBy t body
  | .handler arm body rest => by
      rw [Handlers.seenBy, Handlers.imports, Handlers.imports, Body.needs_seenBy t body,
        Handlers.imports_seenBy t rest]

theorem Stmt.imports_seenBy (t : Target) : ∀ s : Stmt, (s.seenBy t).imports t = s.imports t
  | .plain p => by
      rw [Stmt.seenBy, Stmt.imports, Stmt.imports, Plain.imports_seenBy]
  | .conditional test body branches => by
      rw [Stmt.seenBy, Stmt.imports, Stmt.imports, Expr.imports_seenBy, Body.needs_seenBy t body,
        Branches.imports_seenBy t branches]
  | .forEach _ iterable body | .forEntries _ _ iterable body => by
      rw [Stmt.seenBy, Stmt.imports, Stmt.imports, Expr.imports_seenBy, Body.needs_seenBy t body]
  | .attempt body handlers => by
      rw [Stmt.seenBy, Stmt.imports, Stmt.imports, Body.needs_seenBy t body,
        Handlers.imports_seenBy t handlers]
  | .function f => Function.imports_seenBy t f
  | .classDef c methods => by
      rw [Stmt.seenBy, Stmt.imports, Stmt.imports, Class.ownImports_seenBy,
        Function.importsAll_seenBy t methods]
  | .block body => Body.needs_seenBy t body

theorem Stmt.importsAll_seenBy (t : Target) :
    ∀ ss : List Stmt, Stmt.importsAll t (Stmt.seenByAll t ss) = Stmt.importsAll t ss
  | [] => rfl
  | s :: ss => by
      rw [Stmt.seenByAll, Stmt.importsAll, Stmt.importsAll, Stmt.imports_seenBy t s,
        Stmt.importsAll_seenBy t ss]

end

end Polyglot
