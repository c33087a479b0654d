import Polyglot.Stmt.Class

/-!
# Statements

Statements with bodies, as a tree over the statements without. A body is a list of statements with
the imports that it asks for.

* `Branches` : what follows the first body of a conditional; there is at most one `else`.
* `Handlers` : what follows the body of a `try`; there is at most one `finally`.
* `Body.hasCode` : whether a body holds anything that Python counts as a statement.
-/

set_option autoImplicit false

namespace Polyglot

/-- What a handler catches and under which name. A language without a class of its own catches
everything. -/
structure Catch where
  var : Option String
  classes : PerTarget (Option String)
  deriving DecidableEq, Repr

mutual

/-- Statements in order, and the imports that were asked for beside them. -/
structure Body where
  imports : Requests
  stmts : List Stmt

/-- A function with its statements. -/
structure Function where
  signature : Signature
  body : Body

/-- The arms of a conditional after the first. -/
inductive Branches where
  | done
  | otherwise (body : Body)
  | elseIf (test : Expr) (body : Body) (rest : Branches)

/-- The arms after the body of a `try`: handlers, and statements that run in any case. -/
inductive Handlers where
  | done
  | cleanup (body : Body)
  | handler (arm : Catch) (body : Body) (rest : Handlers)

/-- A statement. A loop over entries is one over the values of a dict or map, and its keys if they
have a name. -/
inductive Stmt where
  | plain (p : Plain)
  | conditional (test : Expr) (body : Body) (branches : Branches)
  | forEach (name : String) (iterable : Expr) (body : Body)
  | forEntries (key : Option String) (value : String) (iterable : Expr) (body : Body)
  | attempt (body : Body) (handlers : Handlers)
  | function (f : Function)
  | classDef (c : Class) (methods : List Function)
  | block (body : Body)

end

namespace Body

def empty : Body := ⟨[], []⟩

/-- Adds a statement at the end. -/
def push (b : Body) (s : Stmt) : Body := { b with stmts := b.stmts ++ [s] }

/-- Adds import requests. -/
def addImports (b : Body) (rs : Requests) : Body := { b with imports := b.imports ++ rs }

end Body

namespace Branches

/-- Adds a tested arm behind the tested arms that there are. -/
def addElseIf (test : Expr) (body : Body) : Branches → Branches
  | .done => .elseIf test body .done
  | .otherwise last => .elseIf test body (.otherwise last)
  | .elseIf t b rest => .elseIf t b (rest.addElseIf test body)

/-- Whether the arms end with an `else`. -/
def hasElse : Branches → Bool
  | .done => false
  | .otherwise _ => true
  | .elseIf _ _ rest => rest.hasElse

/-- Adds the `else` arm. -/
def addElse (body : Body) : Branches → Branches
  | .done | .otherwise _ => .otherwise body
  | .elseIf t b rest => .elseIf t b (rest.addElse body)

/-- There is at most one `else`. -/
def checkElse (bs : Branches) : Except Error Unit :=
  if bs.hasElse then .error (.invalid .secondElse) else .ok ()

end Branches

namespace Handlers

/-- Adds a handler behind the handlers that there are. -/
def addHandler (arm : Catch) (body : Body) : Handlers → Handlers
  | .done => .handler arm body .done
  | .cleanup last => .handler arm body (.cleanup last)
  | .handler a b rest => .handler a b (rest.addHandler arm body)

/-- Whether the arms end with statements that run in any case. -/
def hasCleanup : Handlers → Bool
  | .done => false
  | .cleanup _ => true
  | .handler _ _ rest => rest.hasCleanup

/-- Adds the statements that run in any case. -/
def addCleanup (body : Body) : Handlers → Handlers
  | .done | .cleanup _ => .cleanup body
  | .handler a b rest => .handler a b (rest.addCleanup body)

/-- There is at most one `finally`. -/
def checkCleanup (hs : Handlers) : Except Error Unit :=
  if hs.hasCleanup then .error (.invalid .secondFinally) else .ok ()

/-- What the handlers catch, in order. -/
def catches : Handlers → List Catch
  | .done | .cleanup _ => []
  | .handler a _ rest => a :: rest.catches

/-- A `try` has a handler or a `finally`. -/
def check : Handlers → Except Error Unit
  | .done => .error (.invalid .noHandlers)
  | _ => .ok ()

end Handlers

/-- Whether the statement is code in Python: blank lines, comments and code that is left out on
purpose are not. -/
def Plain.hasCode : Plain → Bool
  | .blank | .comment _ | .snippet ⟨.omitted, _, _⟩ => false
  | _ => true

mutual

/-- Whether any statement of the body is code in Python. -/
def Body.hasCode : Body → Bool
  | ⟨_, stmts⟩ => Stmt.anyCode stmts

/-- Whether the statement is code in Python; a block is if something in it is. -/
def Stmt.hasCode : Stmt → Bool
  | .plain p => p.hasCode
  | .block body => body.hasCode
  | _ => true

/-- Whether any of the statements is code in Python. -/
def Stmt.anyCode : List Stmt → Bool
  | [] => false
  | s :: ss => s.hasCode || Stmt.anyCode ss

end

end Polyglot
