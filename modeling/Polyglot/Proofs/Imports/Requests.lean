import Polyglot.Proofs.Imports.Agreement
import Polyglot.Proofs.Stmt.Alike
import Polyglot.Stmt.Imports

/-!
# Import requests

Bodies and classes ask for imports beside what their statements need. The requests can stand
anywhere in the tree: they are not written where they stand, and only their set matters.

* `Body.requests`, `Body.bare` : the requests in a body, and the body without them.
* `Body.alike_bare` : a body is written the same without its requests.
* `Body.adds_requests` : it needs its requests, and what it needs without them.
-/

set_option autoImplicit false

namespace Polyglot

open Outcome Import

theorem Requests.for_append (rs rs' : Requests) (t : Target) :
    Requests.for (rs ++ rs') t = rs.for t ++ rs'.for t := by
  rw [Requests.for, List.filter_append, List.map_append]
  rfl

/-- The class without its import requests. -/
def Class.bare (c : Class) : Class := { c with imports := [] }

mutual

/-- The body without the import requests in it, at any depth. -/
def Body.bare : Body → Body
  | ⟨_, stmts⟩ => ⟨[], Stmt.bareAll stmts⟩

/-- The function without the import requests in its body. -/
def Function.bare : Function → Function
  | ⟨signature, body⟩ => ⟨signature, body.bare⟩

def Function.bareAll : List Function → List Function
  | [] => []
  | f :: fs => f.bare :: Function.bareAll fs

def Branches.bare : Branches → Branches
  | .done => .done
  | .otherwise body => .otherwise body.bare
  | .elseIf test body rest => .elseIf test body.bare rest.bare

def Handlers.bare : Handlers → Handlers
  | .done => .done
  | .cleanup body => .cleanup body.bare
  | .handler arm body rest => .handler arm body.bare rest.bare

/-- The statement without the import requests in it, at any depth. -/
def Stmt.bare : Stmt → Stmt
  | .plain p => .plain p
  | .conditional test body branches => .conditional test body.bare branches.bare
  | .forEach name iterable body => .forEach name iterable body.bare
  | .forEntries key value iterable body => .forEntries key value iterable body.bare
  | .attempt body handlers => .attempt body.bare handlers.bare
  | .function f => .function f.bare
  | .classDef c methods => .classDef c.bare (Function.bareAll methods)
  | .block body => .block body.bare

def Stmt.bareAll : List Stmt → List Stmt
  | [] => []
  | s :: ss => s.bare :: Stmt.bareAll ss

end

mutual

/-- The import requests in a body, at any depth. -/
def Body.requests : Body → Requests
  | ⟨imports, stmts⟩ => imports ++ Stmt.requestsAll stmts

/-- The import requests in a function. -/
def Function.requests : Function → Requests
  | ⟨_, body⟩ => body.requests

def Function.requestsAll : List Function → Requests
  | [] => []
  | f :: fs => f.requests ++ Function.requestsAll fs

def Branches.requests : Branches → Requests
  | .done => []
  | .otherwise body => body.requests
  | .elseIf _ body rest => body.requests ++ rest.requests

def Handlers.requests : Handlers → Requests
  | .done => []
  | .cleanup body => body.requests
  | .handler _ body rest => body.requests ++ rest.requests

/-- The import requests in a statement, at any depth. -/
def Stmt.requests : Stmt → Requests
  | .plain _ => []
  | .conditional _ body branches => body.requests ++ branches.requests
  | .forEach _ _ body | .forEntries _ _ _ body | .block body => body.requests
  | .attempt body handlers => body.requests ++ handlers.requests
  | .function f => f.requests
  | .classDef c methods => c.imports ++ Function.requestsAll methods

def Stmt.requestsAll : List Stmt → Requests
  | [] => []
  | s :: ss => s.requests ++ Stmt.requestsAll ss

end

theorem Stmt.isEmpty_bareAll (ss : List Stmt) : (bareAll ss).isEmpty = ss.isEmpty := by
  cases ss <;> rfl

mutual

theorem Body.alike_bare : ∀ b : Body, Body.Alike b.bare b
  | ⟨rs, stmts⟩ => Stmt.alike_bareAll rs stmts

theorem Function.alike_bare : ∀ f : Function, Function.Alike f.bare f
  | ⟨signature, ⟨rs, stmts⟩⟩ =>
      .of_body signature (Stmt.alike_bareAll rs stmts) fun _ => Stmt.isEmpty_bareAll stmts

theorem Function.alike_bareAll : ∀ fs : List Function,
    List.Forall₂ Function.Alike (Function.bareAll fs) fs
  | [] => .nil
  | f :: fs => .cons (Function.alike_bare f) (Function.alike_bareAll fs)

theorem Branches.alike_bare : ∀ bs : Branches, Branches.Alike bs.bare bs
  | .done => .done
  | .otherwise body => .otherwise (Body.alike_bare body)
  | .elseIf test body rest => .elseIf test (Body.alike_bare body) (Branches.alike_bare rest)

theorem Handlers.alike_bare : ∀ hs : Handlers, Handlers.Alike hs.bare hs
  | .done => .done
  | .cleanup body => .cleanup (Body.alike_bare body)
  | .handler arm body rest => .handler arm (Body.alike_bare body) (Handlers.alike_bare rest)

theorem Stmt.alike_bare : ∀ s : Stmt, Stmt.Alike s.bare s
  | .plain p => .refl (.plain p)
  | .conditional test body branches =>
      .conditional test (Body.alike_bare body) (Branches.alike_bare branches)
  | .forEach name iterable body => .forEach name iterable (Body.alike_bare body)
  | .forEntries key value iterable body =>
      .forEntries key value iterable (Body.alike_bare body)
  | .attempt body handlers => .attempt (Body.alike_bare body) (Handlers.alike_bare handlers)
  | .function f => .function (Function.alike_bare f)
  | .classDef c methods => .classDef c [] (Function.alike_bareAll methods)
  | .block body => .block (Body.alike_bare body)

theorem Stmt.alike_bareAll (rs : Requests) :
    ∀ ss : List Stmt, Body.Alike ⟨[], Stmt.bareAll ss⟩ ⟨rs, ss⟩
  | [] => .requests [] rs []
  | s :: ss => .cons (Stmt.alike_bare s) (Stmt.alike_bareAll rs ss)

end

/-! ## Requirements -/

/-- A class needs its requests, and what it needs without them. -/
theorem Class.adds_imports (t : Target) (c : Class) :
    Adds (c.imports.for t) (c.bare.ownImports t) (c.ownImports t) := by
  have hconstructor : c.bare.constructor t = c.constructor t := rfl
  rw [ownImports, hconstructor, ownImports]
  cases c.constructor t with
  | error e => exact .error e
  | ok k =>
      refine .ok fun i => ?_
      have hdecoration : c.bare.decorationImports t = c.decorationImports t := by
        cases t <;> rfl
      have hnone : c.bare.imports.for t = [] := rfl
      have hproperties : c.bare.properties = c.properties := rfl
      rw [hdecoration, hnone, hproperties]
      simp only [List.mem_append, List.not_mem_nil, false_or, or_assoc]

mutual

/-- A body needs its requests, and what it needs without them. -/
theorem Body.adds_requests (t : Target) :
    ∀ b : Body, Adds (b.requests.for t) (b.bare.needs t) (b.needs t)
  | ⟨imports, stmts⟩ => by
      rw [Body.requests, Requests.for_append]
      exact (Stmt.adds_requestsAll t stmts).request (Requests.for imports t)

theorem Function.adds_requests (t : Target) :
    ∀ f : Function, Adds (f.requests.for t) (f.bare.imports t) (f.imports t)
  | ⟨signature, body⟩ => (Body.adds_requests t body).prepend (signature.imports t)

theorem Function.adds_requestsAll (t : Target) : ∀ fs : List Function,
    Adds ((Function.requestsAll fs).for t) (Function.importsAll t (Function.bareAll fs))
      (Function.importsAll t fs)
  | [] => .refl _
  | f :: fs => by
      rw [Function.requestsAll, Requests.for_append]
      exact (Function.adds_requests t f).append (Function.adds_requestsAll t fs)

theorem Branches.adds_requests (t : Target) :
    ∀ bs : Branches, Adds (bs.requests.for t) (bs.bare.imports t) (bs.imports t)
  | .done => .refl _
  | .otherwise body => Body.adds_requests t body
  | .elseIf test body rest => by
      rw [Branches.requests, Requests.for_append]
      exact (Body.adds_requests t body).prepend_append (test.imports t)
        (Branches.adds_requests t rest)

theorem Handlers.adds_requests (t : Target) :
    ∀ hs : Handlers, Adds (hs.requests.for t) (hs.bare.imports t) (hs.imports t)
  | .done => .refl _
  | .cleanup body => Body.adds_requests t body
  | .handler _ body rest => by
      rw [Handlers.requests, Requests.for_append]
      exact (Body.adds_requests t body).append (Handlers.adds_requests t rest)

/-- A statement needs the requests in it, and what it needs without them. -/
theorem Stmt.adds_requests (t : Target) :
    ∀ s : Stmt, Adds (s.requests.for t) (s.bare.imports t) (s.imports t)
  | .plain _ => .refl _
  | .conditional test body branches => by
      rw [Stmt.requests, Requests.for_append]
      exact (Body.adds_requests t body).prepend_append (test.imports t)
        (Branches.adds_requests t branches)
  | .forEach _ iterable body | .forEntries _ _ iterable body =>
      (Body.adds_requests t body).prepend (iterable.imports t)
  | .attempt body handlers => by
      rw [Stmt.requests, Requests.for_append]
      exact (Body.adds_requests t body).append (Handlers.adds_requests t handlers)
  | .function f => Function.adds_requests t f
  | .classDef c methods => by
      rw [Stmt.requests, Requests.for_append]
      exact (c.adds_imports t).append (Function.adds_requestsAll t methods)
  | .block body => Body.adds_requests t body

theorem Stmt.adds_requestsAll (t : Target) : ∀ ss : List Stmt,
    Adds ((Stmt.requestsAll ss).for t) (Stmt.importsAll t (Stmt.bareAll ss)) (Stmt.importsAll t ss)
  | [] => .refl _
  | s :: ss => by
      rw [Stmt.requestsAll, Requests.for_append]
      exact (Stmt.adds_requests t s).append (Stmt.adds_requestsAll t ss)

end

end Polyglot
