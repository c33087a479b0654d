import Polyglot.Proofs.Outcome
import Polyglot.Script

/-!
# Parts of statements

The expressions, functions and bodies that stand directly in a statement. What is written has all
its parts written, in every language.

* `Body.renders_of_mem` : the statements of a body.
* `Stmt.renders_of_mem_bodies`, `Stmt.renders_of_mem_functions` : the bodies and functions directly
  inside a statement.
* `Function.overloads_eq_nil` : a function that is written in another language than Python has no
  overloads.
-/

set_option autoImplicit false

namespace Polyglot

open Outcome

variable {t : Target}

/-- What holds of a list only if it holds of the first member and of the others holds of every
member. -/
theorem forall_mem_of_cons {α : Type} {P : List α → Prop} {Q : α → Prop}
    (step : ∀ {a : α} {as : List α}, P (a :: as) → Q a ∧ P as) {as : List α} (h : P as) :
    ∀ a ∈ as, Q a := by
  induction as with
  | nil => exact fun a ha => nomatch ha
  | cons a as ih =>
      intro a' ha'
      rcases List.mem_cons.1 ha' with rfl | ha'
      · exact (step h).1
      · exact ih (step h).2 a' ha'

/-! ## Parts -/

/-- The tests of the arms. -/
def Branches.tests : Branches → List Expr
  | .done | .otherwise _ => []
  | .elseIf test _ rest => test :: rest.tests

/-- The bodies of the arms. -/
def Branches.bodies : Branches → List Body
  | .done => []
  | .otherwise body => [body]
  | .elseIf _ body rest => body :: rest.bodies

/-- The bodies of the arms. -/
def Handlers.bodies : Handlers → List Body
  | .done => []
  | .cleanup body => [body]
  | .handler _ body rest => body :: rest.bodies

namespace Stmt

/-- The expressions in the head of a statement with bodies. -/
def exprs : Stmt → List Expr
  | .conditional test _ branches => test :: branches.tests
  | .forEach _ iterable _ | .forEntries _ _ iterable _ => [iterable]
  | .plain _ | .attempt _ _ | .function _ | .classDef _ _ | .block _ => []

/-- The functions that a statement defines. -/
def functions : Stmt → List Function
  | .function f => [f]
  | .classDef _ methods => methods
  | _ => []

/-- The bodies directly inside a statement. -/
def bodies : Stmt → List Body
  | .plain _ => []
  | .conditional _ body branches => body :: branches.bodies
  | .forEach _ _ body | .forEntries _ _ _ body | .block body => [body]
  | .attempt body handlers => body :: handlers.bodies
  | .function f => [f.body]
  | .classDef _ methods => methods.map Function.body

end Stmt

/-! ## Writing -/

/-- The body can be written. -/
def Body.Renders (b : Body) : Target → Prop
  | .python => ∃ ls, b.toPython = .ok ls
  | .typescript => ∃ ls, b.toTypeScript = .ok ls
  | .php => ∃ ls, b.toPhp = .ok ls

/-- The function can be written. -/
def Function.Renders (f : Function) : Target → Prop
  | .python => ∃ ls, f.toPython = .ok ls
  | .typescript => ∃ ls, f.toTypeScript = .ok ls
  | .php => ∃ ls, f.toPhp = .ok ls

def Function.RenderAll (fs : List Function) : Target → Prop
  | .python => ∃ ls, Function.toPythonAll fs = .ok ls
  | .typescript => ∃ ls, Function.toTypeScriptAll fs = .ok ls
  | .php => ∃ ls, Function.toPhpAll fs = .ok ls

def Branches.Renders (bs : Branches) : Target → Prop
  | .python => ∃ ls, bs.toPython = .ok ls
  | .typescript => ∃ ls, bs.toTypeScript = .ok ls
  | .php => ∃ ls, bs.toPhp = .ok ls

def Handlers.Renders (hs : Handlers) : Target → Prop
  | .python => ∃ ls, hs.toPython = .ok ls
  | .typescript => ∃ ls, hs.toTypeScript = .ok ls
  | .php => ∃ ls, hs.toPhp = .ok ls

/-- The statement can be written. -/
def Stmt.Renders (s : Stmt) : Target → Prop
  | .python => ∃ ls, s.toPython = .ok ls
  | .typescript => ∃ ls, s.toTypeScript = .ok ls
  | .php => ∃ ls, s.toPhp = .ok ls

def Stmt.RenderAll (ss : List Stmt) : Target → Prop
  | .python => ∃ ls, Stmt.toPythonAll ss = .ok ls
  | .typescript => ∃ ls, Stmt.toTypeScriptAll ss = .ok ls
  | .php => ∃ ls, Stmt.toPhpAll ss = .ok ls

/-- Statements that are written one after the other are written each. -/
theorem Stmt.RenderAll.of_cons {s : Stmt} {ss : List Stmt} (h : RenderAll (s :: ss) t) :
    s.Renders t ∧ RenderAll ss t := by
  cases t
  all_goals
    obtain ⟨ls, h⟩ := h
    obtain ⟨here, hhere, h⟩ := bind_eq_ok.1 h
    obtain ⟨rest, hrest, _⟩ := bind_eq_ok.1 h
    exact ⟨⟨here, hhere⟩, rest, hrest⟩

/-- Functions that are written one after the other are written each. -/
theorem Function.RenderAll.of_cons {f : Function} {fs : List Function}
    (h : RenderAll (f :: fs) t) : f.Renders t ∧ RenderAll fs t := by
  cases t
  all_goals
    obtain ⟨ls, h⟩ := h
    obtain ⟨here, hhere, h⟩ := bind_eq_ok.1 h
    obtain ⟨rest, hrest, _⟩ := bind_eq_ok.1 h
    exact ⟨⟨here, hhere⟩, rest, hrest⟩

/-- Every statement of a body that is written is written. -/
theorem Body.renders_of_mem {b : Body} (h : b.Renders t) {s : Stmt} (hs : s ∈ b.stmts) :
    s.Renders t := by
  obtain ⟨_, stmts⟩ := b
  have hall : Stmt.RenderAll stmts t := by
    cases t <;> exact h
  exact forall_mem_of_cons (P := (Stmt.RenderAll · t)) Stmt.RenderAll.of_cons hall s hs

/-- The body of a function that is written is written. -/
theorem Function.renders_body {f : Function} (h : f.Renders t) : f.body.Renders t := by
  obtain ⟨signature, body⟩ := f
  cases t with
  | python =>
      obtain ⟨ls, h⟩ := h
      obtain ⟨_, _, h⟩ := bind_eq_ok.1 h
      obtain ⟨_, _, h⟩ := bind_eq_ok.1 h
      obtain ⟨_, _, h⟩ := bind_eq_ok.1 h
      obtain ⟨inner, hinner, _⟩ := bind_eq_ok.1 h
      exact ⟨inner, hinner⟩
  | typescript | php =>
      obtain ⟨ls, h⟩ := h
      obtain ⟨_, _, h⟩ := bind_eq_ok.1 h
      obtain ⟨_, _, h⟩ := bind_eq_ok.1 h
      obtain ⟨inner, hinner, _⟩ := bind_eq_ok.1 h
      exact ⟨inner, hinner⟩

/-- Only Python writes overloads. -/
theorem Function.overloads_eq_nil {f : Function} (h : f.Renders t) (ht : t ≠ .python) :
    f.signature.overloads = [] := by
  obtain ⟨signature, body⟩ := f
  cases t with
  | python => exact absurd rfl ht
  | typescript =>
      obtain ⟨ls, h⟩ := h
      obtain ⟨_, _, h⟩ := bind_eq_ok.1 h
      obtain ⟨_, hhead, _⟩ := bind_eq_ok.1 h
      obtain ⟨_, hcheck, _⟩ := bind_eq_ok.1 hhead
      rw [Signature.checkTypeScript] at hcheck
      cases ho : signature.overloads with
      | nil => rfl
      | cons o os => simp [ho] at hcheck
  | php =>
      obtain ⟨ls, h⟩ := h
      obtain ⟨_, _, h⟩ := bind_eq_ok.1 h
      obtain ⟨_, hhead, _⟩ := bind_eq_ok.1 h
      obtain ⟨_, hcheck, _⟩ := bind_eq_ok.1 hhead
      rw [Signature.checkPhp] at hcheck
      cases ho : signature.overloads with
      | nil => rfl
      | cons o os =>
          cases ha : signature.isAsync <;> simp [ho, ha] at hcheck

/-- The bodies of arms that are written are written. -/
theorem Branches.renders_of_mem_bodies : ∀ {bs : Branches}, bs.Renders t →
    ∀ {b : Body}, b ∈ bs.bodies → b.Renders t
  | .done, _, _, hb => nomatch hb
  | .otherwise body, h, b, hb => by
      rw [bodies, List.mem_singleton] at hb
      subst hb
      cases t
      all_goals
        obtain ⟨ls, h⟩ := h
        obtain ⟨inner, hinner, _⟩ := bind_eq_ok.1 h
        exact ⟨inner, hinner⟩
  | .elseIf test body rest, h, b, hb => by
      have hparts : body.Renders t ∧ rest.Renders t := by
        cases t
        all_goals
          obtain ⟨ls, h⟩ := h
          obtain ⟨_, _, h⟩ := bind_eq_ok.1 h
          obtain ⟨inner, hinner, h⟩ := bind_eq_ok.1 h
          obtain ⟨others, hothers, _⟩ := bind_eq_ok.1 h
          exact ⟨⟨inner, hinner⟩, others, hothers⟩
      rcases List.mem_cons.1 hb with rfl | hb
      · exact hparts.1
      · exact renders_of_mem_bodies hparts.2 hb

/-- The bodies of arms that are written are written. -/
theorem Handlers.renders_of_mem_bodies : ∀ {hs : Handlers}, hs.Renders t →
    ∀ {b : Body}, b ∈ hs.bodies → b.Renders t
  | .done, _, _, hb => nomatch hb
  | .cleanup body, h, b, hb => by
      rw [bodies, List.mem_singleton] at hb
      subst hb
      cases t
      all_goals
        obtain ⟨ls, h⟩ := h
        obtain ⟨inner, hinner, _⟩ := bind_eq_ok.1 h
        exact ⟨inner, hinner⟩
  | .handler arm body rest, h, b, hb => by
      have hparts : body.Renders t ∧ rest.Renders t := by
        cases t
        all_goals
          obtain ⟨ls, h⟩ := h
          obtain ⟨inner, hinner, h⟩ := bind_eq_ok.1 h
          obtain ⟨others, hothers, _⟩ := bind_eq_ok.1 h
          exact ⟨⟨inner, hinner⟩, others, hothers⟩
      rcases List.mem_cons.1 hb with rfl | hb
      · exact hparts.1
      · exact renders_of_mem_bodies hparts.2 hb

/-- The methods of a class that is written are written. -/
theorem Stmt.renders_methods {c : Class} {methods : List Function}
    (h : (Stmt.classDef c methods).Renders t) : Function.RenderAll methods t := by
  cases t
  all_goals
    obtain ⟨ls, h⟩ := h
    obtain ⟨_, _, h⟩ := bind_eq_ok.1 h
    obtain ⟨_, _, h⟩ := bind_eq_ok.1 h
    obtain ⟨ms, hms, _⟩ := bind_eq_ok.1 h
    exact ⟨ms, hms⟩

/-- The functions that a written statement defines are written. -/
theorem Stmt.renders_of_mem_functions {s : Stmt} (h : s.Renders t) {f : Function}
    (hf : f ∈ s.functions) : f.Renders t := by
  cases s with
  | function g =>
      rw [functions, List.mem_singleton] at hf
      subst hf
      cases t <;> exact h
  | classDef c methods =>
      exact forall_mem_of_cons (P := (Function.RenderAll · t)) Function.RenderAll.of_cons
        (renders_methods h) f hf
  | plain | conditional | forEach | forEntries | attempt | block => cases hf

/-- The bodies directly inside a written statement are written. -/
theorem Stmt.renders_of_mem_bodies {s : Stmt} (h : s.Renders t) {b : Body} (hb : b ∈ s.bodies) :
    b.Renders t := by
  cases s with
  | plain => cases hb
  | conditional test body branches =>
      have hparts : body.Renders t ∧ branches.Renders t := by
        cases t
        all_goals
          obtain ⟨ls, h⟩ := h
          obtain ⟨_, _, h⟩ := bind_eq_ok.1 h
          obtain ⟨inner, hinner, h⟩ := bind_eq_ok.1 h
          obtain ⟨others, hothers, _⟩ := bind_eq_ok.1 h
          exact ⟨⟨inner, hinner⟩, others, hothers⟩
      rcases List.mem_cons.1 hb with rfl | hb
      · exact hparts.1
      · exact Branches.renders_of_mem_bodies hparts.2 hb
  | forEach name iterable body | forEntries key value iterable body =>
      rw [bodies, List.mem_singleton] at hb
      subst hb
      cases t
      all_goals
        obtain ⟨ls, h⟩ := h
        obtain ⟨_, _, h⟩ := bind_eq_ok.1 h
        obtain ⟨inner, hinner, _⟩ := bind_eq_ok.1 h
        exact ⟨inner, hinner⟩
  | attempt body handlers =>
      have hparts : body.Renders t ∧ handlers.Renders t := by
        cases t with
        | python | php =>
            obtain ⟨ls, h⟩ := h
            obtain ⟨_, _, h⟩ := bind_eq_ok.1 h
            obtain ⟨inner, hinner, h⟩ := bind_eq_ok.1 h
            obtain ⟨others, hothers, _⟩ := bind_eq_ok.1 h
            exact ⟨⟨inner, hinner⟩, others, hothers⟩
        | typescript =>
            obtain ⟨ls, h⟩ := h
            obtain ⟨_, _, h⟩ := bind_eq_ok.1 h
            obtain ⟨_, _, h⟩ := bind_eq_ok.1 h
            obtain ⟨inner, hinner, h⟩ := bind_eq_ok.1 h
            obtain ⟨_, _, h⟩ := bind_eq_ok.1 h
            obtain ⟨others, hothers, _⟩ := bind_eq_ok.1 h
            exact ⟨⟨inner, hinner⟩, others, hothers⟩
      rcases List.mem_cons.1 hb with rfl | hb
      · exact hparts.1
      · exact Handlers.renders_of_mem_bodies hparts.2 hb
  | function f =>
      rw [bodies, List.mem_singleton] at hb
      subst hb
      exact Function.renders_body (renders_of_mem_functions h (List.mem_singleton_self f))
  | classDef c methods =>
      obtain ⟨f, hf, rfl⟩ := List.mem_map.1 hb
      exact Function.renders_body (renders_of_mem_functions h hf)
  | block body =>
      rw [bodies, List.mem_singleton] at hb
      subst hb
      cases t <;> exact h

end Polyglot
