import Polyglot.Proofs.Stmt.Parts

/-!
# Requirements of parts of statements

What a part of a statement needs in scope is among what the statement needs.

* `Body.needsOnly_of_mem` : the statements of a body.
* `Stmt.needsOnly_of_mem_bodies`, `Stmt.needsOnly_of_mem_functions` : the bodies and functions
  directly inside a statement.
* `Stmt.imports_subset_of_mem_exprs` : the expressions in the head of a statement.
-/

set_option autoImplicit false

namespace Polyglot

open Outcome

variable {t : Target} {is : List Import}

/-- The requirements of the body are known and lie in a given list. -/
def Body.NeedsOnly (b : Body) (t : Target) (is : List Import) : Prop :=
  ∃ own, b.needs t = .ok own ∧ own ⊆ is

/-- The requirements of the function are known and lie in a given list. -/
def Function.NeedsOnly (f : Function) (t : Target) (is : List Import) : Prop :=
  ∃ own, f.imports t = .ok own ∧ own ⊆ is

/-- The requirements of the functions are known and lie in a given list. -/
def Function.NeedOnly (fs : List Function) (t : Target) (is : List Import) : Prop :=
  ∃ own, Function.importsAll t fs = .ok own ∧ own ⊆ is

def Branches.NeedsOnly (bs : Branches) (t : Target) (is : List Import) : Prop :=
  ∃ own, bs.imports t = .ok own ∧ own ⊆ is

def Handlers.NeedsOnly (hs : Handlers) (t : Target) (is : List Import) : Prop :=
  ∃ own, hs.imports t = .ok own ∧ own ⊆ is

/-- The requirements of the statement are known and lie in a given list. -/
def Stmt.NeedsOnly (s : Stmt) (t : Target) (is : List Import) : Prop :=
  ∃ own, s.imports t = .ok own ∧ own ⊆ is

/-- The requirements of the statements are known and lie in a given list. -/
def Stmt.NeedOnly (ss : List Stmt) (t : Target) (is : List Import) : Prop :=
  ∃ own, Stmt.importsAll t ss = .ok own ∧ own ⊆ is

theorem Stmt.NeedOnly.of_cons {s : Stmt} {ss : List Stmt} (h : NeedOnly (s :: ss) t is) :
    s.NeedsOnly t is ∧ NeedOnly ss t is := by
  obtain ⟨own, h, hsub⟩ := h
  obtain ⟨here, hhere, h⟩ := bind_eq_ok.1 h
  obtain ⟨rest, hrest, h⟩ := bind_eq_ok.1 h
  cases pure_eq_ok.1 h
  obtain ⟨hl, hr⟩ := List.append_subset.1 hsub
  exact ⟨⟨here, hhere, hl⟩, rest, hrest, hr⟩

theorem Function.NeedOnly.of_cons {f : Function} {fs : List Function}
    (h : NeedOnly (f :: fs) t is) : f.NeedsOnly t is ∧ NeedOnly fs t is := by
  obtain ⟨own, h, hsub⟩ := h
  obtain ⟨here, hhere, h⟩ := bind_eq_ok.1 h
  obtain ⟨rest, hrest, h⟩ := bind_eq_ok.1 h
  cases pure_eq_ok.1 h
  obtain ⟨hl, hr⟩ := List.append_subset.1 hsub
  exact ⟨⟨here, hhere, hl⟩, rest, hrest, hr⟩

/-- A statement of a body needs no more than the body. -/
theorem Body.needsOnly_of_mem {b : Body} (h : b.NeedsOnly t is) {s : Stmt} (hs : s ∈ b.stmts) :
    s.NeedsOnly t is := by
  obtain ⟨requests, stmts⟩ := b
  obtain ⟨own, h, hsub⟩ := h
  obtain ⟨rest, hrest, h⟩ := bind_eq_ok.1 h
  cases pure_eq_ok.1 h
  have hall : Stmt.NeedOnly stmts t is := ⟨rest, hrest, (List.append_subset.1 hsub).2⟩
  exact forall_mem_of_cons (P := (Stmt.NeedOnly · t is)) Stmt.NeedOnly.of_cons hall s hs

/-- A signature and a body need no more than their function. -/
theorem Function.NeedsOnly.parts {f : Function} (h : f.NeedsOnly t is) :
    f.signature.imports t ⊆ is ∧ f.body.NeedsOnly t is := by
  obtain ⟨signature, body⟩ := f
  obtain ⟨own, h, hsub⟩ := h
  obtain ⟨inner, hinner, h⟩ := bind_eq_ok.1 h
  cases pure_eq_ok.1 h
  obtain ⟨hl, hr⟩ := List.append_subset.1 hsub
  exact ⟨hl, inner, hinner, hr⟩

theorem Branches.NeedsOnly.elseIf {test : Expr} {body : Body} {rest : Branches}
    (h : (Branches.elseIf test body rest).NeedsOnly t is) :
    test.imports t ⊆ is ∧ body.NeedsOnly t is ∧ rest.NeedsOnly t is := by
  obtain ⟨own, h, hsub⟩ := h
  obtain ⟨here, hhere, h⟩ := bind_eq_ok.1 h
  obtain ⟨there, hthere, h⟩ := bind_eq_ok.1 h
  cases pure_eq_ok.1 h
  obtain ⟨hl, hr⟩ := List.append_subset.1 hsub
  obtain ⟨htest, hbody⟩ := List.append_subset.1 hl
  exact ⟨htest, ⟨here, hhere, hbody⟩, there, hthere, hr⟩

theorem Handlers.NeedsOnly.handler {arm : Catch} {body : Body} {rest : Handlers}
    (h : (Handlers.handler arm body rest).NeedsOnly t is) :
    body.NeedsOnly t is ∧ rest.NeedsOnly t is := by
  obtain ⟨own, h, hsub⟩ := h
  obtain ⟨here, hhere, h⟩ := bind_eq_ok.1 h
  obtain ⟨there, hthere, h⟩ := bind_eq_ok.1 h
  cases pure_eq_ok.1 h
  obtain ⟨hl, hr⟩ := List.append_subset.1 hsub
  exact ⟨⟨here, hhere, hl⟩, there, hthere, hr⟩

theorem Branches.imports_subset_of_mem_tests : ∀ {bs : Branches}, bs.NeedsOnly t is →
    ∀ {e : Expr}, e ∈ bs.tests → e.imports t ⊆ is
  | .done, _, _, he | .otherwise _, _, _, he => nomatch he
  | .elseIf test body rest, h, e, he => by
      rcases List.mem_cons.1 he with rfl | he
      · exact h.elseIf.1
      · exact imports_subset_of_mem_tests h.elseIf.2.2 he

theorem Branches.needsOnly_of_mem_bodies : ∀ {bs : Branches}, bs.NeedsOnly t is →
    ∀ {b : Body}, b ∈ bs.bodies → b.NeedsOnly t is
  | .done, _, _, hb => nomatch hb
  | .otherwise body, h, b, hb => by
      rw [bodies, List.mem_singleton] at hb
      subst hb
      exact h
  | .elseIf test body rest, h, b, hb => by
      rcases List.mem_cons.1 hb with rfl | hb
      · exact h.elseIf.2.1
      · exact needsOnly_of_mem_bodies h.elseIf.2.2 hb

theorem Handlers.needsOnly_of_mem_bodies : ∀ {hs : Handlers}, hs.NeedsOnly t is →
    ∀ {b : Body}, b ∈ hs.bodies → b.NeedsOnly t is
  | .done, _, _, hb => nomatch hb
  | .cleanup body, h, b, hb => by
      rw [bodies, List.mem_singleton] at hb
      subst hb
      exact h
  | .handler arm body rest, h, b, hb => by
      rcases List.mem_cons.1 hb with rfl | hb
      · exact h.handler.1
      · exact needsOnly_of_mem_bodies h.handler.2 hb

theorem Stmt.NeedsOnly.conditional {test : Expr} {body : Body} {branches : Branches}
    (h : (Stmt.conditional test body branches).NeedsOnly t is) :
    test.imports t ⊆ is ∧ body.NeedsOnly t is ∧ branches.NeedsOnly t is := by
  obtain ⟨own, h, hsub⟩ := h
  obtain ⟨here, hhere, h⟩ := bind_eq_ok.1 h
  obtain ⟨there, hthere, h⟩ := bind_eq_ok.1 h
  cases pure_eq_ok.1 h
  obtain ⟨hl, hr⟩ := List.append_subset.1 hsub
  obtain ⟨htest, hbody⟩ := List.append_subset.1 hl
  exact ⟨htest, ⟨here, hhere, hbody⟩, there, hthere, hr⟩

theorem Stmt.NeedsOnly.forEach {name : String} {iterable : Expr} {body : Body}
    (h : (Stmt.forEach name iterable body).NeedsOnly t is) :
    iterable.imports t ⊆ is ∧ body.NeedsOnly t is := by
  obtain ⟨own, h, hsub⟩ := h
  obtain ⟨inner, hinner, h⟩ := bind_eq_ok.1 h
  cases pure_eq_ok.1 h
  obtain ⟨hl, hr⟩ := List.append_subset.1 hsub
  exact ⟨hl, inner, hinner, hr⟩

theorem Stmt.NeedsOnly.forEntries {key : Option String} {value : String} {iterable : Expr}
    {body : Body} (h : (Stmt.forEntries key value iterable body).NeedsOnly t is) :
    iterable.imports t ⊆ is ∧ body.NeedsOnly t is :=
  NeedsOnly.forEach (show (Stmt.forEach value iterable body).NeedsOnly t is from h)

theorem Stmt.NeedsOnly.attempt {body : Body} {handlers : Handlers}
    (h : (Stmt.attempt body handlers).NeedsOnly t is) :
    body.NeedsOnly t is ∧ handlers.NeedsOnly t is := by
  obtain ⟨own, h, hsub⟩ := h
  obtain ⟨here, hhere, h⟩ := bind_eq_ok.1 h
  obtain ⟨there, hthere, h⟩ := bind_eq_ok.1 h
  cases pure_eq_ok.1 h
  obtain ⟨hl, hr⟩ := List.append_subset.1 hsub
  exact ⟨⟨here, hhere, hl⟩, there, hthere, hr⟩

theorem Stmt.NeedsOnly.classDef {c : Class} {methods : List Function}
    (h : (Stmt.classDef c methods).NeedsOnly t is) :
    (∃ own, c.ownImports t = .ok own ∧ own ⊆ is) ∧ Function.NeedOnly methods t is := by
  obtain ⟨own, h, hsub⟩ := h
  obtain ⟨here, hhere, h⟩ := bind_eq_ok.1 h
  obtain ⟨there, hthere, h⟩ := bind_eq_ok.1 h
  cases pure_eq_ok.1 h
  obtain ⟨hl, hr⟩ := List.append_subset.1 hsub
  exact ⟨⟨here, hhere, hl⟩, there, hthere, hr⟩

/-- An expression in the head of a statement needs no more than the statement. -/
theorem Stmt.imports_subset_of_mem_exprs {s : Stmt} (h : s.NeedsOnly t is) {e : Expr}
    (he : e ∈ s.exprs) : e.imports t ⊆ is := by
  cases s with
  | plain | attempt | function | classDef | block => cases he
  | conditional test body branches =>
      rcases List.mem_cons.1 he with rfl | he
      · exact h.conditional.1
      · exact Branches.imports_subset_of_mem_tests h.conditional.2.2 he
  | forEach name iterable body =>
      rw [exprs, List.mem_singleton] at he
      subst he
      exact h.forEach.1
  | forEntries key value iterable body =>
      rw [exprs, List.mem_singleton] at he
      subst he
      exact h.forEntries.1

/-- A function that a statement defines needs no more than the statement. -/
theorem Stmt.needsOnly_of_mem_functions {s : Stmt} (h : s.NeedsOnly t is) {f : Function}
    (hf : f ∈ s.functions) : f.NeedsOnly t is := by
  cases s with
  | function g =>
      rw [functions, List.mem_singleton] at hf
      subst hf
      exact h
  | classDef c methods =>
      exact forall_mem_of_cons (P := (Function.NeedOnly · t is)) Function.NeedOnly.of_cons
        h.classDef.2 f hf
  | plain | conditional | forEach | forEntries | attempt | block => cases hf

/-- A body directly inside a statement needs no more than the statement. -/
theorem Stmt.needsOnly_of_mem_bodies {s : Stmt} (h : s.NeedsOnly t is) {b : Body}
    (hb : b ∈ s.bodies) : b.NeedsOnly t is := by
  cases s with
  | plain => cases hb
  | conditional test body branches =>
      rcases List.mem_cons.1 hb with rfl | hb
      · exact h.conditional.2.1
      · exact Branches.needsOnly_of_mem_bodies h.conditional.2.2 hb
  | forEach name iterable body =>
      rw [bodies, List.mem_singleton] at hb
      subst hb
      exact h.forEach.2
  | forEntries key value iterable body =>
      rw [bodies, List.mem_singleton] at hb
      subst hb
      exact h.forEntries.2
  | attempt body handlers =>
      rcases List.mem_cons.1 hb with rfl | hb
      · exact h.attempt.1
      · exact Handlers.needsOnly_of_mem_bodies h.attempt.2 hb
  | function f =>
      rw [bodies, List.mem_singleton] at hb
      subst hb
      exact (needsOnly_of_mem_functions h (List.mem_singleton_self f)).parts.2
  | classDef c methods =>
      obtain ⟨f, hf, rfl⟩ := List.mem_map.1 hb
      exact (needsOnly_of_mem_functions h hf).parts.2
  | block body =>
      rw [bodies, List.mem_singleton] at hb
      subst hb
      exact h

end Polyglot
