import Polyglot.Proofs.Blocks.Splice
import Polyglot.Proofs.Handlers.Dispatch
import Polyglot.Proofs.Layout.Around
import Polyglot.Proofs.Literals.Context
import Polyglot.Proofs.Stmt.Render
import Polyglot.Proofs.Uniform

/-!
# Statements around statements

A statement in which something is left open stands in another one. The lines of the inner statement
stand deeper in the lines of the outer one, and what is around them does not depend on what is left
open. In Python that is so if the inner statement is always code or never: a body without code is
filled up.

* `Stmt.Layer.uniform_toPython`, `Stmt.Layer.uniform_toTypeScript`, `Stmt.Layer.uniform_toPhp` : one
  statement around another one.
* `Stmt.uniform_within` : **statements around a statement, at any depth.**
-/

set_option autoImplicit false

namespace Polyglot

open Outcome

variable {ι : Type} {P : Nat → (ι → List Layout) → Prop} {n : Nat} {x : ι → Stmt}

/-- No body with a statement in it is refused for an abstract function's sake unless the function is
abstract. -/
theorem Body.Layer.isEmpty_stmts_fill (b : Body.Layer) (s : Stmt) :
    (b.fill s).stmts.isEmpty = false := by simp [fill]

/-- A `try` has handlers, whichever handlers stand in front of them. -/
theorem Handlers.check_behind {hs : Handlers} (h : hs.check = .ok ())
    (arms : List (Catch × Body)) : (behind arms hs).check = .ok () := by
  cases arms with
  | nil => exact h
  | cons arm arms => rfl

/-! ## Python -/

section Python

variable {code : Bool}

/-- A body around statements that are code or are not. -/
theorem Body.Layer.hasCode_fill (hcode : ∀ i, (x i).hasCode = code) (b : Body.Layer) (i : ι) :
    (b.fill (x i)).hasCode = (Stmt.anyCode b.before || (code || Stmt.anyCode b.after)) := by
  rw [fill, Body.hasCode, Stmt.anyCode_append, Stmt.anyCode, hcode]

theorem Body.Layer.uniform_toPython (hP : Layout.Kept P) (h : Uniform (P n) fun i => (x i).toPython)
    (b : Body.Layer) : Uniform (P n) fun i => (b.fill (x i)).toPython := by
  simp only [fill, Body.toPython, Stmt.toPythonAll_append, Stmt.toPythonAll]
  refine .const_bind _ fun before => .bind (P := P n) ?_ fun F hF => ?_
  · exact .bind h fun F hF => .const_bind _ fun after => .pure (hP.append_right hF after)
  · exact .pure (hP.append_left hF before)

/-- A body that stands one level deeper, behind a line and in front of others. -/
theorem Layout.Kept.suite (hP : Kept P) {F : ι → List Layout} (h : P n F) (line : Layout)
    (code : Bool) (ls : List Layout) :
    P (n + 1) fun i => line :: pythonSuite code (F i) :: ls := by
  cases code with
  | true => exact hP.between h line ls
  | false => exact hP.between (hP.append_right h [.line "pass"]) line ls

theorem Branches.uniform_behind_toPython (hP : Layout.Kept P) {y : ι → Branches}
    (h : Uniform (P n) fun i => (y i).toPython) (arms : List (Expr × Body)) :
    Uniform (P n) fun i => (behind arms (y i)).toPython := by
  induction arms with
  | nil => exact h
  | cons arm arms ih =>
      exact .const_bind _ fun t => .const_bind _ fun inner => .bind ih fun F hF =>
        .pure (hP.append_left hF [_, _])

theorem Handlers.uniform_behind_toPython (hP : Layout.Kept P) {y : ι → Handlers}
    (h : Uniform (P n) fun i => (y i).toPython) (arms : List (Catch × Body)) :
    Uniform (P n) fun i => (behind arms (y i)).toPython := by
  induction arms with
  | nil => exact h
  | cons arm arms ih =>
      exact .const_bind _ fun inner => .bind ih fun F hF => .pure (hP.append_left hF [_, _])

/-- A function around statements; an abstract function has no statements. -/
theorem Function.uniform_toPython (hP : Layout.Kept P) (h : Uniform (P n) fun i => (x i).toPython)
    (hcode : ∀ i, (x i).hasCode = code) (signature : Signature) (b : Body.Layer) :
    Uniform (P (n + 1)) fun i => (Function.mk signature (b.fill (x i))).toPython := by
  simp only [toPython, b.isEmpty_stmts_fill, b.hasCode_fill hcode, Signature.pythonSuite]
  exact .const_bind _ fun _ => .const_bind _ fun overloads => .const_bind _ fun head =>
    .bind (b.uniform_toPython hP h) fun F hF => .pure <|
      hP.append_left (hP.nest (hP.append_right (hP.append_left hF _) _)) _

theorem Function.toPythonAll_eq_mapM (fs : List Function) : toPythonAll fs = fs.mapM toPython := by
  induction fs with
  | nil => rfl
  | cons f fs ih => rw [toPythonAll, List.mapM_cons, ih]

/-- A function has at least the line of its name. -/
theorem Function.toPython_ne_nil {f : Function} {ls : List Layout} (h : f.toPython = .ok ls) :
    ls ≠ [] := by
  obtain ⟨signature, body⟩ := f
  obtain ⟨_, _, h⟩ := bind_eq_ok.1 h
  obtain ⟨overloads, _, h⟩ := bind_eq_ok.1 h
  obtain ⟨head, _, h⟩ := bind_eq_ok.1 h
  obtain ⟨inner, _, h⟩ := bind_eq_ok.1 h
  cases pure_eq_ok.1 h
  simp

/-- A conditional with the statements in one of its arms behind the first. -/
theorem Stmt.uniform_conditional_toPython (hP : Layout.Kept P) {y : ι → Branches}
    (h : Uniform (P n) fun i => (y i).toPython) (test : Expr) (body : Body)
    (arms : List (Expr × Body)) :
    Uniform (P n) fun i => (conditional test body (.behind arms (y i))).toPython :=
  .const_bind _ fun _ => .const_bind _ fun _ =>
    .bind (Branches.uniform_behind_toPython hP h arms) fun _ hF =>
      .pure (hP.append_left (hP.append_right hF _) [_, _])

/-- A `try` with the statements in one of its arms. -/
theorem Stmt.uniform_attempt_toPython (hP : Layout.Kept P) {y : ι → Handlers}
    (h : Uniform (P n) fun i => (y i).toPython) (hcheck : ∀ i, (y i).check = .ok ()) (body : Body)
    (arms : List (Catch × Body)) :
    Uniform (P n) fun i => (attempt body (.behind arms (y i))).toPython := by
  have hbehind (i : ι) := Handlers.check_behind (hcheck i) arms
  simp only [toPython, hbehind, ok_bind]
  exact .const_bind _ fun _ => .bind (Handlers.uniform_behind_toPython hP h arms) fun _ hF =>
    .pure (hP.append_left hF [_, _])

/-- A class around a method in which something is left open. -/
theorem Stmt.uniform_method_toPython (hP : Layout.Kept P) {f : ι → Function}
    (h : Uniform (P n) fun i => (f i).toPython) (c : Class) (before after : List Function) :
    Uniform (P (n + 1)) fun i => (classDef c (before ++ f i :: after)).toPython := by
  have hmethod := h.with fun _ _ hls => Function.toPython_ne_nil hls
  simp only [toPython, Function.toPythonAll_eq_mapM]
  refine .const_bind _ fun properties => .const_bind _ fun constructor =>
    .bind (hmethod.mapM before after) fun ms hms => .pure ?_
  obtain ⟨pre, F, post, ⟨hF, hne⟩, hms⟩ := hms
  -- The method is a member, so there is nothing to fill up.
  have hmembers (i : ι) : (Layout.docString c.docstring ++ properties ++ constructor ++
      (pre ++ F i :: post).flatten).isEmpty = false := by
    simp [hne i]
  simp only [hms, hmembers]
  exact hP.append_left (hP.append_right (hP.nest (hP.append_right (hP.append_right
    (hP.append_left (hP.flatten hF pre post) _) _) _)) [.blank]) _

/-- One statement around statements, in Python. -/
theorem Stmt.Layer.uniform_toPython (hP : Layout.Kept P) (h : Uniform (P n) fun i => (x i).toPython)
    (hcode : ∀ i, (x i).hasCode = code) (layer : Layer) :
    Uniform (P (n + layer.depth)) fun i => (layer.fill (x i)).toPython := by
  cases layer with
  | conditional test body branches =>
      simp only [fill, Stmt.toPython, body.hasCode_fill hcode]
      exact .const_bind _ fun t => .bind (body.uniform_toPython hP h) fun F hF =>
        .const_bind _ fun others => .pure (hP.suite hF _ _ _)
  | elseIf test body arms armTest armBody rest =>
      refine uniform_conditional_toPython hP ?_ test body arms
      simp only [Branches.toPython, armBody.hasCode_fill hcode]
      exact .const_bind _ fun t => .bind (armBody.uniform_toPython hP h) fun F hF =>
        .const_bind _ fun others => .pure (hP.suite hF _ _ _)
  | otherwise test body arms last =>
      refine uniform_conditional_toPython hP ?_ test body arms
      simp only [Branches.toPython, last.hasCode_fill hcode]
      exact .bind (last.uniform_toPython hP h) fun F hF => .pure (hP.suite hF _ _ _)
  | forEach name iterable body =>
      simp only [fill, Stmt.toPython, body.hasCode_fill hcode]
      exact .const_bind _ fun t => .bind (body.uniform_toPython hP h) fun F hF =>
        .pure (hP.suite hF _ _ _)
  | forEntries key value iterable body =>
      simp only [fill, Stmt.toPython, body.hasCode_fill hcode]
      exact .const_bind _ fun t => .bind (body.uniform_toPython hP h) fun F hF =>
        .pure (hP.suite hF _ _ _)
  | attempt body handlers =>
      simp only [fill, Stmt.toPython, body.hasCode_fill hcode]
      exact .const_bind _ fun _ => .bind (body.uniform_toPython hP h) fun F hF =>
        .const_bind _ fun others => .pure (hP.suite hF _ _ _)
  | handler body arms arm armBody rest =>
      refine uniform_attempt_toPython hP ?_ (fun _ => rfl) body arms
      simp only [Handlers.toPython, armBody.hasCode_fill hcode]
      exact .bind (armBody.uniform_toPython hP h) fun F hF => .const_bind _ fun others =>
        .pure (hP.suite hF _ _ _)
  | cleanup body arms last =>
      refine uniform_attempt_toPython hP ?_ (fun _ => rfl) body arms
      simp only [Handlers.toPython, last.hasCode_fill hcode]
      exact .bind (last.uniform_toPython hP h) fun F hF => .pure (hP.suite hF _ _ _)
  | function signature body => exact Function.uniform_toPython hP h hcode signature body
  | method c before signature body after =>
      have hmethod := Function.uniform_toPython hP h hcode signature body
      exact uniform_method_toPython hP hmethod c before after
  | block body => exact body.uniform_toPython hP h

end Python

/-! ## TypeScript -/

section TypeScript

theorem Body.Layer.uniform_toTypeScript (hP : Layout.Kept P)
    (h : Uniform (P n) fun i => (x i).toTypeScript) (b : Body.Layer) :
    Uniform (P n) fun i => (b.fill (x i)).toTypeScript := by
  simp only [fill, Body.toTypeScript, Stmt.toTypeScriptAll_append, Stmt.toTypeScriptAll]
  refine .const_bind _ fun before => .bind (P := P n) ?_ fun F hF => ?_
  · exact .bind h fun F hF => .const_bind _ fun after => .pure (hP.append_right hF after)
  · exact .pure (hP.append_left hF before)

theorem Branches.uniform_behind_toTypeScript (hP : Layout.Kept P) {y : ι → Branches}
    (h : Uniform (P n) fun i => (y i).toTypeScript) (arms : List (Expr × Body)) :
    Uniform (P n) fun i => (behind arms (y i)).toTypeScript := by
  induction arms with
  | nil => exact h
  | cons arm arms ih =>
      exact .const_bind _ fun t => .const_bind _ fun inner => .bind ih fun F hF =>
        .pure (hP.append_left hF [_, _])

/-- A function around statements; an abstract function has no statements. -/
theorem Function.uniform_toTypeScript (hP : Layout.Kept P)
    (h : Uniform (P n) fun i => (x i).toTypeScript) (signature : Signature) (b : Body.Layer) :
    Uniform (P (n + 1)) fun i => (Function.mk signature (b.fill (x i))).toTypeScript := by
  simp only [toTypeScript, b.isEmpty_stmts_fill, Signature.checkBody, Signature.bracedBody]
  cases signature.isAbstract with
  | true => exact .error _
  | false =>
      exact .const_bind _ fun _ => .const_bind _ fun head =>
        .bind (b.uniform_toTypeScript hP h) fun F hF =>
          .pure (hP.append_left (hP.append_right (hP.nest hF) [.line "\x7d"]) head)

theorem Function.toTypeScriptAll_eq_mapM (fs : List Function) :
    toTypeScriptAll fs = fs.mapM toTypeScript := by
  induction fs with
  | nil => rfl
  | cons f fs ih => rw [toTypeScriptAll, List.mapM_cons, ih]

/-- A conditional with the statements in one of its arms behind the first. -/
theorem Stmt.uniform_conditional_toTypeScript (hP : Layout.Kept P) {y : ι → Branches}
    (h : Uniform (P n) fun i => (y i).toTypeScript) (test : Expr) (body : Body)
    (arms : List (Expr × Body)) :
    Uniform (P n) fun i => (conditional test body (.behind arms (y i))).toTypeScript :=
  .const_bind _ fun _ => .const_bind _ fun _ =>
    .bind (Branches.uniform_behind_toTypeScript hP h arms) fun _ hF =>
      .pure (hP.append_left (hP.append_right hF _) [_, _])

/-- The bodies of handlers and what runs in any case, with the statements in one of the bodies
behind some handlers. -/
def Handlers.AtBody (P : Nat → (ι → List Layout) → Prop) (n place : Nat)
    (g : ι → List (List Layout) × List Layout) : Prop :=
  ∃ pre F post cleanup, P n F ∧ pre.length = place ∧ ∀ i, g i = (pre ++ F i :: post, cleanup)

theorem Handlers.uniform_behind_handler (hP : Layout.Kept P)
    (h : Uniform (P n) fun i => (x i).toTypeScript) (arm : Catch) (b : Body.Layer)
    (rest : Handlers) (arms : List (Catch × Body)) :
    Uniform (AtBody P n arms.length) fun i =>
      (behind arms (.handler arm (b.fill (x i)) rest)).toTypeScript := by
  induction arms with
  | nil =>
      exact .bind (b.uniform_toTypeScript hP h) fun F hF => .const_bind _ fun others =>
        .pure ⟨[], F, others.1, others.2, hF, rfl, fun _ => rfl⟩
  | cons first arms ih =>
      refine .const_bind _ fun inner => .bind ih fun g hg => .pure ?_
      obtain ⟨pre, F, post, cleanup, hF, hlength, hg⟩ := hg
      refine ⟨inner :: pre, F, post, cleanup, hF, by simp [hlength], fun i => ?_⟩
      simp only [hg i, List.cons_append]

theorem Handlers.uniform_behind_cleanup (hP : Layout.Kept P)
    (h : Uniform (P n) fun i => (x i).toTypeScript) (b : Body.Layer) (arms : List (Catch × Body)) :
    Uniform (fun g => ∃ bodies F, P (n + 1) F ∧ ∀ i, g i = (bodies, F i)) fun i =>
      (behind arms (.cleanup (b.fill (x i)))).toTypeScript := by
  induction arms with
  | nil =>
      exact .bind (b.uniform_toTypeScript hP h) fun F hF =>
        .pure ⟨[], _, hP.between hF _ [], fun _ => rfl⟩
  | cons first arms ih =>
      refine .const_bind _ fun inner => .bind ih fun g hg => .pure ?_
      obtain ⟨bodies, F, hF, hg⟩ := hg
      refine ⟨inner :: bodies, F, hF, fun i => ?_⟩
      simp only [hg i]

/-- The body of a handler among the tests, if there are tests for the handlers before it. -/
theorem CatchClause.kept_tests (hP : Layout.Kept P) {F : ι → List Layout} (hF : P n F)
    (var : String) (post : List (List Layout)) :
    ∀ (pre : List (List Layout)) (names : List String) (keyword : String),
      pre.length ≤ names.length →
        P (n + 1) fun i => tests var keyword names (pre ++ F i :: post)
  | [], [], _, _ => hP.between hF _ _
  | [], _ :: _, _, _ => hP.between hF _ _
  | _ :: pre, _ :: names, _, hlength =>
      hP.append_left
        (kept_tests hP hF var post pre names _ (Nat.le_of_succ_le_succ hlength)) [_, _]

/-- Accepted handlers have a test each, but for the last one. -/
theorem Dispatch.le_length_classes {d : Dispatch} {arms : List Catch} {place : Nat}
    (h : ofCatches arms = .ok d) (hplace : place < arms.length) :
    place ≤ d.classes.length ∧ (d.classes = [] → d.catchesAll = true) := by
  have hlength := congrArg List.length (of_ofCatches h).2
  rw [tested, List.length_append, List.length_map, List.length_replicate, List.length_map]
    at hlength
  have hbool : d.catchesAll.toNat ≤ 1 := Bool.toNat_le d.catchesAll
  refine ⟨by omega, fun hnil => ?_⟩
  rw [hnil, List.length_nil] at hlength
  cases hall : d.catchesAll with
  | true => rfl
  | false =>
      rw [hall, Bool.toNat_false] at hlength
      omega

/-- How much deeper the bodies of the handlers stand in the clause: once more behind tests. -/
def CatchClause.depth : CatchClause → Nat
  | .absent | .single _ => 1
  | .chain _ _ => 2

/-- The body of a handler in the clause: in a clause of its own, or among the tests. -/
theorem CatchClause.kept_toTypeScript (hP : Layout.Kept P) {F : ι → List Layout} (hF : P n F)
    {arms : List Catch} {d : Dispatch} (hd : Dispatch.ofCatches arms = .ok d)
    {clause : CatchClause} (hclause : d.clause = .ok clause) {pre : List (List Layout)}
    (hplace : pre.length < arms.length) (post : List (List Layout)) :
    P (n + clause.depth) fun i => clause.toTypeScript (pre ++ F i :: post) := by
  obtain ⟨hle, hall⟩ := Dispatch.le_length_classes hd hplace
  obtain ⟨var, classes, catchesAll⟩ := d
  cases classes with
  | nil =>
      cases hall rfl
      cases hclause
      cases var <;> exact hP.append_left (hP.nest (hP.flatten hF pre post)) [_]
  | cons name names =>
      cases var with
      | none => cases hclause
      | some var =>
          cases hclause
          exact hP.append_left (hP.nest (kept_tests hP hF var post pre _ "" hle)) [_]

theorem Handlers.catches_behind (arms : List (Catch × Body)) (hs : Handlers) :
    (behind arms hs).catches = arms.map Prod.fst ++ hs.catches := by
  induction arms with
  | nil => rfl
  | cons arm arms ih =>
      rw [List.map_cons, List.cons_append, ← ih]
      rfl

/-- A class around a method in which something is left open. -/
theorem Stmt.uniform_method_toTypeScript (hP : Layout.Kept P) {f : ι → Function}
    (h : Uniform (P n) fun i => (f i).toTypeScript) (c : Class) (before after : List Function) :
    Uniform (P (n + 1)) fun i => (classDef c (before ++ f i :: after)).toTypeScript := by
  simp only [toTypeScript, Function.toTypeScriptAll_eq_mapM]
  refine .const_bind _ fun properties => .const_bind _ fun constructor =>
    .bind (h.mapM before after) fun ms hms => .pure ?_
  obtain ⟨pre, F, post, hF, hms⟩ := hms
  have hmembers := hP.append_right (hP.append_left
    (hP.spaced hF (!c.properties.isEmpty) (constructor ++ pre) post) properties.flatten)
      (c.remarks.map fun r => .line ("// " ++ r))
  simp only [hms, ← List.append_assoc]
  exact hP.append_left (hP.between hmembers (.line c.typeScriptHead) [.line "\x7d"])
    (Layout.docBlock c.docstring)

/-- One statement around statements, in TypeScript. The body of a handler stands deeper where there
are tests. -/
theorem Stmt.Layer.uniform_toTypeScript (hP : Layout.Kept P)
    (h : Uniform (P n) fun i => (x i).toTypeScript) (layer : Layer) :
    ∃ m, Uniform (P m) fun i => (layer.fill (x i)).toTypeScript := by
  cases layer with
  | conditional test body branches =>
      exact ⟨n + 1, .const_bind _ fun t => .bind (body.uniform_toTypeScript hP h) fun F hF =>
        .const_bind _ fun others => .pure (hP.between hF _ _)⟩
  | elseIf test body arms armTest armBody rest =>
      refine ⟨n + 1, uniform_conditional_toTypeScript hP ?_ test body arms⟩
      exact .const_bind _ fun t => .bind (armBody.uniform_toTypeScript hP h) fun F hF =>
        .const_bind _ fun others => .pure (hP.between hF _ _)
  | otherwise test body arms last =>
      refine ⟨n + 1, uniform_conditional_toTypeScript hP ?_ test body arms⟩
      exact .bind (last.uniform_toTypeScript hP h) fun F hF => .pure (hP.between hF _ _)
  | forEach name iterable body =>
      exact ⟨n + 1, .const_bind _ fun t => .bind (body.uniform_toTypeScript hP h) fun F hF =>
        .pure (hP.between hF _ _)⟩
  | forEntries key value iterable body =>
      exact ⟨n + 1, .const_bind _ fun t => .bind (body.uniform_toTypeScript hP h) fun F hF =>
        .pure (hP.between hF _ _)⟩
  | attempt body handlers =>
      exact ⟨n + 1, .const_bind _ fun _ => .const_bind _ fun _ =>
        .bind (body.uniform_toTypeScript hP h) fun F hF => .const_bind _ fun _ =>
          .const_bind _ fun others => .pure (hP.between hF _ _)⟩
  | handler body arms arm armBody rest =>
      have hcheck (i : ι) : (Handlers.behind arms (.handler arm (armBody.fill (x i)) rest)).check =
          .ok () := Handlers.check_behind rfl arms
      simp only [fill, Stmt.toTypeScript, hcheck, ok_bind, Handlers.catches_behind,
        Handlers.catches]
      cases hd : Dispatch.ofCatches (arms.map Prod.fst ++ arm :: rest.catches) with
      | error e => exact ⟨0, .error e⟩
      | ok d =>
          simp only [ok_bind]
          cases hclause : d.clause with
          | error e => exact ⟨0, .const_bind _ fun _ => .error e⟩
          | ok clause =>
              simp only [ok_bind]
              refine ⟨n + clause.depth, .const_bind _ fun inner =>
                .bind (Handlers.uniform_behind_handler hP h arm armBody rest arms)
                  fun g hg => .pure ?_⟩
              obtain ⟨pre, F, post, cleanup, hF, hlength, hg⟩ := hg
              have hplace : pre.length < (arms.map Prod.fst ++ arm :: rest.catches).length := by
                simp [hlength]
              have hbody := CatchClause.kept_toTypeScript hP hF hd hclause hplace post
              simp only [hg]
              exact hP.append_left (hP.append_right (hP.append_right hbody cleanup) _) [_, _]
  | cleanup body arms last =>
      have hcheck (i : ι) : (Handlers.behind arms (.cleanup (last.fill (x i)))).check = .ok () :=
        Handlers.check_behind rfl arms
      simp only [fill, Stmt.toTypeScript, hcheck, ok_bind, Handlers.catches_behind,
        Handlers.catches]
      refine ⟨n + 1, .const_bind _ fun dispatch => .const_bind _ fun inner =>
        .const_bind _ fun clause => .bind (Handlers.uniform_behind_cleanup hP h last arms)
          fun g hg => .pure ?_⟩
      obtain ⟨bodies, F, hF, hg⟩ := hg
      simp only [hg]
      exact hP.append_left (hP.append_right (hP.append_left hF _) _) [_, _]
  | function signature body => exact ⟨n + 1, Function.uniform_toTypeScript hP h signature body⟩
  | method c before signature body after =>
      exact ⟨n + 1 + 1, uniform_method_toTypeScript hP
        (Function.uniform_toTypeScript hP h signature body) c before after⟩
  | block body => exact ⟨n, body.uniform_toTypeScript hP h⟩

end TypeScript

/-! ## PHP -/

section Php

theorem Body.Layer.uniform_toPhp (hP : Layout.Kept P) (h : Uniform (P n) fun i => (x i).toPhp)
    (b : Body.Layer) : Uniform (P n) fun i => (b.fill (x i)).toPhp := by
  simp only [fill, Body.toPhp, Stmt.toPhpAll_append, Stmt.toPhpAll]
  refine .const_bind _ fun before => .bind (P := P n) ?_ fun F hF => ?_
  · exact .bind h fun F hF => .const_bind _ fun after => .pure (hP.append_right hF after)
  · exact .pure (hP.append_left hF before)

theorem Branches.uniform_behind_toPhp (hP : Layout.Kept P) {y : ι → Branches}
    (h : Uniform (P n) fun i => (y i).toPhp) (arms : List (Expr × Body)) :
    Uniform (P n) fun i => (behind arms (y i)).toPhp := by
  induction arms with
  | nil => exact h
  | cons arm arms ih =>
      exact .const_bind _ fun t => .const_bind _ fun inner => .bind ih fun F hF =>
        .pure (hP.append_left hF [_, _])

theorem Handlers.uniform_behind_toPhp (hP : Layout.Kept P) {y : ι → Handlers}
    (h : Uniform (P n) fun i => (y i).toPhp) (arms : List (Catch × Body)) :
    Uniform (P n) fun i => (behind arms (y i)).toPhp := by
  induction arms with
  | nil => exact h
  | cons arm arms ih =>
      exact .const_bind _ fun inner => .bind ih fun F hF => .pure (hP.append_left hF [_, _])

theorem Function.toPhpAll_eq_mapM (fs : List Function) : toPhpAll fs = fs.mapM toPhp := by
  induction fs with
  | nil => rfl
  | cons f fs ih => rw [toPhpAll, List.mapM_cons, ih]

/-- A function around statements; an abstract function has no statements. -/
theorem Function.uniform_toPhp (hP : Layout.Kept P) (h : Uniform (P n) fun i => (x i).toPhp)
    (signature : Signature) (b : Body.Layer) :
    Uniform (P (n + 1)) fun i => (Function.mk signature (b.fill (x i))).toPhp := by
  simp only [toPhp, b.isEmpty_stmts_fill, Signature.checkBody, Signature.bracedBody]
  cases signature.isAbstract with
  | true => exact .error _
  | false =>
      exact .const_bind _ fun _ => .const_bind _ fun head =>
        .bind (b.uniform_toPhp hP h) fun F hF =>
          .pure (hP.append_left (hP.append_right (hP.nest hF) [.line "\x7d"]) head)

/-- A conditional with the statements in one of its arms behind the first. -/
theorem Stmt.uniform_conditional_toPhp (hP : Layout.Kept P) {y : ι → Branches}
    (h : Uniform (P n) fun i => (y i).toPhp) (test : Expr) (body : Body)
    (arms : List (Expr × Body)) :
    Uniform (P n) fun i => (conditional test body (.behind arms (y i))).toPhp :=
  .const_bind _ fun _ => .const_bind _ fun _ =>
    .bind (Branches.uniform_behind_toPhp hP h arms) fun _ hF =>
      .pure (hP.append_left (hP.append_right hF _) [_, _])

/-- A `try` with the statements in one of its arms. -/
theorem Stmt.uniform_attempt_toPhp (hP : Layout.Kept P) {y : ι → Handlers}
    (h : Uniform (P n) fun i => (y i).toPhp) (hcheck : ∀ i, (y i).check = .ok ()) (body : Body)
    (arms : List (Catch × Body)) :
    Uniform (P n) fun i => (attempt body (.behind arms (y i))).toPhp := by
  have hbehind (i : ι) := Handlers.check_behind (hcheck i) arms
  simp only [toPhp, hbehind, ok_bind]
  exact .const_bind _ fun _ => .bind (Handlers.uniform_behind_toPhp hP h arms) fun _ hF =>
    .pure (hP.append_left (hP.append_right hF _) [_, _])

/-- A class around a method in which something is left open. -/
theorem Stmt.uniform_method_toPhp (hP : Layout.Kept P) {f : ι → Function}
    (h : Uniform (P n) fun i => (f i).toPhp) (c : Class) (before after : List Function) :
    Uniform (P (n + 1)) fun i => (classDef c (before ++ f i :: after)).toPhp := by
  simp only [toPhp, Function.toPhpAll_eq_mapM]
  refine .const_bind _ fun properties => .const_bind _ fun constructor =>
    .bind (h.mapM before after) fun ms hms => .pure ?_
  obtain ⟨pre, F, post, hF, hms⟩ := hms
  have hmembers := hP.append_right (hP.append_left
    (hP.spaced hF (!c.properties.isEmpty) (constructor ++ pre) post) properties.flatten)
      (c.remarks.map fun r => .line ("// " ++ r))
  simp only [hms, ← List.append_assoc]
  exact hP.append_left (hP.between hmembers (.line c.phpHead) [.line "\x7d"])
    (Layout.docBlock c.docstring)

/-- One statement around statements, in PHP. -/
theorem Stmt.Layer.uniform_toPhp (hP : Layout.Kept P) (h : Uniform (P n) fun i => (x i).toPhp)
    (layer : Layer) : Uniform (P (n + layer.depth)) fun i => (layer.fill (x i)).toPhp := by
  cases layer with
  | conditional test body branches =>
      exact .const_bind _ fun t => .bind (body.uniform_toPhp hP h) fun F hF =>
        .const_bind _ fun others => .pure (hP.between hF _ _)
  | elseIf test body arms armTest armBody rest =>
      refine uniform_conditional_toPhp hP ?_ test body arms
      exact .const_bind _ fun t => .bind (armBody.uniform_toPhp hP h) fun F hF =>
        .const_bind _ fun others => .pure (hP.between hF _ _)
  | otherwise test body arms last =>
      refine uniform_conditional_toPhp hP ?_ test body arms
      exact .bind (last.uniform_toPhp hP h) fun F hF => .pure (hP.between hF _ _)
  | forEach name iterable body =>
      exact .const_bind _ fun i => .bind (body.uniform_toPhp hP h) fun F hF =>
        .pure (hP.between hF _ _)
  | forEntries key value iterable body =>
      exact .const_bind _ fun i => .bind (body.uniform_toPhp hP h) fun F hF =>
        .pure (hP.between hF _ _)
  | attempt body handlers =>
      exact .const_bind _ fun _ => .bind (body.uniform_toPhp hP h) fun F hF =>
        .const_bind _ fun others => .pure (hP.between hF _ _)
  | handler body arms arm armBody rest =>
      refine uniform_attempt_toPhp hP ?_ (fun _ => rfl) body arms
      exact .bind (armBody.uniform_toPhp hP h) fun F hF => .const_bind _ fun others =>
        .pure (hP.between hF _ _)
  | cleanup body arms last =>
      refine uniform_attempt_toPhp hP ?_ (fun _ => rfl) body arms
      exact .bind (last.uniform_toPhp hP h) fun F hF => .pure (hP.between hF _ _)
  | function signature body => exact Function.uniform_toPhp hP h signature body
  | method c before signature body after =>
      exact uniform_method_toPhp hP (Function.uniform_toPhp hP h signature body) c before after
  | block body => exact body.uniform_toPhp hP h

end Php

/-! ## Any language -/

namespace Stmt

/-- The statement inside of others, the outermost of them first. -/
def within (layers : List Layer) (s : Stmt) : Stmt :=
  layers.foldr (fun layer inner => layer.fill inner) s

/-- A statement around statements that are always code, or never, is always code or never. -/
theorem Layer.exists_hasCode {code : Bool} (hcode : ∀ i, (x i).hasCode = code) (layer : Layer) :
    ∃ code, ∀ i, (layer.fill (x i)).hasCode = code := by
  cases layer with
  | block body => exact ⟨_, body.hasCode_fill hcode⟩
  | _ => exact ⟨true, fun _ => rfl⟩

/-- **Statements around a statement** in which something is left open, in any language. Either none
of them can be written, or all are written with the lines of the inner statement so many levels
deeper. -/
theorem uniform_within (hP : Layout.Kept P) {t : Target}
    (h : Uniform (P n) fun i => (x i).layout t) {code : Bool} (hcode : ∀ i, (x i).hasCode = code)
    (layers : List Layer) :
    ∃ m, Uniform (P m) fun i => (within layers (x i)).layout t := by
  -- The outer statement of the layers so far is one of which nothing else has to be known.
  have hboth : (∃ m, Uniform (P m) fun i => (within layers (x i)).layout t) ∧
      ∃ code, ∀ i, (within layers (x i)).hasCode = code := by
    induction layers with
    | nil => exact ⟨⟨n, h⟩, code, hcode⟩
    | cons layer layers ih =>
        obtain ⟨⟨m, hm⟩, code, hcode⟩ := ih
        refine ⟨?_, layer.exists_hasCode hcode⟩
        cases t with
        | python => exact ⟨_, layer.uniform_toPython hP hm hcode⟩
        | typescript => exact layer.uniform_toTypeScript hP hm
        | php => exact ⟨_, layer.uniform_toPhp hP hm⟩
  exact hboth.1

end Stmt

end Polyglot
