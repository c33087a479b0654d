import Polyglot.Proofs.Stmt.Around
import Polyglot.Proofs.Writer.Script

/-!
# Scripts around statements

A statement in which something is left open stands in a script, at any depth. What the script needs
in scope does not depend on what is left open if the needs of the statement do not, and so the file
around the lines of the statement is always the same.

* `Script.within` : a script with a statement in it.
* `Stmt.imports_within` : the needs of a statement inside of others.
* `Script.write_within` : **the file around the lines of a statement.**
-/

set_option autoImplicit false

namespace Polyglot

open Outcome Text

/-! ## What is needed -/

section Needs

variable {t : Target} {s s' : Stmt}

theorem Function.importsAll_append (t : Target) (fs fs' : List Function) :
    importsAll t (fs ++ fs') = (do
      let here ← importsAll t fs
      let rest ← importsAll t fs'
      return here ++ rest) :=
  collect_append (imports t) (importsAll t) rfl (fun _ _ => rfl) fs fs'

/-- A body needs the same around statements that need the same. -/
theorem Body.Layer.needs_fill (h : s.imports t = s'.imports t) (b : Body.Layer) :
    (b.fill s).needs t = (b.fill s').needs t := by
  simp only [fill, needs, Stmt.importsAll_append, Stmt.importsAll, h]

theorem Branches.imports_behind {bs bs' : Branches} (h : bs.imports t = bs'.imports t)
    (arms : List (Expr × Body)) : (behind arms bs).imports t = (behind arms bs').imports t := by
  induction arms with
  | nil => exact h
  | cons arm arms ih =>
      simp only [behind, List.foldr_cons, imports] at ih ⊢
      rw [ih]

theorem Handlers.imports_behind {hs hs' : Handlers} (h : hs.imports t = hs'.imports t)
    (arms : List (Catch × Body)) : (behind arms hs).imports t = (behind arms hs').imports t := by
  induction arms with
  | nil => exact h
  | cons arm arms ih =>
      simp only [behind, List.foldr_cons, imports] at ih ⊢
      rw [ih]

/-- One statement needs the same around statements that need the same. -/
theorem Stmt.Layer.imports_fill (h : s.imports t = s'.imports t) (layer : Layer) :
    (layer.fill s).imports t = (layer.fill s').imports t := by
  cases layer with
  | conditional test body branches =>
      simp only [fill, Stmt.imports, body.needs_fill h]
  | elseIf test body arms armTest armBody rest =>
      have harm : (Branches.elseIf armTest (armBody.fill s) rest).imports t =
          (Branches.elseIf armTest (armBody.fill s') rest).imports t := by
        simp only [Branches.imports, armBody.needs_fill h]
      simp only [fill, Stmt.imports, Branches.imports_behind harm arms]
  | otherwise test body arms last =>
      have harm : (Branches.otherwise (last.fill s)).imports t =
          (Branches.otherwise (last.fill s')).imports t := last.needs_fill h
      simp only [fill, Stmt.imports, Branches.imports_behind harm arms]
  | forEach name iterable body | forEntries key value iterable body =>
      simp only [fill, Stmt.imports, body.needs_fill h]
  | attempt body handlers =>
      simp only [fill, Stmt.imports, body.needs_fill h]
  | handler body arms arm armBody rest =>
      have harm : (Handlers.handler arm (armBody.fill s) rest).imports t =
          (Handlers.handler arm (armBody.fill s') rest).imports t := by
        simp only [Handlers.imports, armBody.needs_fill h]
      simp only [fill, Stmt.imports, Handlers.imports_behind harm arms]
  | cleanup body arms last =>
      have harm : (Handlers.cleanup (last.fill s)).imports t =
          (Handlers.cleanup (last.fill s')).imports t := last.needs_fill h
      simp only [fill, Stmt.imports, Handlers.imports_behind harm arms]
  | function signature body =>
      simp only [fill, Stmt.imports, Function.imports, body.needs_fill h]
  | method c before signature body after =>
      simp only [fill, Stmt.imports, Function.importsAll_append, Function.importsAll,
        Function.imports, body.needs_fill h]
  | block body => exact body.needs_fill h

theorem Stmt.imports_within (h : s.imports t = s'.imports t) (layers : List Layer) :
    (within layers s).imports t = (within layers s').imports t := by
  induction layers with
  | nil => exact h
  | cons layer layers ih => exact layer.imports_fill ih

end Needs

/-! ## What is written -/

namespace Script

/-- The script with a statement among others of its own, inside of further statements. -/
def within (s : Script) (around : Body.Layer) (layers : List Stmt.Layer) (inner : Stmt) : Script :=
  { s with body := around.fill (Stmt.within layers inner) }

@[simp] theorem within_body (s : Script) (around : Body.Layer) (layers : List Stmt.Layer)
    (inner : Stmt) : (s.within around layers inner).body = around.fill (Stmt.within layers inner) :=
  rfl

@[simp] theorem within_comments (s : Script) (around : Body.Layer) (layers : List Stmt.Layer)
    (inner : Stmt) : (s.within around layers inner).comments = s.comments := rfl

@[simp] theorem within_aliases (s : Script) (around : Body.Layer) (layers : List Stmt.Layer)
    (inner : Stmt) : (s.within around layers inner).aliases = s.aliases := rfl

variable {ι : Type} {x : ι → Stmt} {t : Target} {code : Bool} (s₀ : Stmt)

/-- The lines of a script around a statement in which something is left open. -/
theorem uniform_layout {P : Nat → (ι → List Layout) → Prop} (hP : Layout.Kept P) {n : Nat}
    (h : Uniform (P n) fun i => (x i).layout t) (hcode : ∀ i, (x i).hasCode = code)
    (hneeds : ∀ i, (x i).imports t = s₀.imports t) (s : Script) (around : Body.Layer)
    (layers : List Stmt.Layer) (o : Options) :
    ∃ m, Uniform (P m) fun i => (s.within around layers (x i)).layout t o := by
  obtain ⟨m, hm⟩ := Stmt.uniform_within hP h hcode layers
  refine ⟨m, ?_⟩
  have himports (i : ι) : (s.within around layers (x i)).imports t =
      (s.within around layers s₀).imports t := by
    have hbody := around.needs_fill (Stmt.imports_within (hneeds i) layers)
    have haliases : (s.within around layers (x i)).aliasImports t =
        (s.within around layers s₀).aliasImports t := by
      cases t <;> rfl
    simp only [imports, within_body, hbody, haliases]
  cases t with
  | python =>
      simp only [layout, toPython, himports, within_body, within_comments, within_aliases]
      exact .const_bind _ fun needs => .const_bind _ fun aliases =>
        .bind (around.uniform_toPython hP hm) fun F hF => .pure (hP.append_left hF _)
  | typescript =>
      simp only [layout, toTypeScript, himports, within_body, within_comments, within_aliases]
      exact .const_bind _ fun needs => .const_bind _ fun aliases =>
        .bind (around.uniform_toTypeScript hP hm) fun F hF => .pure (hP.append_left hF _)
  | php =>
      simp only [layout, toPhp, himports, within_body, within_comments]
      exact .const_bind _ fun needs =>
        .bind (around.uniform_toPhp hP hm) fun F hF => .pure (hP.append_left hF _)

/-- The file around lines that are left open. Either there is no file, or every file has the lines
at the same place, behind whole lines. -/
theorem write_of_uniform {y : ι → Script} {G : ι → List Layout} {n : Nat} {o : Options}
    (h : Uniform (Layout.HasAt G n) fun i => (y i).layout t o) :
    (∃ e, ∀ i, (y i).write t o = .error e) ∨
    ∃ m before after, IsClosed before ∧ ∀ i, (y i).write t o =
      .ok (before ++ Layout.writeAll o.indent m (G i) ++ after) := by
  rcases h with ⟨e, he⟩ | ⟨F, hF, hok⟩
  · exact .inl ⟨e, fun i => by simp only [write_eq, he, error_bind]⟩
  · obtain ⟨before, after, hclosed, hwritten⟩ := hF o.indent 0
    refine .inr ⟨n, before, after, hclosed, fun i => ?_⟩
    simp only [write_eq, hok, ok_bind, hwritten, Nat.zero_add]
    rfl

/-- **The file around the lines of a statement** in which something is left open, at any depth. -/
theorem write_within {G : ι → List Layout} {n : Nat}
    (h : Uniform (Layout.HasAt G n) fun i => (x i).layout t) (hcode : ∀ i, (x i).hasCode = code)
    (hneeds : ∀ i, (x i).imports t = s₀.imports t) (s : Script) (around : Body.Layer)
    (layers : List Stmt.Layer) (o : Options) :
    (∃ e, ∀ i, (s.within around layers (x i)).write t o = .error e) ∨
    ∃ m before after, IsClosed before ∧ ∀ i, (s.within around layers (x i)).write t o =
      .ok (before ++ Layout.writeAll o.indent m (G i) ++ after) := by
  obtain ⟨m, hm⟩ := uniform_layout s₀ (Layout.kept_hasAt G) h hcode hneeds s around layers o
  exact write_of_uniform hm

end Script

end Polyglot
