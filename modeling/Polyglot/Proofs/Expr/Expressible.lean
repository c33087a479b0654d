import Polyglot.Proofs.Expr.Lists
import Polyglot.Proofs.Expr.Negation
import Polyglot.Proofs.Expr.Operands
import Polyglot.Proofs.Outcome

/-!
# What a language can express

An expression can be written in a language unless some expression in it, at any depth, is one that
the language does not have. Whether a single expression is foreign to a language shows at its root.

* `Expr.IsForeign` : what a language does not have, by the root of the expression.
* `Expr.renders_iff_operands` : an expression can be written if its root is not foreign and all its
  operands can be written.
* `Expr.renders_iff` : **an expression can be written exactly if nothing in it is foreign.**
-/

set_option autoImplicit false

namespace Polyglot

open Outcome

/-- The language writes the type of a cast, and cannot write this one. PHP writes none. -/
def Ty.IsForeign (ty : Ty) : Target → Prop
  | .python => ¬Succeeds ty.toPython
  | .typescript => ¬Succeeds ty.toTypeScript
  | .php => False

namespace Expr

/-- The language does not have the expression, whatever stands in it. -/
def IsForeign (t : Target) : Expr → Prop
  | .only language _ => language ≠ t
  | .perTarget codes => codes.get t = none
  | .junction _ operands => operands = []
  | .cast ty _ => ty.IsForeign t
  | .call _ _ _ named | .apply _ _ _ named => t ≠ .python ∧ named ≠ []
  | .omit | .supplied _ | .await _ => t = .php
  | .literal _ | .null | .list _ _ | .dict _ _ | .item _ _ _ | .itemOr _ _ _ _ | .var _ _
  | .field _ _ | .prop _ _ _ | .text _ | .not _ | .length _ | .isNull _ _ | .compare _ _ _ _
  | .isType _ _ => False

/-- The expression can be written. -/
def Renders (e : Expr) (t : Target) : Prop := Succeeds (e.render t)

variable {t : Target}

/-! ## Lists of expressions -/

theorem succeeds_renderAll (es : List Expr) (t : Target) :
    Succeeds (renderAll es t) ↔ ∀ e ∈ es, e.Renders t := by
  induction es with
  | nil => cases t <;> exact iff_of_true (succeeds_ok _) (List.forall_mem_nil _)
  | cons e es ih =>
      rw [List.forall_mem_cons, ← ih]
      cases t <;> exact succeeds_bind fun _ => succeeds_bind_pure

theorem succeeds_renderNamed (es : List (String × Expr)) (t : Target) :
    Succeeds (renderNamed es t) ↔ ∀ e ∈ es.map Prod.snd, e.Renders t := by
  induction es with
  | nil => cases t <;> exact iff_of_true (succeeds_ok _) (List.forall_mem_nil _)
  | cons e es ih =>
      rw [List.map_cons, List.forall_mem_cons, ← ih]
      cases t <;> exact succeeds_bind fun _ => succeeds_bind_pure

theorem succeeds_renderParts (ps : List Part) (t : Target) :
    Succeeds (renderParts ps t) ↔ ∀ e ∈ ps.filterMap Part.expr?, e.Renders t := by
  induction ps with
  | nil => cases t <;> exact iff_of_true (succeeds_ok _) (List.forall_mem_nil _)
  | cons p ps ih =>
      cases p with
      | chars s =>
          rw [List.filterMap_cons_none rfl, ← ih]
          cases t <;> exact succeeds_bind_pure
      | value e =>
          have hvalue : (Part.value e :: ps).filterMap Part.expr? = e :: ps.filterMap Part.expr? :=
            rfl
          rw [hvalue, List.forall_mem_cons, ← ih]
          cases t <;> exact succeeds_bind fun _ => succeeds_bind_pure

/-! ## One expression and its operands -/

theorem renders_not_of_not_folds {e : Expr} (h : e.foldsNegation = false) :
    (Expr.not e).Renders t ↔ e.Renders t := by
  cases t with
  | python =>
      rw [Renders, render, toPython_not h]
      exact succeeds_bind_pure
  | typescript =>
      rw [Renders, render, toTypeScript_not h]
      exact succeeds_bind_pure
  | php =>
      rw [Renders, render, toPhp_not h]
      exact succeeds_bind_pure

/-- A negation can be written if its operand can, whether or not it is folded into the operand. -/
theorem renders_not : ∀ e : Expr, (Expr.not e).Renders t ↔ e.Renders t
  | .not inner => by
      have hfold : (Expr.not (.not inner)).render t = inner.render t := by cases t <;> rfl
      rw [Renders, hfold]
      exact (renders_not inner).symm
  | .isNull _ _ => by
      cases t <;> exact succeeds_bind_pure.trans succeeds_bind_pure.symm
  | .compare _ _ _ _ => by
      cases t <;>
        exact (succeeds_bind fun _ => succeeds_bind_pure).trans
          (succeeds_bind fun _ => succeeds_bind_pure).symm
  | .literal _ | .null | .omit | .list _ _ | .dict _ _ | .cast _ _ | .item _ _ _
  | .itemOr _ _ _ _ | .var _ _ | .field _ _ | .prop _ _ _ | .call _ _ _ _ | .apply _ _ _ _
  | .text _ | .only _ _ | .junction _ _ | .length _ | .isType _ _ | .supplied _ | .await _
  | .perTarget _ => renders_not_of_not_folds rfl

/-- A subscript with a fallback can be written if its three parts can. -/
theorem renders_itemOr (selector : Selector) (target key fallback : Expr) :
    (Expr.itemOr selector target key fallback).Renders t ↔
      target.Renders t ∧ key.Renders t ∧ fallback.Renders t := by
  cases t with
  | python =>
      cases selector <;>
        exact succeeds_bind fun _ => succeeds_bind fun _ => succeeds_bind_pure
  | typescript | php =>
      exact succeeds_bind fun _ => succeeds_bind fun _ => succeeds_bind_pure

/-- A cast can be written if its type is not foreign and its value can be written. -/
theorem renders_cast (ty : Ty) (value : Expr) :
    (Expr.cast ty value).Renders t ↔ ¬ty.IsForeign t ∧ value.Renders t := by
  cases t with
  | python =>
      rw [Ty.IsForeign, Classical.not_not, ← succeeds_bind_pure (f := Annotation.written)]
      exact succeeds_bind fun _ => succeeds_bind_pure
  | typescript =>
      rw [Ty.IsForeign, Classical.not_not, ← succeeds_bind_pure (f := TypeScriptTy.text), and_comm]
      exact succeeds_bind fun _ => succeeds_bind_pure
  | php => exact (and_iff_right not_false).symm

/-- A call by name can be written if the language has its named arguments, if any, and all arguments
can be written. -/
theorem renders_call (callee : String) (construct : Bool) (args : List Expr)
    (named : List (String × Expr)) :
    (Expr.call callee construct args named).Renders t ↔
      ¬(t ≠ .python ∧ named ≠ []) ∧ Succeeds (renderAll args t) ∧
        Succeeds (renderNamed named t) := by
  cases t with
  | python =>
      rw [and_iff_right fun h => h.1 rfl]
      exact succeeds_bind fun _ => succeeds_bind_pure
  | typescript | php =>
      cases named with
      | nil =>
          rw [and_iff_right fun h => h.2 rfl]
          exact succeeds_bind_pure.trans (and_iff_left (succeeds_ok _)).symm
      | cons n ns => exact iff_of_false (not_succeeds_error _) fun h => h.1 ⟨nofun, nofun⟩

/-- A call of an expression can be written if, besides, the expression can be. -/
theorem renders_apply (callee : Expr) (construct : Bool) (args : List Expr)
    (named : List (String × Expr)) :
    (Expr.apply callee construct args named).Renders t ↔
      ¬(t ≠ .python ∧ named ≠ []) ∧ callee.Renders t ∧ Succeeds (renderAll args t) ∧
        Succeeds (renderNamed named t) := by
  cases t with
  | python =>
      rw [and_iff_right fun h => h.1 rfl]
      exact succeeds_bind fun _ => succeeds_bind fun _ => succeeds_bind_pure
  | typescript =>
      cases named with
      | nil =>
          rw [and_iff_right fun h => h.2 rfl]
          exact succeeds_bind fun _ => succeeds_bind_pure.trans (and_iff_left (succeeds_ok _)).symm
      | cons n ns => exact iff_of_false (not_succeeds_error _) fun h => h.1 ⟨nofun, nofun⟩
  | php =>
      cases named with
      | nil =>
          rw [and_iff_right fun h => h.2 rfl, and_left_comm]
          exact (succeeds_bind fun _ => succeeds_bind_pure).trans
            (and_congr_right' (and_iff_left (succeeds_ok _)).symm)
      | cons n ns => exact iff_of_false (not_succeeds_error _) fun h => h.1 ⟨nofun, nofun⟩

/-- A text can be written if the expressions in it can be. -/
theorem renders_text (parts : List Part) :
    (Expr.text parts).Renders t ↔ Succeeds (renderParts parts t) := by
  cases t with
  | python | typescript => exact succeeds_bind_pure
  | php =>
      cases parts with
      | nil => exact iff_of_true (succeeds_ok _) (succeeds_ok _)
      | cons p ps => exact succeeds_bind_pure

/-- A combination can be written if it has operands and all of them can be written. -/
theorem renders_junction (op : Junction) (es : List Expr) :
    (Expr.junction op es).Renders t ↔ es ≠ [] ∧ Succeeds (renderAll es t) := by
  cases es with
  | nil => cases t <;> exact iff_of_false (not_succeeds_error _) fun h => h.1 rfl
  | cons e es =>
      rw [and_iff_right nofun]
      cases t <;> exact succeeds_bind_pure

/-- Code for each language can be written if there is code for the language. -/
theorem renders_perTarget (codes : PerTarget (Option Code)) :
    (Expr.perTarget codes).Renders t ↔ codes.get t ≠ none := by
  have hrender : (Expr.perTarget codes).render t =
      (codes.get t).elim (.error (.missing .expr t)) .ok := by
    obtain ⟨python, typescript, php⟩ := codes
    cases t with
    | python => cases python <;> rfl
    | typescript => cases typescript <;> rfl
    | php => cases php <;> rfl
  rw [Renders, hrender]
  cases codes.get t with
  | none => exact iff_of_false (not_succeeds_error _) fun h => h rfl
  | some code => exact iff_of_true (succeeds_ok _) (Option.some_ne_none code)

/-- Code for one language can be written in that language. -/
theorem renders_only (language : Target) (code : Code) :
    (Expr.only language code).Renders t ↔ language = t := by
  have hrender : (Expr.only language code).render t =
      if language = t then .ok code else .error (.notSupported (.exprFor language) t) := by
    cases language <;> cases t <;> rfl
  rw [Renders, hrender]
  by_cases h : language = t
  · rw [if_pos h]
    exact iff_of_true (succeeds_ok _) h
  · rw [if_neg h]
    exact iff_of_false (not_succeeds_error _) h

/-- An expression can be written if its root is not foreign and all its operands can be written. -/
theorem renders_iff_operands (e : Expr) (t : Target) :
    e.Renders t ↔ ¬e.IsForeign t ∧ ∀ o ∈ e.operands, o.Renders t := by
  cases e with
  | literal | null | var | field =>
      cases t <;> exact iff_of_true (succeeds_ok _) ⟨not_false, List.forall_mem_nil _⟩
  | «omit» =>
      cases t with
      | python | typescript =>
          exact iff_of_true (succeeds_ok _) ⟨Target.noConfusion, List.forall_mem_nil _⟩
      | php => exact iff_of_false (not_succeeds_error _) fun h => h.1 rfl
  | list items =>
      rw [operands, ← succeeds_renderAll, IsForeign, and_iff_right not_false]
      cases t <;> exact succeeds_bind_pure
  | dict entries =>
      rw [operands, ← succeeds_renderNamed, IsForeign, and_iff_right not_false]
      cases t <;> exact succeeds_bind_pure
  | cast ty value =>
      rw [operands, List.forall_mem_singleton]
      exact renders_cast ty value
  | item selector target key =>
      rw [operands, List.forall_mem_cons, List.forall_mem_singleton, IsForeign,
        and_iff_right not_false]
      cases t <;> exact succeeds_bind fun _ => succeeds_bind_pure
  | itemOr selector target key fallback =>
      rw [operands, List.forall_mem_cons, List.forall_mem_cons, List.forall_mem_singleton,
        IsForeign, and_iff_right not_false]
      exact renders_itemOr selector target key fallback
  | call callee construct args named =>
      rw [operands, List.forall_mem_append, ← succeeds_renderAll, ← succeeds_renderNamed]
      exact renders_call callee construct args named
  | apply callee construct args named =>
      rw [operands, List.forall_mem_cons, List.forall_mem_append, ← succeeds_renderAll,
        ← succeeds_renderNamed]
      exact renders_apply callee construct args named
  | text parts =>
      rw [operands, ← succeeds_renderParts, IsForeign, and_iff_right not_false]
      exact renders_text parts
  | only language code =>
      rw [IsForeign, Classical.not_not]
      exact (renders_only language code).trans (and_iff_left (List.forall_mem_nil _)).symm
  | junction op es =>
      rw [operands, ← succeeds_renderAll]
      exact renders_junction op es
  | not operand =>
      rw [operands, List.forall_mem_singleton, IsForeign, and_iff_right not_false]
      exact renders_not operand
  | prop | length | isNull | isType =>
      rw [operands, List.forall_mem_singleton, IsForeign, and_iff_right not_false]
      cases t <;> exact succeeds_bind_pure
  | compare op negated left right =>
      rw [operands, List.forall_mem_cons, List.forall_mem_singleton, IsForeign,
        and_iff_right not_false]
      cases t <;> exact succeeds_bind fun _ => succeeds_bind_pure
  | supplied value | await value =>
      rw [operands, List.forall_mem_singleton]
      cases t with
      | python | typescript => exact succeeds_bind_pure.trans (and_iff_right Target.noConfusion).symm
      | php => exact iff_of_false (not_succeeds_error _) fun h => h.1 rfl
  | perTarget codes =>
      exact (renders_perTarget codes).trans (and_iff_left (List.forall_mem_nil _)).symm

/-! ## Whole expressions -/

/-- **An expression can be written in a language exactly if no expression in it, at any depth, is
foreign to the language.** -/
theorem renders_iff (e : Expr) (t : Target) :
    (∃ code, e.render t = .ok code) ↔ ∀ node : Expr, node.Within e → ¬node.IsForeign t := by
  constructor
  · intro hrenders node hwithin
    induction hwithin with
    | self e => exact ((renders_iff_operands e t).1 hrenders).1
    | operand hmem _ ih => exact ih (((renders_iff_operands _ t).1 hrenders).2 _ hmem)
  · induction e using induction_on_operands with
    | step e ih =>
        intro hnodes
        refine (renders_iff_operands e t).2 ⟨hnodes e (.self e), fun o ho => ?_⟩
        exact ih o ho fun node hwithin => hnodes node (.operand ho hwithin)

end Expr

end Polyglot
