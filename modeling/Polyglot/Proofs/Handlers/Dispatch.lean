import Polyglot.Proofs.Outcome
import Polyglot.Stmt.TypeScript

/-!
# Handlers that one clause can stand for

A language with a single untyped `catch` takes the handlers of a `try` in one after the other.

* `Dispatch.add_eq_ok` : which handlers are taken in, and what changes.
* `Dispatch.of_ofCatches` : what is left of all handlers together.
* `Handlers.length_toTypeScript` : every handler has a written body.
-/

set_option autoImplicit false

namespace Polyglot

open Outcome

/-- The class that a handler catches in TypeScript; a handler without one catches everything. -/
def Catch.tested (arm : Catch) : Option String := arm.classes.typescript

namespace Dispatch

/-- What the handlers that were taken in catch, in order: classes and at last, if a handler catches
everything, no class. -/
def tested (d : Dispatch) : List (Option String) :=
  d.classes.map some ++ List.replicate d.catchesAll.toNat none

theorem tested_cons (var : Option String) (name : String) (names : List String) (all : Bool) :
    tested ⟨var, name :: names, all⟩ = some name :: tested ⟨var, names, all⟩ := rfl

/-- A handler is taken in if it binds no second variable and none before it catches everything. -/
theorem add_eq_ok {d d' : Dispatch} {arm : Catch} :
    d.add arm = .ok d' ↔ (∀ x ∈ d.var, ∀ y ∈ arm.var, x = y) ∧ d.catchesAll = false ∧
      d' = ⟨d.var.or arm.var, d.classes ++ arm.tested.toList, arm.tested.isNone⟩ := by
  obtain ⟨var, classes, catchesAll⟩ := d
  obtain ⟨name, ⟨python, typescript, php⟩⟩ := arm
  cases catchesAll with
  | true =>
      simp only [add, Bool.true_eq_false, false_and, and_false, iff_false]
      intro h
      split at h
      · split at h <;> cases h
      · cases h
      · cases h
  | false =>
      -- The class only decides what is added; the variables decide whether it is.
      cases var with
      | none => cases typescript <;> simp [add, Catch.tested, pure_eq_ok, eq_comm (a := d')]
      | some x =>
          cases name with
          | none => cases typescript <;> simp [add, Catch.tested, pure_eq_ok, eq_comm (a := d')]
          | some y =>
              by_cases hxy : x = y
              · cases typescript <;> simp [add, Catch.tested, hxy, pure_eq_ok, eq_comm (a := d')]
              · cases typescript <;>
                  simp [add, hxy, throw, throwThe, MonadExceptOf.throw]

/-- What one more handler changes: it may bind the variable, and its class is the last one. -/
theorem of_add {d d' : Dispatch} {arm : Catch} (h : d.add arm = .ok d') :
    d'.var = d.var.or arm.var ∧ d'.tested = d.tested ++ [arm.tested] := by
  obtain ⟨_, hall, rfl⟩ := add_eq_ok.1 h
  refine ⟨rfl, ?_⟩
  rw [tested, tested, hall]
  cases arm.tested <;> simp

theorem of_foldlM {d d' : Dispatch} {arms : List Catch} (h : arms.foldlM add d = .ok d') :
    d'.var = d.var.or (arms.findSome? Catch.var) ∧
      d'.tested = d.tested ++ arms.map Catch.tested := by
  induction arms generalizing d with
  | nil =>
      cases h
      exact ⟨Option.or_none.symm, (List.append_nil _).symm⟩
  | cons arm arms ih =>
      rw [List.foldlM_cons] at h
      obtain ⟨d₁, hadd, h⟩ := bind_eq_ok.1 h
      obtain ⟨hvar₁, htested₁⟩ := of_add hadd
      obtain ⟨hvar, htested⟩ := ih h
      constructor
      · rw [hvar, hvar₁, Option.or_assoc, List.findSome?_cons]
        cases arm.var with
        | none => rfl
        | some name => cases d.var <;> rfl
      · rw [htested, htested₁, List.append_assoc, List.map_cons, List.singleton_append]

/-- Accepted handlers bind the variable that the first one of them binds, and are tested in their
order. -/
theorem of_ofCatches {d : Dispatch} {arms : List Catch} (h : ofCatches arms = .ok d) :
    d.var = arms.findSome? Catch.var ∧ d.tested = arms.map Catch.tested :=
  of_foldlM h

end Dispatch

/-- There is one written body for every handler. -/
theorem Handlers.length_toTypeScript : ∀ {hs : Handlers} {bodies : List (List Layout)}
    {after : List Layout}, hs.toTypeScript = .ok (bodies, after) →
      bodies.length = hs.catches.length
  | .done, _, _, h => by
      cases h
      rfl
  | .cleanup _, _, _, h => by
      obtain ⟨_, _, h⟩ := bind_eq_ok.1 h
      cases pure_eq_ok.1 h
      rfl
  | .handler _ _ rest, _, _, h => by
      obtain ⟨_, _, h⟩ := bind_eq_ok.1 h
      obtain ⟨others, hothers, h⟩ := bind_eq_ok.1 h
      cases pure_eq_ok.1 h
      exact congrArg (· + 1) (length_toTypeScript hothers)

end Polyglot
