import Polyglot.Proofs.Outcome
import Polyglot.Stmt.Class

/-!
# Constructors that follow from properties

The constructor of a class is put together from its properties and its parents.

* `Class.exists_of_constructor` : what its signature and its statements are.
* `Class.overloads_of_constructor` : it has no overloads.
* `Class.checkBody_of_constructor` : it may have statements.
* `Class.properties_ne_nil_of_constructor` : the class has properties.
-/

set_option autoImplicit false

namespace Polyglot.Class

open Outcome

variable {t : Target}

/-- What a constructor is made of: the parameters of the properties that are arguments, the call of
the parent's constructor, and statements that store arguments and defaults. -/
theorem exists_of_constructor {c : Class} {k : Constructor}
    (h : c.constructor t = .ok (some k)) :
    ∃ params, c.initargs.mapM Property.param = .ok params ∧
      k.signature = .constructor (params ++ c.forwardedParams t) ∧
      ∀ p ∈ k.body, p ∈ c.parentCall? t ∨ p ∈ c.initargs.map storeArgument ∨
        p ∈ c.properties.filterMap (storeDefault? t) := by
  rw [constructor] at h
  split at h
  · cases h
  · obtain ⟨params, hp, h⟩ := bind_eq_ok.1 h
    cases pure_eq_ok.1 h
    refine ⟨params, hp, rfl, fun p hmem => ?_⟩
    cases t <;> simp only [List.mem_append, Option.mem_toList] at hmem <;> tauto

/-- A constructor that follows from the properties has no overloads. -/
theorem overloads_of_constructor {c : Class} {k : Constructor}
    (h : c.constructor t = .ok (some k)) : k.signature.overloads = [] := by
  obtain ⟨_, _, hsignature, _⟩ := exists_of_constructor h
  rw [hsignature]
  rfl

/-- A constructor that follows from the properties is not abstract. -/
theorem checkBody_of_constructor {c : Class} {k : Constructor}
    (h : c.constructor t = .ok (some k)) : k.signature.checkBody k.body.isEmpty = .ok () := by
  obtain ⟨_, _, hsignature, _⟩ := exists_of_constructor h
  rw [hsignature]
  rfl

/-- A constructor that follows from the properties needs some. -/
theorem properties_ne_nil_of_constructor {c : Class} {k : Constructor}
    (h : c.constructor t = .ok (some k)) : c.properties ≠ [] := by
  intro hnil
  rw [constructor, initargs, hnil] at h
  cases h

end Polyglot.Class
