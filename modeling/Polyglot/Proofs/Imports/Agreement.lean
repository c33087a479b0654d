import Polyglot.Error
import Polyglot.Import
import Polyglot.Proofs.Outcome

/-!
# Collections of requirements that agree

Order and multiplicity of collected requirements do not matter. Two collections agree if they fail
with the same error or come to the same set, up to requirements that one of them is known to have
on top.

* `Import.Adds` : the agreement, with what the second collection has on top.
* `Import.Adds.append`, `Import.Adds.request` : collections that are put together.
-/

set_option autoImplicit false

namespace Polyglot.Import

/-- The second collection fails like the first one, or holds what the first one holds and the
requirements on top. -/
inductive Adds (extra : List Import) :
    Except Error (List Import) → Except Error (List Import) → Prop
  | error (e : Error) : Adds extra (.error e) (.error e)
  | ok {is js : List Import} (mem : ∀ i, i ∈ js ↔ i ∈ extra ∨ i ∈ is) : Adds extra (.ok is) (.ok js)

namespace Adds

variable {extra extra' own : List Import} {x x' y y' : Except Error (List Import)}

theorem refl (x : Except Error (List Import)) : Adds [] x x := by
  cases x with
  | error e => exact .error e
  | ok is => exact .ok fun i => by simp

/-- Collections that are made one after the other. -/
theorem append (hx : Adds extra x x') (hy : Adds extra' y y') :
    Adds (extra ++ extra') (do
      let is ← x
      let js ← y
      return is ++ js) (do
      let is ← x'
      let js ← y'
      return is ++ js) := by
  cases hx with
  | error e => exact .error e
  | ok hx =>
      cases hy with
      | error e => exact .error e
      | ok hy =>
          refine .ok fun i => ?_
          simp only [List.mem_append, hx, hy]
          tauto

/-- Requirements of both collections in front. -/
theorem prepend (own : List Import) (hx : Adds extra x x') :
    Adds extra (do
      let is ← x
      return own ++ is) (do
      let is ← x'
      return own ++ is) := by
  cases hx with
  | error e => exact .error e
  | ok hx =>
      refine .ok fun i => ?_
      simp only [List.mem_append, hx]
      tauto

/-- Requirements of both collections in front of two that are made one after the other. -/
theorem prepend_append (own : List Import) (hx : Adds extra x x') (hy : Adds extra' y y') :
    Adds (extra ++ extra') (do
      let is ← x
      let js ← y
      return own ++ is ++ js) (do
      let is ← x'
      let js ← y'
      return own ++ is ++ js) := by
  cases hx with
  | error e => exact .error e
  | ok hx =>
      cases hy with
      | error e => exact .error e
      | ok hy =>
          refine .ok fun i => ?_
          simp only [List.mem_append, hx, hy]
          tauto

/-- Requirements that the second collection alone has in front. -/
theorem request (own : List Import) (hx : Adds extra x x') :
    Adds (own ++ extra) (do
      let is ← x
      return [] ++ is) (do
      let is ← x'
      return own ++ is) := by
  cases hx with
  | error e => exact .error e
  | ok hx =>
      refine .ok fun i => ?_
      simp only [List.mem_append, List.nil_append, hx]
      tauto

end Adds

end Polyglot.Import
