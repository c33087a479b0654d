import Mathlib.Data.Finset.Union
import Polyglot.Ty.Widening

/-!
# Alternatives of types

A union has the alternatives of its members, an optional type those of the type in it and null, and
any other type stands for itself. Widening keeps all alternatives and adds those that it is asked
for, in whatever shape the type is.

* `Ty.flattened`, `Ty.alternatives` : the alternatives as they stand in a type, and as a set.
* `Ty.alternatives_optional`, `Ty.alternatives_union` : where they come from.
* `Ty.alternatives_orNull`, `Ty.alternatives_orOmit`, `Ty.alternatives_widen` : what widening adds.
-/

set_option autoImplicit false

namespace Polyglot.Ty

mutual

/-- The alternatives in the order in which they stand in a type, with repetitions. -/
def flattened : Ty → List Ty
  | .optional inner => inner.flattened ++ [.null]
  | .union members => flattenedAll members
  | ty => [ty]

def flattenedAll : List Ty → List Ty
  | [] => []
  | ty :: tys => ty.flattened ++ flattenedAll tys

end

theorem mem_flattenedAll {a : Ty} {tys : List Ty} :
    a ∈ flattenedAll tys ↔ ∃ ty ∈ tys, a ∈ ty.flattened := by
  induction tys with
  | nil => simp [flattenedAll]
  | cons ty tys ih => simp [flattenedAll, ih]

/-- The set of the alternatives. -/
def alternatives (ty : Ty) : Finset Ty := ty.flattened.toFinset

theorem mem_alternatives {a ty : Ty} : a ∈ ty.alternatives ↔ a ∈ ty.flattened := List.mem_toFinset

@[simp] theorem alternatives_null : Ty.null.alternatives = {.null} := rfl

@[simp] theorem alternatives_omit : Ty.omit.alternatives = {.omit} := rfl

@[simp] theorem alternatives_optional (inner : Ty) :
    (Ty.optional inner).alternatives = insert .null inner.alternatives := by
  ext a
  rw [Finset.mem_insert, mem_alternatives, mem_alternatives, flattened, List.mem_append,
    List.mem_singleton, or_comm]

@[simp] theorem alternatives_union (members : List Ty) :
    (Ty.union members).alternatives = members.toFinset.biUnion alternatives := by
  ext a
  simp only [Finset.mem_biUnion, List.mem_toFinset, mem_alternatives, flattened, mem_flattenedAll]

/-- A union of a type and further ones. -/
theorem alternatives_union_cons (ty : Ty) (tys : List Ty) :
    (Ty.union (ty :: tys)).alternatives = ty.alternatives ∪ tys.toFinset.biUnion alternatives := by
  simp

/-! ## Widening -/

/-- Null is added to the alternatives. -/
theorem alternatives_orNull (ty : Ty) : ty.orNull.alternatives = insert .null ty.alternatives := by
  cases ty with
  | optional inner => simp [orNull]
  | union members => simp [orNull, Finset.union_comm]
  | _ => exact alternatives_optional _

/-- A union of a type and the sentinel's. -/
theorem alternatives_union_omit (ty : Ty) :
    (Ty.union [ty, .omit]).alternatives = insert .omit ty.alternatives := by
  simp [Finset.union_comm]

/-- The sentinel's type is added to the alternatives; what was optional still accepts null. -/
theorem alternatives_orOmit (ty : Ty) : ty.orOmit.alternatives = insert .omit ty.alternatives := by
  cases ty with
  | optional inner =>
      rw [orOmit, alternatives_union_cons, alternatives_optional, Finset.union_comm]
      simp [Finset.insert_comm]
  | union members => simp [orOmit, Finset.union_comm]
  | _ => exact alternatives_union_omit _

/-- The alternatives of all further types are added; what was optional still accepts null. -/
theorem alternatives_widen (ty : Ty) (extra : List Ty) :
    (ty.widen extra).alternatives = ty.alternatives ∪ extra.toFinset.biUnion alternatives := by
  cases ty with
  | optional inner => simp [widen]
  | union members => simp [widen, Finset.union_biUnion]
  | _ => exact alternatives_union_cons _ _

end Polyglot.Ty
