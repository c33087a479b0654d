import Polyglot.Ty.Basic

/-!
# Widening of types

Types that accept more values than a given one: null, the sentinel for an argument that was not
supplied, or any list of further alternatives. A union gains members at its end; an optional type
is opened rather than nested.

* `hasOmittable_orOmit` : a type widened by the sentinel accepts it.
* `hasOmittable_orNull` : widening by null keeps the sentinel.
-/

set_option autoImplicit false

namespace Polyglot.Ty

/-- The type together with null. -/
def orNull : Ty → Ty
  | .optional t => .optional t
  | .union members => .union (members ++ [.null])
  | t => .optional t

/-- The type together with the sentinel. -/
def orOmit : Ty → Ty
  | .optional t => .union [t, .null, .omit]
  | .union members => .union (members ++ [.omit])
  | t => .union [t, .omit]

/-- The type together with further alternatives; what was optional still accepts null, last. -/
def widen (extra : List Ty) : Ty → Ty
  | .union members => .union (members ++ extra)
  | .optional t => .union (t :: (extra ++ [.null]))
  | t => .union (t :: extra)

theorem hasOmittable_orOmit (t : Ty) : t.orOmit.hasOmittable = true := by
  cases t <;> simp [orOmit, hasOmittable, isOmit]

theorem hasOmittable_orNull {t : Ty} (h : t.hasOmittable = true) :
    t.orNull.hasOmittable = true := by
  cases t <;> simp_all [orNull, hasOmittable, isOmit]

theorem hasOmittable_widen {t : Ty} (h : t.hasOmittable = true) (extra : List Ty) :
    (t.widen extra).hasOmittable = true := by
  cases t <;> simp_all [widen, hasOmittable, isOmit]

end Polyglot.Ty
