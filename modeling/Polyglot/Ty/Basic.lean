import Polyglot.Import
import Polyglot.Literal

/-!
# Types

The static type of a value, described once for every output language.

* `Ty.sameAs` compares types; `Ty.sameAs_iff` says that it decides equality.
-/

set_option autoImplicit false

namespace Polyglot

/-- How PHP spells a type that the caller supplies: in signatures, if it can express one, and in
comments. -/
structure PhpSpelling where
  strict : Option String
  doc : String
  deriving DecidableEq, Repr

/-- A type that the caller spells for each language. -/
structure CustomTy where
  python : Option String
  typescript : Option String
  php : Option PhpSpelling
  imports : Requests
  deriving DecidableEq, Repr

/-- The static type of a value. `omit` is the type of the sentinel for an argument that was not
supplied, and `map` is a map object where the language has one. A language without names for types
sees the base of an `alias`. A type that only Python can express is `quoted` if it has to be written
as a string. -/
inductive Ty where
  | any
  | str
  | num
  | bool
  | null
  | omit
  | literal (values : LiteralSet)
  | optional (inner : Ty)
  | list (inner : Ty)
  | set (inner : Ty)
  | dict (key value : Ty)
  | map (key value : Ty)
  | union (members : List Ty)
  | callable (params : List Ty) (result : Ty)
  | alias (name : String) (base : Ty)
  | custom (spelling : CustomTy)
  | python (text : String) (quoted : Bool)
  | typescript (text : String)

namespace Ty

mutual

/-- Whether two types are the same tree. -/
def sameAs : Ty → Ty → Bool
  | .any, .any => true
  | .str, .str => true
  | .num, .num => true
  | .bool, .bool => true
  | .null, .null => true
  | .omit, .omit => true
  | .literal a, .literal b => decide (a = b)
  | .optional a, .optional b => a.sameAs b
  | .list a, .list b => a.sameAs b
  | .set a, .set b => a.sameAs b
  | .dict k v, .dict k' v' => k.sameAs k' && v.sameAs v'
  | .map k v, .map k' v' => k.sameAs k' && v.sameAs v'
  | .union ms, .union ms' => allSame ms ms'
  | .callable ps r, .callable ps' r' => allSame ps ps' && r.sameAs r'
  | .alias n b, .alias n' b' => decide (n = n') && b.sameAs b'
  | .custom c, .custom c' => decide (c = c')
  | .python t q, .python t' q' => decide (t = t') && decide (q = q')
  | .typescript t, .typescript t' => decide (t = t')
  | _, _ => false

/-- Whether two lists hold the same types in the same order. -/
def allSame : List Ty → List Ty → Bool
  | [], [] => true
  | a :: as, b :: bs => a.sameAs b && allSame as bs
  | _, _ => false

end

mutual

theorem sameAs_refl : ∀ a : Ty, a.sameAs a = true
  | .any | .str | .num | .bool | .null | .omit => rfl
  | .literal _ | .custom _ | .python _ _ | .typescript _ => by simp [sameAs]
  | .optional a | .list a | .set a => by simp [sameAs, sameAs_refl a]
  | .dict k v | .map k v => by simp [sameAs, sameAs_refl k, sameAs_refl v]
  | .union ms => by simp [sameAs, allSame_refl ms]
  | .callable ps r => by simp [sameAs, allSame_refl ps, sameAs_refl r]
  | .alias _ b => by simp [sameAs, sameAs_refl b]

theorem allSame_refl : ∀ as : List Ty, allSame as as = true
  | [] => rfl
  | a :: as => by simp [allSame, sameAs_refl a, allSame_refl as]

end

mutual

theorem eq_of_sameAs : ∀ {a b : Ty}, a.sameAs b = true → a = b
  | .any, b, h => by cases b <;> simp_all [sameAs]
  | .str, b, h => by cases b <;> simp_all [sameAs]
  | .num, b, h => by cases b <;> simp_all [sameAs]
  | .bool, b, h => by cases b <;> simp_all [sameAs]
  | .null, b, h => by cases b <;> simp_all [sameAs]
  | .omit, b, h => by cases b <;> simp_all [sameAs]
  | .literal _, b, h => by cases b <;> simp_all [sameAs]
  | .custom _, b, h => by cases b <;> simp_all [sameAs]
  | .python _ _, b, h => by cases b <;> simp_all [sameAs]
  | .typescript _, b, h => by cases b <;> simp_all [sameAs]
  | .optional a, b, h => by
      cases b with
      | optional b => rw [eq_of_sameAs (a := a) (by simpa [sameAs] using h)]
      | _ => simp [sameAs] at h
  | .list a, b, h => by
      cases b with
      | list b => rw [eq_of_sameAs (a := a) (by simpa [sameAs] using h)]
      | _ => simp [sameAs] at h
  | .set a, b, h => by
      cases b with
      | set b => rw [eq_of_sameAs (a := a) (by simpa [sameAs] using h)]
      | _ => simp [sameAs] at h
  | .dict k v, b, h => by
      cases b with
      | dict k' v' =>
          obtain ⟨hk, hv⟩ : k.sameAs k' = true ∧ v.sameAs v' = true := by simpa [sameAs] using h
          rw [eq_of_sameAs hk, eq_of_sameAs hv]
      | _ => simp [sameAs] at h
  | .map k v, b, h => by
      cases b with
      | map k' v' =>
          obtain ⟨hk, hv⟩ : k.sameAs k' = true ∧ v.sameAs v' = true := by simpa [sameAs] using h
          rw [eq_of_sameAs hk, eq_of_sameAs hv]
      | _ => simp [sameAs] at h
  | .union ms, b, h => by
      cases b with
      | union ms' =>
          have hs : allSame ms ms' = true := by simpa [sameAs] using h
          rw [eq_of_allSame hs]
      | _ => simp [sameAs] at h
  | .callable ps r, b, h => by
      cases b with
      | callable ps' r' =>
          obtain ⟨hp, hr⟩ : allSame ps ps' = true ∧ r.sameAs r' = true := by
            simpa [sameAs] using h
          rw [eq_of_allSame hp, eq_of_sameAs hr]
      | _ => simp [sameAs] at h
  | .alias n a, b, h => by
      cases b with
      | «alias» n' b =>
          obtain ⟨hn, hb⟩ : n = n' ∧ a.sameAs b = true := by simpa [sameAs] using h
          rw [hn, eq_of_sameAs hb]
      | _ => simp [sameAs] at h

theorem eq_of_allSame : ∀ {as bs : List Ty}, allSame as bs = true → as = bs
  | [], bs, h => by cases bs <;> simp_all [allSame]
  | a :: as, bs, h => by
      cases bs with
      | nil => simp [allSame] at h
      | cons b bs =>
          obtain ⟨ha, has⟩ : a.sameAs b = true ∧ allSame as bs = true := by
            simpa [allSame] using h
          rw [eq_of_sameAs ha, eq_of_allSame has]

end

/-- The comparison decides equality. -/
theorem sameAs_iff {a b : Ty} : a.sameAs b = true ↔ a = b :=
  ⟨eq_of_sameAs, fun h => h ▸ sameAs_refl a⟩

instance : DecidableEq Ty := fun _ _ => decidable_of_iff _ sameAs_iff

/-- Short names for the types of scalars, for callers that need no more. -/
inductive Scalar where
  | str
  | int
  | bool
  | null
  deriving DecidableEq, Repr

/-- The type that a short name stands for. -/
def ofScalar : Scalar → Ty
  | .str => .str
  | .int => .num
  | .bool => .bool
  | .null => .null

def isOmit : Ty → Bool
  | .omit => true
  | _ => false

/-- Whether this is a union that accepts the sentinel for an argument that was not supplied. -/
def hasOmittable : Ty → Bool
  | .union members => members.any isOmit
  | _ => false

end Ty

end Polyglot
