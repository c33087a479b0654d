import Polyglot.Ty.Imports
import Polyglot.Ty.Php

/-!
# Types without names

A named type is a name for its base. With every name replaced by its base, at any depth, a type is
free of names; PHP, which has none, does not see the difference.

* `Ty.unaliased` : the type with its names replaced.
* `Ty.isAliasFree_unaliased`, `Ty.unaliased_eq_self` : it is free of names, and a type that is free
  of names stays as it is.
* `Ty.toPhp_unaliased`, `Ty.imports_unaliased` : in PHP it is written the same and needs the same
  imports.
-/

set_option autoImplicit false

namespace Polyglot.Ty

mutual

/-- A type with every named type in it replaced by its base. -/
def unaliased : Ty → Ty
  | .any => .any
  | .str => .str
  | .num => .num
  | .bool => .bool
  | .null => .null
  | .omit => .omit
  | .literal values => .literal values
  | .optional inner => .optional inner.unaliased
  | .list inner => .list inner.unaliased
  | .set inner => .set inner.unaliased
  | .dict key value => .dict key.unaliased value.unaliased
  | .map key value => .map key.unaliased value.unaliased
  | .union members => .union (unaliasedAll members)
  | .callable params result => .callable (unaliasedAll params) result.unaliased
  | .alias _ base => base.unaliased
  | .custom spelling => .custom spelling
  | .python text quoted => .python text quoted
  | .typescript text => .typescript text

def unaliasedAll : List Ty → List Ty
  | [] => []
  | ty :: tys => ty.unaliased :: unaliasedAll tys

end

/-! ## Freedom from names -/

mutual

/-- No named type stands in the type. -/
def IsAliasFree : Ty → Prop
  | .any | .str | .num | .bool | .null | .omit | .literal _ | .custom _ | .python _ _
  | .typescript _ => True
  | .optional inner | .list inner | .set inner => inner.IsAliasFree
  | .dict key value | .map key value => key.IsAliasFree ∧ value.IsAliasFree
  | .union members => AreAliasFree members
  | .callable params result => AreAliasFree params ∧ result.IsAliasFree
  | .alias _ _ => False

def AreAliasFree : List Ty → Prop
  | [] => True
  | ty :: tys => ty.IsAliasFree ∧ AreAliasFree tys

end

mutual

theorem isAliasFree_unaliased : ∀ ty : Ty, ty.unaliased.IsAliasFree
  | .any | .str | .num | .bool | .null | .omit | .literal _ | .custom _ | .python _ _
  | .typescript _ => trivial
  | .optional inner | .list inner | .set inner => isAliasFree_unaliased inner
  | .dict key value | .map key value => ⟨isAliasFree_unaliased key, isAliasFree_unaliased value⟩
  | .union members => areAliasFree_unaliasedAll members
  | .callable params result => ⟨areAliasFree_unaliasedAll params, isAliasFree_unaliased result⟩
  | .alias _ base => by
      rw [unaliased]
      exact isAliasFree_unaliased base

theorem areAliasFree_unaliasedAll : ∀ tys : List Ty, AreAliasFree (unaliasedAll tys)
  | [] => trivial
  | ty :: tys => ⟨isAliasFree_unaliased ty, areAliasFree_unaliasedAll tys⟩

end

mutual

theorem unaliased_eq_self : ∀ {ty : Ty}, ty.IsAliasFree → ty.unaliased = ty
  | .any, _ | .str, _ | .num, _ | .bool, _ | .null, _ | .omit, _ | .literal _, _ | .custom _, _
  | .python _ _, _ | .typescript _, _ => rfl
  | .optional inner, h | .list inner, h | .set inner, h => by
      have hinner : inner.IsAliasFree := h
      rw [unaliased, unaliased_eq_self hinner]
  | .dict key value, ⟨hkey, hvalue⟩ | .map key value, ⟨hkey, hvalue⟩ => by
      rw [unaliased, unaliased_eq_self hkey, unaliased_eq_self hvalue]
  | .union members, h => by
      have hmembers : AreAliasFree members := h
      rw [unaliased, unaliasedAll_eq_self hmembers]
  | .callable params result, ⟨hparams, hresult⟩ => by
      rw [unaliased, unaliasedAll_eq_self hparams, unaliased_eq_self hresult]
  | .alias _ _, h => h.elim

theorem unaliasedAll_eq_self : ∀ {tys : List Ty}, AreAliasFree tys → unaliasedAll tys = tys
  | [], _ => rfl
  | _ :: _, ⟨hty, htys⟩ => by
      rw [unaliasedAll, unaliased_eq_self hty, unaliasedAll_eq_self htys]

end

/-! ## PHP -/

mutual

/-- PHP writes the base of a named type, also where it asks whether an array suffix applies. -/
theorem toPhp_unaliased : ∀ ty : Ty, ty.unaliased.toPhp = ty.toPhp
  | .any | .str | .num | .bool | .null | .omit | .literal _ | .set _ | .map _ _ | .callable _ _
  | .custom _ | .python _ _ | .typescript _ => rfl
  | .optional inner | .list inner => by
      rw [unaliased, toPhp, toPhp, toPhp_unaliased inner]
  | .dict _ value => by
      rw [unaliased, toPhp, toPhp, toPhp_unaliased value]
  | .union [] => rfl
  | .union (member :: members) => by
      have ih := toPhpAll_unaliased (member :: members)
      rw [unaliasedAll] at ih
      rw [unaliased, unaliasedAll, toPhp, toPhp, ih]
      · simp
      · simp
  | .alias _ base => by
      rw [unaliased, toPhp, toPhp_unaliased base]

theorem toPhpAll_unaliased : ∀ tys : List Ty, toPhpAll (unaliasedAll tys) = toPhpAll tys
  | [] => rfl
  | ty :: tys => by
      rw [unaliasedAll, toPhpAll, toPhpAll, toPhp_unaliased ty, toPhpAll_unaliased tys]

end

/-- The base decides whether the type of a list has an array suffix. -/
example : (list (.alias "Id" .num)).toPhp = .ok ⟨some "array", "int[]", false⟩ ∧
    (list (.alias "Id" (.optional .num))).toPhp = .ok ⟨some "array", "mixed", false⟩ :=
  ⟨rfl, rfl⟩

mutual

/-- PHP needs for a named type what it needs for the base. -/
theorem imports_unaliased : ∀ ty : Ty, ty.unaliased.imports .php = ty.imports .php
  | .any | .str | .num | .bool | .null | .omit | .literal _ | .custom _ | .python _ _
  | .typescript _ => rfl
  | .optional inner | .list inner | .set inner => by
      rw [unaliased, imports, imports, imports_unaliased inner]
  | .dict key value | .map key value => by
      rw [unaliased, imports, imports, imports_unaliased key, imports_unaliased value]
  | .union members => by
      rw [unaliased, imports, imports, importsAll_unaliased members]
  | .callable params result => by
      rw [unaliased, imports, imports, importsAll_unaliased params, imports_unaliased result]
  | .alias _ base => by
      rw [unaliased, imports, imports_unaliased base]

theorem importsAll_unaliased :
    ∀ tys : List Ty, importsAll .php (unaliasedAll tys) = importsAll .php tys
  | [] => rfl
  | ty :: tys => by
      rw [unaliasedAll, importsAll, importsAll, imports_unaliased ty, importsAll_unaliased tys]

end

end Polyglot.Ty
