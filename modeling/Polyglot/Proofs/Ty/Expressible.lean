import Polyglot.Proofs.OneLine.Ty
import Polyglot.Ty.Php

/-!
# Which types a language can express

A language writes a type from the outside to the inside, but not all of it: a named type is its
name, except in PHP, where it is its base, and PHP says nothing of keys or of what a map or a
function takes. A type can be written unless something that is written is missing in the language.

* `Ty.parts`, `Ty.WrittenIn` : the types that a language writes inside a type, directly or at any
  depth.
* `Ty.IsInexpressible` : what a language has no type for, by the root of the type.
* `Ty.renders_iff_parts` : a type can be written if its root and all its parts can be.
* `Ty.renders_iff_written` : a type can be written exactly if nothing in it that is written is missing.
* `Ty.isSpelled_iff_written` : the caller spells nothing but names in a type.
* `Ty.fails_iff` : **the same, language by language**, for types with values in their literal sets.
-/

set_option autoImplicit false

namespace Polyglot.Ty

open Outcome

variable {t : Target} {ty : Ty}

/-! ## What is written of a type -/

/-- The types directly inside a type that a language writes. -/
def parts (t : Target) : Ty → List Ty
  | .any | .str | .num | .bool | .null | .omit | .literal _ | .custom _ | .python _ _
  | .typescript _ => []
  | .optional inner | .list inner => [inner]
  | .set inner => if t = .php then [] else [inner]
  | .dict key value => if t = .php then [value] else [key, value]
  | .map key value => if t = .php then [] else [key, value]
  | .union members => members
  | .callable params result => if t = .php then [] else params ++ [result]
  | .alias _ base => if t = .php then [base] else []

/-- A part is smaller than the type that it stands in. -/
theorem sizeOf_lt_of_mem_parts {inner : Ty} (h : inner ∈ ty.parts t) : sizeOf inner < sizeOf ty := by
  cases ty with
  | any | str | num | bool | null | «omit» | literal | custom | python | typescript =>
      exact nomatch h
  | union members =>
      have hlt : sizeOf inner < sizeOf members := List.sizeOf_lt_of_mem h
      rw [union.sizeOf_spec]
      omega
  | callable params result =>
      rw [callable.sizeOf_spec]
      rw [parts] at h
      split at h
      · exact nomatch h
      · rcases List.mem_append.1 h with h | h
        · have hlt := List.sizeOf_lt_of_mem h
          omega
        · cases List.mem_singleton.1 h
          omega
  | optional | list =>
      cases List.mem_singleton.1 h
      simp only [optional.sizeOf_spec, list.sizeOf_spec]
      omega
  | set | dict | map | «alias» =>
      rw [parts] at h
      simp only [set.sizeOf_spec, dict.sizeOf_spec, map.sizeOf_spec, alias.sizeOf_spec]
      split at h <;> simp only [List.mem_cons, List.not_mem_nil, or_false] at h
      all_goals rcases h with rfl | rfl <;> omega

/-- What passes from the parts to the type holds of every type. -/
theorem induction_on_parts (t : Target) {P : Ty → Prop}
    (step : ∀ ty : Ty, (∀ part ∈ ty.parts t, P part) → P ty) (ty : Ty) : P ty :=
  step ty fun part h => by
    have := sizeOf_lt_of_mem_parts h
    exact induction_on_parts t step part
termination_by sizeOf ty

/-- A language that writes the second type writes the first one in it, at any depth. A type stands
in itself. -/
inductive WrittenIn (t : Target) : Ty → Ty → Prop
  | self (ty : Ty) : WrittenIn t ty ty
  | part {ty inner node : Ty} : inner ∈ ty.parts t → WrittenIn t node inner → WrittenIn t node ty

/-- What stands in a type is the type or stands in a part. -/
theorem writtenIn_iff {node : Ty} :
    node.WrittenIn t ty ↔ node = ty ∨ ∃ part ∈ ty.parts t, node.WrittenIn t part := by
  constructor
  · rintro (_ | ⟨hpart, hnode⟩)
    · exact .inl rfl
    · exact .inr ⟨_, hpart, hnode⟩
  · rintro (rfl | ⟨part, hpart, hnode⟩)
    · exact .self _
    · exact .part hpart hnode

/-- What stands in a type with one part, and is not the type, stands in the part. -/
theorem WrittenIn.of_parts {node inner : Ty} (h : node.WrittenIn t ty) (hne : node ≠ ty)
    (hparts : ty.parts t = [inner]) : node.WrittenIn t inner := by
  rcases writtenIn_iff.1 h with rfl | ⟨part, hpart, hnode⟩
  · exact absurd rfl hne
  · rw [hparts] at hpart
    cases List.mem_singleton.1 hpart
    exact hnode

/-! ## What can be written -/

/-- The type can be written. -/
def Renders (ty : Ty) : Target → Prop
  | .python => Succeeds ty.toPython
  | .typescript => Succeeds ty.toTypeScript
  | .php => Succeeds ty.toPhp

def RenderAll (tys : List Ty) : Target → Prop
  | .python => Succeeds (toPythonAll tys)
  | .typescript => Succeeds (toTypeScriptAll tys)
  | .php => Succeeds (toPhpAll tys)

/-- The language has no such type, whatever stands in it. -/
def IsInexpressible (t : Target) : Ty → Prop
  | .omit | .set _ => t = .php
  | .literal values => t = .php ∧ values.values = []
  | .union members => members = []
  | .callable params _ => t = .typescript ∧ 52 < params.length
  | .custom spelling => spelling.texts t = []
  | .python _ _ => t ≠ .python
  | .typescript _ => t ≠ .typescript
  | .any | .str | .num | .bool | .null | .optional _ | .list _ | .dict _ _ | .map _ _
  | .alias _ _ => False

theorem toPythonAll_eq_mapM (tys : List Ty) : toPythonAll tys = tys.mapM toPython := by
  induction tys with
  | nil => rfl
  | cons ty tys ih => rw [toPythonAll, List.mapM_cons, ih]

theorem toTypeScriptAll_eq_mapM (tys : List Ty) : toTypeScriptAll tys = tys.mapM toTypeScript := by
  induction tys with
  | nil => rfl
  | cons ty tys ih => rw [toTypeScriptAll, List.mapM_cons, ih]

theorem toPhpAll_eq_mapM (tys : List Ty) : toPhpAll tys = tys.mapM toPhp := by
  induction tys with
  | nil => rfl
  | cons ty tys ih => rw [toPhpAll, List.mapM_cons, ih]

theorem renderAll_iff (tys : List Ty) (t : Target) :
    RenderAll tys t ↔ ∀ ty ∈ tys, ty.Renders t := by
  induction tys with
  | nil => cases t <;> exact iff_of_true (succeeds_ok _) (List.forall_mem_nil _)
  | cons ty tys ih =>
      rw [List.forall_mem_cons, ← ih]
      cases t <;> exact succeeds_bind fun _ => succeeds_bind_pure

/-- A union can be written if it has members and all of them can be written. -/
theorem renders_union (members : List Ty) (t : Target) :
    (Ty.union members).Renders t ↔ members ≠ [] ∧ RenderAll members t := by
  cases members with
  | nil => cases t <;> exact iff_of_false (not_succeeds_error _) fun h => h.1 rfl
  | cons ty tys =>
      rw [and_iff_right nofun]
      cases t <;> exact succeeds_bind_pure

theorem length_parameterNames : parameterNames.length = 52 := by decide

/-- A function type can be written if its parameters and its result can be; TypeScript needs a name
for every parameter. -/
theorem renders_callable (params : List Ty) (result : Ty) (ht : t ≠ .php) :
    (Ty.callable params result).Renders t ↔
      ¬(t = .typescript ∧ 52 < params.length) ∧ RenderAll params t ∧ result.Renders t := by
  cases t with
  | php => exact absurd rfl ht
  | python =>
      rw [and_iff_right (fun h => nomatch h.1)]
      exact succeeds_bind fun _ => succeeds_bind_pure
  | typescript =>
      rw [Renders, toTypeScript, length_parameterNames]
      by_cases hlong : 52 < params.length
      · rw [if_pos hlong]
        exact iff_of_false (not_succeeds_error _) fun h => h.1 ⟨rfl, hlong⟩
      · rw [if_neg hlong, and_iff_right fun h => hlong h.2]
        exact succeeds_bind fun _ => succeeds_bind_pure

/-- A type of the caller's can be written if the caller spelled it for the language. -/
theorem renders_custom (spelling : CustomTy) (t : Target) :
    (Ty.custom spelling).Renders t ↔ spelling.texts t ≠ [] := by
  obtain ⟨python, typescript, php, imports⟩ := spelling
  cases t with
  | python => cases python <;> simp [Renders, toPython, CustomTy.texts]
  | typescript => cases typescript <;> simp [Renders, toTypeScript, CustomTy.texts]
  | php => cases php <;> simp [Renders, toPhp, CustomTy.texts]

/-- PHP has a type for every value of a set. -/
theorem phpTypes_eq_nil {values : LiteralSet} : values.phpTypes = [] ↔ values.values = [] := by
  constructor
  · intro h
    by_contra hne
    obtain ⟨v, vs, hvalues⟩ := List.exists_cons_of_ne_nil hne
    have hmem : v.phpType ∈ values.phpTypes :=
      mem_ascending.2 (List.mem_map.2 ⟨v, by rw [hvalues]; exact List.mem_cons_self .., rfl⟩)
    rw [h] at hmem
    exact nomatch hmem
  · intro h
    rw [LiteralSet.phpTypes, h]
    rfl

/-- Python and TypeScript write every literal type, PHP every one with values. -/
theorem renders_literal (values : LiteralSet) (t : Target) :
    (Ty.literal values).Renders t ↔ ¬(t = .php ∧ values.values = []) := by
  cases t with
  | python | typescript => exact iff_of_true (succeeds_ok _) fun h => nomatch h.1
  | php =>
      rw [← phpTypes_eq_nil, Renders, toPhp]
      cases hphp : values.phpTypes with
      | nil => simp
      | cons first rest => cases rest <;> simp

/-- A type can be written if the language has its root and all its parts can be written. -/
theorem renders_iff_parts (ty : Ty) (t : Target) :
    ty.Renders t ↔ ¬ty.IsInexpressible t ∧ ∀ part ∈ ty.parts t, part.Renders t := by
  cases ty with
  | any | str | num | bool | null =>
      cases t <;> exact iff_of_true (succeeds_ok _) ⟨not_false, List.forall_mem_nil _⟩
  | «omit» =>
      cases t with
      | python | typescript =>
          exact iff_of_true (succeeds_ok _) ⟨Target.noConfusion, List.forall_mem_nil _⟩
      | php => exact iff_of_false (not_succeeds_error _) fun h => h.1 rfl
  | literal values =>
      exact (renders_literal values t).trans (and_iff_left (List.forall_mem_nil _)).symm
  | optional inner | list inner =>
      rw [parts, List.forall_mem_singleton, IsInexpressible, and_iff_right not_false]
      cases t <;> exact succeeds_bind_pure
  | set inner =>
      rw [parts, IsInexpressible]
      cases t with
      | python | typescript =>
          rw [if_neg Target.noConfusion, List.forall_mem_singleton]
          exact succeeds_bind_pure.trans (and_iff_right Target.noConfusion).symm
      | php => exact iff_of_false (not_succeeds_error _) fun h => h.1 rfl
  | dict key value =>
      rw [parts, IsInexpressible, and_iff_right not_false]
      cases t with
      | python | typescript =>
          rw [if_neg Target.noConfusion, List.forall_mem_cons, List.forall_mem_singleton]
          exact succeeds_bind fun _ => succeeds_bind_pure
      | php =>
          rw [if_pos rfl, List.forall_mem_singleton]
          exact succeeds_bind_pure
  | map key value =>
      rw [parts, IsInexpressible, and_iff_right not_false]
      cases t with
      | python | typescript =>
          rw [if_neg Target.noConfusion, List.forall_mem_cons, List.forall_mem_singleton]
          exact succeeds_bind fun _ => succeeds_bind_pure
      | php => exact iff_of_true (succeeds_ok _) (List.forall_mem_nil _)
  | union members =>
      rw [parts, ← renderAll_iff]
      exact renders_union members t
  | callable params result =>
      rw [parts, IsInexpressible]
      by_cases ht : t = .php
      · subst ht
        exact iff_of_true (succeeds_ok _) ⟨(fun h => nomatch h.1), List.forall_mem_nil _⟩
      · rw [if_neg ht, List.forall_mem_append, List.forall_mem_singleton, ← renderAll_iff]
        exact renders_callable params result ht
  | «alias» name base =>
      rw [parts, IsInexpressible, and_iff_right not_false]
      cases t with
      | python | typescript => exact iff_of_true (succeeds_ok _) (List.forall_mem_nil _)
      | php =>
          rw [if_pos rfl, List.forall_mem_singleton, Renders, toPhp]
          exact Iff.rfl
  | custom spelling =>
      exact (renders_custom spelling t).trans (and_iff_left (List.forall_mem_nil _)).symm
  | python text quoted =>
      rw [parts, and_iff_left (List.forall_mem_nil _), IsInexpressible, ne_eq, Classical.not_not]
      cases t with
      | python => exact iff_of_true (succeeds_ok _) rfl
      | typescript | php => exact iff_of_false (not_succeeds_error _) Target.noConfusion
  | typescript text =>
      rw [parts, and_iff_left (List.forall_mem_nil _), IsInexpressible, ne_eq, Classical.not_not]
      cases t with
      | typescript => exact iff_of_true (succeeds_ok _) rfl
      | python | php => exact iff_of_false (not_succeeds_error _) Target.noConfusion

/-! ## Whole types -/

/-- **A type can be written in a language exactly if the language has every type in it, at any
depth, that it writes.** -/
theorem renders_iff_written (ty : Ty) (t : Target) :
    ty.Renders t ↔ ∀ node : Ty, node.WrittenIn t ty → ¬node.IsInexpressible t := by
  constructor
  · intro hrenders node hwritten
    induction hwritten with
    | self ty => exact ((renders_iff_parts ty t).1 hrenders).1
    | part hmem _ ih => exact ih (((renders_iff_parts _ t).1 hrenders).2 _ hmem)
  · induction ty using induction_on_parts t with
    | step ty ih =>
        intro hnodes
        refine (renders_iff_parts ty t).2 ⟨hnodes ty (.self ty), fun part hpart => ?_⟩
        exact ih part hpart fun node hwritten => hnodes node (.part hpart hwritten)

/-- A type cannot be written if the language writes a type in it that it does not have. -/
theorem not_renders_iff (ty : Ty) (t : Target) :
    ¬ty.Renders t ↔ ∃ node : Ty, node.WrittenIn t ty ∧ node.IsInexpressible t := by
  rw [renders_iff_written]
  simp only [not_forall, Classical.not_not, exists_prop]

/-! ## Types with free names -/

/-- Of the type itself, without its parts, the caller spells nothing in Python or TypeScript but a
name. -/
def SpellsName (ok : String → Bool) : Ty → Prop
  | .alias name _ => ok name = true
  | .custom _ | .python _ _ | .typescript _ => False
  | .any | .str | .num | .bool | .null | .omit | .literal _ | .optional _ | .list _ | .set _
  | .dict _ _ | .map _ _ | .union _ | .callable _ _ => True

theorem isSpelled_iff_parts {ok : String → Bool} (ht : t ≠ .php) :
    ty.IsSpelled ok ↔ ty.SpellsName ok ∧ ∀ part ∈ ty.parts t, part.IsSpelled ok := by
  cases ty <;> simp [IsSpelled, SpellsName, parts, ht, allSpelled_iff, or_imp, forall_and]

/-- The caller spells nothing but names in a type if that is so everywhere in it. -/
theorem isSpelled_iff_written {ok : String → Bool} (ht : t ≠ .php) :
    ty.IsSpelled ok ↔ ∀ node : Ty, node.WrittenIn t ty → node.SpellsName ok := by
  induction ty using induction_on_parts t with
  | step ty ih =>
      rw [isSpelled_iff_parts ht]
      constructor
      · rintro ⟨hself, hparts⟩ node hnode
        rcases writtenIn_iff.1 hnode with rfl | ⟨part, hpart, hinner⟩
        · exact hself
        · exact (ih part hpart).1 (hparts part hpart) node hinner
      · intro hnodes
        refine ⟨hnodes ty (.self ty), fun part hpart => (ih part hpart).2 fun node hnode => ?_⟩
        exact hnodes node (.part hpart hnode)

/-! ## Language by language -/

theorem isInexpressible_python_iff (ty : Ty) :
    ty.IsInexpressible .python ↔
      ty = .union [] ∨ (∃ text, ty = .typescript text) ∨ ∃ c, ty = .custom c ∧ c.python = none := by
  cases ty <;> simp [IsInexpressible, CustomTy.texts]

theorem isInexpressible_typescript_iff (ty : Ty) :
    ty.IsInexpressible .typescript ↔
      ty = .union [] ∨ (∃ text quoted, ty = .python text quoted) ∨
        (∃ c, ty = .custom c ∧ c.typescript = none) ∨
          ∃ params result, ty = .callable params result ∧ 52 < params.length := by
  cases ty <;> simp [IsInexpressible, CustomTy.texts]

theorem isInexpressible_php_iff (ty : Ty) :
    ty.IsInexpressible .php ↔
      ty = .union [] ∨ ty = .omit ∨ (∃ inner, ty = .set inner) ∨
        (∃ text quoted, ty = .python text quoted) ∨ (∃ text, ty = .typescript text) ∨
          (∃ c, ty = .custom c ∧ c.php = none) ∨
            ∃ values, ty = .literal values ∧ values.values = [] := by
  cases ty with
  | custom c => cases hphp : c.php <;> simp [IsInexpressible, CustomTy.texts, hphp]
  | _ => simp [IsInexpressible]

/-- **Which types a language can express.** A type whose literal sets have values fails in a language
exactly if the language writes a type in it that it does not have: in Python an empty union, a type
that only TypeScript has, or one that the caller did not spell; in TypeScript an empty union, a type
that only Python has, one that the caller did not spell, or a function of more than 52 parameters;
in PHP an empty union, the sentinel's type, a set, a type that only another language has, or one
that the caller did not spell. -/
theorem fails_iff {ty : Ty}
    (hliterals : ∀ values, (Ty.literal values).WrittenIn .php ty → values.values ≠ []) :
    ((∃ e, ty.toPython = .error e) ↔ ∃ node : Ty, node.WrittenIn .python ty ∧
      (node = .union [] ∨ (∃ text, node = .typescript text) ∨
        ∃ c, node = .custom c ∧ c.python = none)) ∧
    ((∃ e, ty.toTypeScript = .error e) ↔ ∃ node : Ty, node.WrittenIn .typescript ty ∧
      (node = .union [] ∨ (∃ text quoted, node = .python text quoted) ∨
        (∃ c, node = .custom c ∧ c.typescript = none) ∨
          ∃ params result, node = .callable params result ∧ 52 < params.length)) ∧
    ((∃ e, ty.toPhp = .error e) ↔ ∃ node : Ty, node.WrittenIn .php ty ∧
      (node = .union [] ∨ node = .omit ∨ (∃ inner, node = .set inner) ∨
        (∃ text quoted, node = .python text quoted) ∨ (∃ text, node = .typescript text) ∨
          ∃ c, node = .custom c ∧ c.php = none)) := by
  refine ⟨?_, ?_, ?_⟩
  · rw [← not_succeeds_iff]
    refine (not_renders_iff ty .python).trans ?_
    simp only [isInexpressible_python_iff]
  · rw [← not_succeeds_iff]
    refine (not_renders_iff ty .typescript).trans ?_
    simp only [isInexpressible_typescript_iff]
  · rw [← not_succeeds_iff]
    refine (not_renders_iff ty .php).trans (exists_congr fun node => and_congr_right fun hnode => ?_)
    have hfull : ¬∃ values, node = .literal values ∧ values.values = [] := by
      rintro ⟨values, rfl, hempty⟩
      exact hliterals values hnode hempty
    rw [isInexpressible_php_iff]
    simp only [hfull, or_false]

/-- A dict of values of a named type without alternatives, which only PHP looks into, and with keys
that PHP does not have and does not write. -/
theorem fails_only_in_php :
    let ty : Ty := .dict (.set .omit) (.optional (.alias "Never" (.union [])))
    (∀ values, (Ty.literal values).WrittenIn .php ty → values.values ≠ []) ∧
      (¬∃ e, ty.toPython = .error e) ∧ ∃ e, ty.toPhp = .error e := by
  intro ty
  have hliterals : ∀ values, (Ty.literal values).WrittenIn .php ty → values.values ≠ [] := by
    intro values h
    have hvalue := h.of_parts Ty.noConfusion rfl
    have hnamed := hvalue.of_parts Ty.noConfusion rfl
    have hbase := hnamed.of_parts Ty.noConfusion rfl
    rcases writtenIn_iff.1 hbase with hself | ⟨_, hpart, _⟩
    · exact Ty.noConfusion hself
    · exact nomatch hpart
  have hunion : (Ty.union []).WrittenIn .php ty :=
    .part (List.mem_singleton_self _) (.part (List.mem_singleton_self _)
      (.part (List.mem_singleton_self _) (.self _)))
  refine ⟨hliterals, ?_, (fails_iff hliterals).2.2.2 ⟨.union [], hunion, .inl rfl⟩⟩
  rw [← not_succeeds_iff, Classical.not_not]
  exact ⟨_, rfl⟩

end Polyglot.Ty
