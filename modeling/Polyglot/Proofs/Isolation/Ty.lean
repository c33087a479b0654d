import Polyglot.Ty.Imports
import Polyglot.Ty.Php
import Polyglot.Ty.Python
import Polyglot.Ty.TypeScript

/-!
# What a language sees of a type

A description for several languages holds values that are meant for single languages. For one
language the values meant for the others are blanked; what is left is what the language sees. No
language writes anything but what it sees, and none needs imports for anything else.

* `PerTarget.seenBy`, `Requests.seenBy`, `Ty.seenBy` : what is left.
* `Ty.toPython_seenBy`, `Ty.toTypeScript_seenBy`, `Ty.toPhp_seenBy` : it is written the same.
* `Ty.imports_seenBy` : it needs the same imports.
-/

set_option autoImplicit false

namespace Polyglot

/-- The value for one language, and blanks for the others. -/
def PerTarget.seenBy {α : Type} (blank : α) (p : PerTarget α) : Target → PerTarget α
  | .python => ⟨p.python, blank, blank⟩
  | .typescript => ⟨blank, p.typescript, blank⟩
  | .php => ⟨blank, blank, p.php⟩

@[simp] theorem PerTarget.get_seenBy {α : Type} (blank : α) (p : PerTarget α) (t : Target) :
    (p.seenBy blank t).get t = p.get t := by
  cases t <;> rfl

/-- The requirements for one language. -/
def Requests.seenBy (rs : Requests) (t : Target) : Requests := rs.filter fun r => r.1 = t

@[simp] theorem Requests.for_seenBy (rs : Requests) (t : Target) :
    (rs.seenBy t).for t = rs.for t := by
  rw [Requests.for, Requests.seenBy, List.filter_filter, Requests.for]
  simp only [Bool.and_self]

/-- The spelling for one language, with the imports for it. -/
def CustomTy.seenBy (c : CustomTy) (t : Target) : CustomTy where
  python := if t = .python then c.python else none
  typescript := if t = .typescript then c.typescript else none
  php := if t = .php then c.php else none
  imports := c.imports.seenBy t

namespace Ty

mutual

/-- What one language sees of a type: the texts and spellings for other languages are gone. -/
def seenBy (t : Target) : Ty → Ty
  | .any => .any
  | .str => .str
  | .num => .num
  | .bool => .bool
  | .null => .null
  | .omit => .omit
  | .literal values => .literal values
  | .optional inner => .optional (inner.seenBy t)
  | .list inner => .list (inner.seenBy t)
  | .set inner => .set (inner.seenBy t)
  | .dict key value => .dict (key.seenBy t) (value.seenBy t)
  | .map key value => .map (key.seenBy t) (value.seenBy t)
  | .union members => .union (seenByAll t members)
  | .callable params result => .callable (seenByAll t params) (result.seenBy t)
  | .alias name base => .alias name (base.seenBy t)
  | .custom spelling => .custom (spelling.seenBy t)
  | .python text quoted => if t = .python then .python text quoted else .python "" false
  | .typescript text => if t = .typescript then .typescript text else .typescript ""

def seenByAll (t : Target) : List Ty → List Ty
  | [] => []
  | ty :: tys => ty.seenBy t :: seenByAll t tys

end

theorem length_seenByAll (t : Target) (tys : List Ty) :
    (seenByAll t tys).length = tys.length := by
  induction tys with
  | nil => rfl
  | cons ty tys ih => rw [seenByAll, List.length_cons, List.length_cons, ih]

/-! ## Writing -/

mutual

theorem toPython_seenBy : ∀ ty : Ty, (ty.seenBy .python).toPython = ty.toPython
  | .any | .str | .num | .bool | .null | .omit | .literal _ | .alias _ _ | .python _ _
  | .typescript _ => rfl
  | .optional inner | .list inner | .set inner => by
      rw [seenBy, toPython, toPython, toPython_seenBy inner]
  | .dict key value | .map key value => by
      rw [seenBy, toPython, toPython, toPython_seenBy key, toPython_seenBy value]
  | .union [] => rfl
  | .union (member :: members) => by
      have ih := toPythonAll_seenBy (member :: members)
      rw [seenByAll] at ih
      rw [seenBy, seenByAll, toPython, toPython, ih]
      · simp
      · simp
  | .callable params result => by
      rw [seenBy, toPython, toPython, toPythonAll_seenBy params, toPython_seenBy result]
  | .custom _ => rfl

theorem toPythonAll_seenBy : ∀ tys : List Ty, toPythonAll (seenByAll .python tys) = toPythonAll tys
  | [] => rfl
  | ty :: tys => by
      rw [seenByAll, toPythonAll, toPythonAll, toPython_seenBy ty, toPythonAll_seenBy tys]

end

mutual

theorem toTypeScript_seenBy : ∀ ty : Ty, (ty.seenBy .typescript).toTypeScript = ty.toTypeScript
  | .any | .str | .num | .bool | .null | .omit | .literal _ | .alias _ _ | .python _ _
  | .typescript _ => rfl
  | .optional inner | .list inner | .set inner => by
      rw [seenBy, toTypeScript, toTypeScript, toTypeScript_seenBy inner]
  | .dict key value | .map key value => by
      rw [seenBy, toTypeScript, toTypeScript, toTypeScript_seenBy key, toTypeScript_seenBy value]
  | .union [] => rfl
  | .union (member :: members) => by
      have ih := toTypeScriptAll_seenBy (member :: members)
      rw [seenByAll] at ih
      rw [seenBy, seenByAll, toTypeScript, toTypeScript, ih]
      · simp
      · simp
  | .callable params result => by
      rw [seenBy, toTypeScript, toTypeScript, length_seenByAll, toTypeScriptAll_seenBy params,
        toTypeScript_seenBy result]
  | .custom _ => rfl

theorem toTypeScriptAll_seenBy :
    ∀ tys : List Ty, toTypeScriptAll (seenByAll .typescript tys) = toTypeScriptAll tys
  | [] => rfl
  | ty :: tys => by
      rw [seenByAll, toTypeScriptAll, toTypeScriptAll, toTypeScript_seenBy ty,
        toTypeScriptAll_seenBy tys]

end

mutual

theorem toPhp_seenBy : ∀ ty : Ty, (ty.seenBy .php).toPhp = ty.toPhp
  | .any | .str | .num | .bool | .null | .omit | .literal _ | .set _ | .map _ _ | .callable _ _
  | .python _ _ | .typescript _ => rfl
  | .optional inner | .list inner => by
      rw [seenBy, toPhp, toPhp, toPhp_seenBy inner]
  | .dict _ value => by
      rw [seenBy, toPhp, toPhp, toPhp_seenBy value]
  | .union [] => rfl
  | .union (member :: members) => by
      have ih := toPhpAll_seenBy (member :: members)
      rw [seenByAll] at ih
      rw [seenBy, seenByAll, toPhp, toPhp, ih]
      · simp
      · simp
  | .alias _ base => by
      rw [seenBy, toPhp, toPhp, toPhp_seenBy base]
  | .custom _ => rfl

theorem toPhpAll_seenBy : ∀ tys : List Ty, toPhpAll (seenByAll .php tys) = toPhpAll tys
  | [] => rfl
  | ty :: tys => by
      rw [seenByAll, toPhpAll, toPhpAll, toPhp_seenBy ty, toPhpAll_seenBy tys]

end

@[simp] theorem pythonText_seenBy (ty : Ty) : (ty.seenBy .python).pythonText = ty.pythonText := by
  rw [pythonText, toPython_seenBy, pythonText]

@[simp] theorem typeScriptText_seenBy (ty : Ty) :
    (ty.seenBy .typescript).typeScriptText = ty.typeScriptText := by
  rw [typeScriptText, toTypeScript_seenBy, typeScriptText]

@[simp] theorem phpVarComment_seenBy (ty : Ty) :
    (ty.seenBy .php).phpVarComment = ty.phpVarComment := by
  rw [phpVarComment, toPhp_seenBy, phpVarComment]

/-! ## Imports -/

mutual

theorem imports_seenBy (t : Target) : ∀ ty : Ty, (ty.seenBy t).imports t = ty.imports t
  | .any | .str | .num | .bool | .null | .omit | .literal _ => rfl
  | .python _ _ | .typescript _ => by cases t <;> rfl
  | .optional inner | .list inner | .set inner => by
      rw [seenBy, imports, imports, imports_seenBy t inner]
  | .dict key value | .map key value => by
      rw [seenBy, imports, imports, imports_seenBy t key, imports_seenBy t value]
  | .union members => by
      rw [seenBy, imports, imports, importsAll_seenBy t members]
  | .callable params result => by
      rw [seenBy, imports, imports, importsAll_seenBy t params, imports_seenBy t result]
  | .alias _ base => by
      cases t with
      | php => exact imports_seenBy .php base
      | python | typescript => rfl
  | .custom spelling => Requests.for_seenBy spelling.imports t

theorem importsAll_seenBy (t : Target) :
    ∀ tys : List Ty, importsAll t (seenByAll t tys) = importsAll t tys
  | [] => rfl
  | ty :: tys => by
      rw [seenByAll, importsAll, importsAll, imports_seenBy t ty, importsAll_seenBy t tys]

end

end Ty

end Polyglot
