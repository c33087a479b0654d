import Polyglot.Proofs.Isolation.Plain

/-!
# What a language sees of a signature

* `Signature.seenBy` : what is left when everything for other languages is blanked.
* `Signature.pythonHead_seenBy`, `Signature.typeScriptHead_seenBy`, `Signature.phpHead_seenBy` : it
  is written the same, or fails with the same error.
* `Signature.imports_seenBy` : it needs the same imports.
-/

set_option autoImplicit false

namespace Polyglot

open Outcome

def Param.seenBy (t : Target) (p : Param) : Param where
  name := p.name
  ty := p.ty.seenBy t
  default := p.default.map (Expr.seenBy t)

def Overload.seenBy (t : Target) (o : Overload) : Overload where
  changes := o.changes.map fun c => (c.1, c.2.map (Ty.seenBy t))
  result := o.result.map (Ty.seenBy t)

/-- What one language sees of a signature; decorators are for one language each. -/
def Signature.seenBy (t : Target) (s : Signature) : Signature :=
  { s with
    result := s.result.map (Ty.seenBy t)
    positional := s.positional.map (Param.seenBy t)
    keyword := s.keyword.map (Param.seenBy t)
    overloads := s.overloads.map (Overload.seenBy t)
    pythonDecorators := if t = .python then s.pythonDecorators else []
    typeScriptDecorators := if t = .typescript then s.typeScriptDecorators else [] }

theorem Overload.find?_changes_seenBy (t : Target) (o : Overload) (name : String) :
    (o.seenBy t).changes.find? (fun c => c.1 = name) =
      (o.changes.find? fun c => c.1 = name).map fun c => (c.1, c.2.map (Ty.seenBy t)) := by
  rw [seenBy, List.find?_map]
  rfl

theorem Overload.param?_seenBy (t : Target) (o : Overload) (p : Param) :
    (o.seenBy t).param? (p.seenBy t) = (o.param? p).map (Param.seenBy t) := by
  rw [param?, Param.seenBy, find?_changes_seenBy, param?]
  cases o.changes.find? fun c => c.1 = p.name with
  | none => rfl
  | some c =>
      obtain ⟨name, ty⟩ := c
      cases ty <;> rfl

theorem Overload.filterMap_param?_seenBy (t : Target) (o : Overload) (ps : List Param) :
    (ps.map (Param.seenBy t)).filterMap (o.seenBy t).param? =
      (ps.filterMap o.param?).map (Param.seenBy t) := by
  rw [List.filterMap_map, List.map_filterMap]
  exact List.filterMap_congr fun p _ => param?_seenBy t o p

namespace Signature

/-! The parts of what a language sees. -/

variable (t : Target) (s : Signature)

@[simp] theorem seenBy_name : (s.seenBy t).name = s.name := rfl

@[simp] theorem seenBy_result : (s.seenBy t).result = s.result.map (Ty.seenBy t) := rfl

@[simp] theorem seenBy_positional :
    (s.seenBy t).positional = s.positional.map (Param.seenBy t) := rfl

@[simp] theorem seenBy_keyword : (s.seenBy t).keyword = s.keyword.map (Param.seenBy t) := rfl

@[simp] theorem seenBy_overloads :
    (s.seenBy t).overloads = s.overloads.map (Overload.seenBy t) := rfl

@[simp] theorem seenBy_isMethod : (s.seenBy t).isMethod = s.isMethod := rfl

@[simp] theorem seenBy_isStatic : (s.seenBy t).isStatic = s.isStatic := rfl

@[simp] theorem seenBy_isAbstract : (s.seenBy t).isAbstract = s.isAbstract := rfl

@[simp] theorem seenBy_isAsync : (s.seenBy t).isAsync = s.isAsync := rfl

@[simp] theorem seenBy_isConstructor : (s.seenBy t).isConstructor = s.isConstructor := rfl

@[simp] theorem seenBy_docstring : (s.seenBy t).docstring = s.docstring := rfl

@[simp] theorem params_seenBy : (s.seenBy t).params = s.params.map (Param.seenBy t) := by
  simp [params]

theorem checkBody_seenBy (isEmpty : Bool) :
    (s.seenBy t).checkBody isEmpty = s.checkBody isEmpty := rfl

/-- The signature of an overload is that of what Python sees. -/
theorem variant_seenBy (o : Overload) :
    (s.seenBy .python).variant (o.seenBy .python) = (s.variant o).seenBy .python := by
  rw [variant, seenBy_positional, seenBy_keyword, Overload.filterMap_param?_seenBy,
    Overload.filterMap_param?_seenBy]
  rfl

end Signature

/-! ## Python -/

theorem Param.toPython_seenBy (p : Param) : (p.seenBy .python).toPython = p.toPython := by
  simp [toPython, seenBy]

namespace Signature

theorem pythonHead_seenBy (s : Signature) : (s.seenBy .python).pythonHead = s.pythonHead := by
  have hdecorations : (s.seenBy .python).pythonDecorations = s.pythonDecorations := rfl
  have hreceiver : (s.seenBy .python).pythonReceiver = s.pythonReceiver := rfl
  simp only [pythonHead, hdecorations, hreceiver, seenBy_name, seenBy_result, seenBy_positional,
    seenBy_keyword, seenBy_isAsync, seenBy_isConstructor, List.isEmpty_map,
    mapM_map_of_eq Param.toPython_seenBy]
  cases s.result with
  | none => rfl
  | some ty =>
      simp only [Option.map_some, Ty.pythonText_seenBy]
      rfl

theorem pythonSuite_seenBy (s : Signature) (hasCode : Bool) (inner : List Layout) :
    (s.seenBy .python).pythonSuite hasCode inner = s.pythonSuite hasCode inner := rfl

theorem pythonOverloads_seenBy (s : Signature) :
    (s.seenBy .python).pythonOverloads = s.pythonOverloads := by
  rw [pythonOverloads, seenBy_overloads, List.mapM_map, pythonOverloads]
  simp only [Function.comp_def, variant_seenBy, pythonHead_seenBy, pythonSuite_seenBy]

end Signature

/-! ## TypeScript -/

theorem Param.toTypeScript_seenBy (p : Param) :
    (p.seenBy .typescript).toTypeScript = p.toTypeScript := by
  simp [toTypeScript, seenBy]

namespace Signature

theorem checkTypeScript_seenBy (s : Signature) :
    (s.seenBy .typescript).checkTypeScript = s.checkTypeScript := by
  simp [checkTypeScript]

theorem typeScriptResult_seenBy (s : Signature) :
    (s.seenBy .typescript).typeScriptResult = s.typeScriptResult := by
  simp only [typeScriptResult, seenBy_result, seenBy_isAsync, seenBy_isConstructor]
  cases s.result with
  | none => rfl
  | some ty =>
      simp only [Option.map_some, Ty.typeScriptText_seenBy]
      rfl

theorem typeScriptHead_seenBy (s : Signature) :
    (s.seenBy .typescript).typeScriptHead = s.typeScriptHead := by
  have hmodifiers : (s.seenBy .typescript).typeScriptModifiers = s.typeScriptModifiers := rfl
  have hdecorators : (s.seenBy .typescript).typeScriptDecorators = s.typeScriptDecorators := rfl
  simp only [typeScriptHead, hmodifiers, hdecorators, checkTypeScript_seenBy,
    typeScriptResult_seenBy, seenBy_name, seenBy_positional, seenBy_isAbstract,
    seenBy_isConstructor, seenBy_docstring, mapM_map_of_eq Param.toTypeScript_seenBy]
  rfl

end Signature

/-! ## PHP -/

theorem Param.toPhp_seenBy (p : Param) : (p.seenBy .php).toPhp = p.toPhp := by
  simp [toPhp, seenBy, Ty.toPhp_seenBy]

namespace Signature

theorem checkPhp_seenBy (s : Signature) : (s.seenBy .php).checkPhp = s.checkPhp := by
  simp [checkPhp]

theorem phpResult_seenBy (s : Signature) : (s.seenBy .php).phpResult = s.phpResult := by
  simp only [phpResult, seenBy_result, seenBy_isConstructor]
  cases s.result with
  | none => rfl
  | some ty => simp only [Option.map_some, Ty.toPhp_seenBy]

theorem phpHead_seenBy (s : Signature) : (s.seenBy .php).phpHead = s.phpHead := by
  have hmodifiers : (s.seenBy .php).phpModifiers = s.phpModifiers := rfl
  simp only [phpHead, hmodifiers, checkPhp_seenBy, phpResult_seenBy, seenBy_name,
    seenBy_positional, seenBy_isAbstract, seenBy_isConstructor, seenBy_docstring,
    mapM_map_of_eq Param.toPhp_seenBy]
  rfl

end Signature

/-! ## Bodies in braces -/

theorem Signature.bracedBody_seenBy (t : Target) (s : Signature) (inner : List Layout) :
    (s.seenBy t).bracedBody inner = s.bracedBody inner := rfl

/-! ## Imports -/

theorem Param.imports_seenBy (t : Target) (p : Param) : (p.seenBy t).imports t = p.imports t := by
  simp [imports, seenBy, Ty.imports_seenBy]

namespace Signature

theorem ownImports_seenBy (t : Target) (s : Signature) :
    (s.seenBy t).ownImports t = s.ownImports t := by
  simp [ownImports, List.flatMap_map, Param.imports_seenBy]

/-- What a language sees of a signature needs the same imports. -/
theorem imports_seenBy (t : Target) (s : Signature) : (s.seenBy t).imports t = s.imports t := by
  cases t with
  | typescript | php =>
      simp only [imports, seenBy_isAbstract, ownImports_seenBy]
      rfl
  | python =>
      simp only [imports, seenBy_isAbstract, seenBy_overloads, List.flatMap_map, variant_seenBy,
        ownImports_seenBy]
      rfl

end Signature

end Polyglot
